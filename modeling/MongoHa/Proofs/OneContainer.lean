/-
Module: MongoHa.Proofs.OneContainer
Layer: Proofs
Purpose: One container at a time works on a volume. Over any number of containers and every interleaving
  of their calls, kills included, two of them are on one data directory only if one runs without the lock
  and has reported it, or was stopped in a way that may leave its mongod up. The wait for the lock itself
  ends at the first attempt that finds it free, or at the first one at or after its deadline.
Imports: MongoHa.Proofs.ContainerBoot
Trusted boundary: none (fully proved)
Main exports: Running, Resting, Tracks, containers_uphold, OnVolume, one_mongod_per_volume,
  unprotected_container_beside, volume_lock_wait, lock_taken_over
Open obligations: none
-/
import MongoHa.Proofs.ContainerBoot

namespace MongoHa.Entrypoint

open Foundations
open Foundations.Monitor

/-! ### Any number of containers -/

section Containers

variable {ι : Type*} {host next : Host ι} {i j : ι} {mine : Known}

/-- What the world holds of a container whose process runs. -/
structure Running (host : Host ι) (i : ι) (mine : Known) : Prop where
  booted : (host.boots i).isSome
  dataDir : mine.dataDir = (host.dataDir i).getD ""
  lock : mine.lock = some .held → ∀ dir, host.dataDir i = some dir → host.holder dir = some i
  sent : host.sent i = mine.sent
  child : host.child i = true → mine.up = true
  strays : host.strays i = 0 ∨ mine.waitFailed = true
  up : mine.up = true → mine.Cleared
  worked : host.worked i = true → mine.Cleared
  waitFailed : host.waitFailed i = mine.waitFailed
  noId : mine.noId = false
  outcome : host.outcome i = none

/-- The world has not changed for this container. -/
structure SameAt (host next : Host ι) (j : ι) : Prop where
  boots : next.boots j = host.boots j
  child : next.child j = host.child j
  strays : next.strays j = host.strays j
  sent : next.sent j = host.sent j
  worked : next.worked j = host.worked j
  waitFailed : next.waitFailed j = host.waitFailed j
  outcome : next.outcome j = host.outcome j

theorem SameAt.dataDir (same : SameAt host next j) : next.dataDir j = host.dataDir j := by
  rw [Host.dataDir, same.boots, Host.dataDir]

theorem Running.congr (running : Running host j mine) (same : SameAt host next j)
    (kept : ∀ dir, host.holder dir = some j → next.holder dir = some j) : Running next j mine where
  booted := by rw [same.boots]; exact running.booted
  dataDir := by rw [same.dataDir]; exact running.dataDir
  lock := by
    intro held dir named
    rw [same.dataDir] at named
    exact kept dir (running.lock held dir named)
  sent := same.sent.trans running.sent
  child := by rw [same.child]; exact running.child
  strays := by rw [same.strays]; exact running.strays
  up := running.up
  worked := by rw [same.worked]; exact running.worked
  waitFailed := same.waitFailed.trans running.waitFailed
  noId := running.noId
  outcome := same.outcome.trans running.outcome

theorem sameAt_self : SameAt host host j := by
  constructor <;> rfl

variable [DecidableEq ι]

theorem sameAt_spawned (other : j ≠ i) : SameAt host (host.spawned i) j := by
  constructor <;> simp [Host.spawned, other]

theorem sameAt_waited {failed : Bool} (other : j ≠ i) : SameAt host (host.waited i failed) j := by
  constructor <;> simp [Host.waited, other]

/-- A call of one container changes nothing for another one, except that it may take a free lock. -/
theorem sameAt_onCall {call : MainCall} {reply : call.Reply} (other : j ≠ i) :
    SameAt host (host.onCall i call reply) j := by
  unfold Host.onCall
  split
  · constructor <;> rfl
  · constructor <;> simp [other]
  · exact sameAt_spawned other
  · exact sameAt_spawned other
  · unfold Host.onSupervisor
    split
    · exact sameAt_waited other
    · exact sameAt_waited other
    · exact sameAt_waited other
    · exact sameAt_spawned other
    · exact sameAt_self
  · exact sameAt_self

omit [DecidableEq ι] in
/-- What a container that knows it is not cleared has not done. -/
theorem Running.unlocked (running : Running host i mine) (unlocked : mine.lock = none) :
    mine.up = false ∧ host.worked i = false := by
  have not_cleared : ¬ mine.Cleared := by simp [Known.Cleared, unlocked]
  refine ⟨?_, ?_⟩
  · simpa using fun up => not_cleared (running.up up)
  · simpa using fun worked => not_cleared (running.worked worked)

theorem Running.spawned (running : Running host i mine) (cleared : mine.Cleared)
    (gone : mine.Gone) : Running (host.spawned i) i (mine.spawned (.ok ())) where
  booted := running.booted
  dataDir := running.dataDir
  lock := running.lock
  sent := running.sent
  child := fun _ => rfl
  strays := by
    rcases gone with down | failed | noId
    · rcases running.strays with none | failed
      · have childDown : host.child i = false := by
          simpa [down] using running.child
        left
        simp [Host.spawned, Host.engines, none, childDown]
      · exact Or.inr failed
    · exact Or.inr failed
    · rw [running.noId] at noId
      cases noId
  up := fun _ => cleared
  worked := running.worked
  waitFailed := running.waitFailed
  noId := running.noId
  outcome := running.outcome

omit [DecidableEq ι] in
theorem Running.reaped (running : Running host i mine) (down : host.child i = false) :
    Running host i { mine with up := false } :=
  { running with
    child := fun up => by simp [down] at up
    up := nofun
    worked := running.worked }

theorem Running.lost (running : Running host i mine) :
    Running (host.waited i true) i { mine with waitFailed := true } :=
  { running with
    strays := Or.inr rfl
    waitFailed := by simp [Host.waited] }

theorem Running.onSupervisor {call : Supervisor.SupervisorCall} {reply : call.Reply}
    (running : Running host i mine) (allowed : mine.Allows (.supervisor call))
    (answered : host.answersSupervisor i call reply) :
    Running (host.onSupervisor i call reply) i (mine.onSupervisor call reply) := by
  cases call with
  | childId =>
      have named : reply.isNone = false := by
        cases reply with
        | none => cases answered
        | some pid => rfl
      have same : mine.onSupervisor .childId reply = mine := by simp [Known.onSupervisor, named]
      rw [same]
      exact running
  | select =>
      cases reply with
      | exited status =>
          cases status with
          | ok code => exact running.reaped answered
          | error text => exact running.lost
      | _ => exact running
  | waitMongod =>
      cases reply with
      | none => exact running
      | some status =>
          cases status with
          | ok code => exact running.reaped answered
          | error text => exact running.lost
  | killMongod =>
      cases reply with
      | ok _ => exact running.reaped answered
      | error text => exact running.lost
  | spawnMongod flags args =>
      cases reply with
      | ok _ => exact running.spawned (allowed.1.resolve_left Bool.false_ne_true) (allowed.2.2 rfl)
      | error text => exact running
  | _ => exact running

omit [DecidableEq ι] in
/-- The lock file could not be opened. -/
theorem Running.refused (running : Running host i mine) (unlocked : mine.lock = none) :
    Running host i { mine with lock := some .failedOpen } :=
  { running with
    lock := nofun
    up := fun up => by
      have down : mine.up = false := (running.unlocked unlocked).1
      simp [down] at up
    worked := fun worked => by simp [(running.unlocked unlocked).2] at worked }

theorem Running.locked (running : Running host i mine) :
    Running (host.onCall i (.volumeLock .lockExclusive) true) i { mine with lock := some .held } :=
  { running with
    lock := fun _ dir named => by
      have granted : host.dataDir i = some dir := named
      simp [Host.onCall, granted]
    up := fun _ => Or.inl rfl
    worked := fun _ => Or.inl rfl }

theorem Known.Cleared.sends {mine : Known} (cleared : mine.Cleared) (event : TelemetryEvent) :
    Known.Cleared { mine with sent := mine.sent ++ [event] } :=
  cleared.imp_right fun ⟨refused, reported⟩ => ⟨refused, List.mem_append_left _ reported⟩

theorem Running.sends (running : Running host i mine) (event : TelemetryEvent) :
    Running (host.onCall i (.sendOnce event) ()) i { mine with sent := mine.sent ++ [event] } :=
  { running with
    sent := by simp [Host.onCall, running.sent]
    up := fun up => (running.up up).sends event
    worked := fun worked => (running.worked worked).sends event }

theorem Running.onCall {call : MainCall} {reply : call.Reply} (running : Running host i mine)
    (allowed : mine.Allows call) (answered : host.answers i call reply) :
    Running (host.onCall i call reply) i (mine.learn call reply) := by
  cases call with
  | volumeLock call =>
      have unlocked := allowed.2.1 rfl
      cases call with
      | openLockFile =>
          cases reply with
          | false => exact running.refused unlocked
          | true => exact running
      | lockExclusive =>
          cases reply with
          | false => exact running
          | true => exact running.locked
      | _ => exact running
  | sendOnce event => exact running.sends event
  | spawnRecovery flags args =>
      cases reply with
      | ok _ => exact running.spawned (allowed.1.resolve_left Bool.false_ne_true) (allowed.2.2 rfl)
      | error text => exact running
  | spawnMongod flags args =>
      cases reply with
      | ok _ => exact running.spawned (allowed.1.resolve_left Bool.false_ne_true) (allowed.2.2 rfl)
      | error text => exact running
  | recoveryEnds =>
      by_cases exited : reply.run.sawExit = true
      · simpa [Known.learn, exited, Host.onCall] using running.reaped (answered exited)
      · simpa [Known.learn, exited, Host.onCall] using running
  | supervisor call => exact running.onSupervisor allowed answered
  | _ => exact running

theorem Known.Cleared.learn {mine : Known} (cleared : mine.Cleared) {call : MainCall}
    (reply : call.Reply) (past : call.beforeLock = false) : (mine.learn call reply).Cleared := by
  cases call with
  | startTelemetry => cases past
  | volumeLock call => cases past
  | sendOnce event => cases past
  | spawnRecovery flags args => exact (cleared_spawned reply).2 cleared
  | spawnMongod flags args => exact (cleared_spawned reply).2 cleared
  | recoveryEnds =>
      simp only [Known.learn]
      split
      · exact cleared
      · exact cleared
  | supervisor call =>
      cases call with
      | select =>
          cases reply with
          | exited status => exact (cleared_waited status).2 cleared
          | _ => exact cleared
      | waitMongod =>
          cases reply with
          | none => exact cleared
          | some status => exact (cleared_waited status).2 cleared
      | killMongod => exact (cleared_waited reply).2 cleared
      | spawnMongod flags args => exact (cleared_spawned reply).2 cleared
      | _ => exact cleared
  | _ => exact cleared

/-- Work on the volume is recorded of containers that are cleared for it. -/
theorem Running.after {call : MainCall} {reply : call.Reply} (running : Running host i mine)
    (allowed : mine.Allows call) (answered : host.answers i call reply) :
    Running (host.after i call reply) i (mine.learn call reply) :=
  have recorded := running.onCall allowed answered
  { recorded with
    worked := fun worked => by
      cases past : call.beforeLock with
      | true => exact recorded.worked (by simpa [Host.after, past] using worked)
      | false =>
          have cleared : mine.Cleared := allowed.1.resolve_left (by simp [past])
          exact cleared.learn reply past }

theorem sameAt_after {call : MainCall} {reply : call.Reply} (other : j ≠ i) :
    SameAt host (host.after i call reply) j :=
  { sameAt_onCall other with
    worked := by simpa [Host.after, other] using (sameAt_onCall other).worked }

/-- A free lock may be taken; a held one stays with its holder. -/
theorem holder_after {call : MainCall} {reply : call.Reply}
    (answered : host.answers i call reply) {dir : String} (held : host.holder dir = some j) :
    (host.after i call reply).holder dir = some j := by
  have kept : (host.onCall i call reply).holder dir = some j := by
    unfold Host.onCall
    split
    · have free : ∀ dir, host.dataDir i = some dir → host.holder dir = none := answered
      have elsewhere : host.dataDir i ≠ some dir := fun named => by
        rw [free dir named] at held
        cases held
      simpa [elsewhere] using held
    · exact held
    · exact held
    · exact held
    · unfold Host.onSupervisor
      split <;> exact held
    · exact held
  exact kept

/-- What the world holds of a container whose process does not run. -/
inductive Resting (host : Host ι) (i : ι) : Prop where
  | fresh (boots : host.boots i = none) (engines : host.engines i = 0)
      (sent : host.sent i = []) (worked : host.worked i = false)
      (waitFailed : host.waitFailed i = false) (outcome : host.outcome i = none)
  | stopped (boots : (host.boots i).isSome) (single : host.engines i ≤ 1 ∨ host.waitFailed i = true)
      (left : host.engines i = 0 ∨ Abandoned host i)

/-- What the world holds of a container, by what its process knows. -/
def Tracks (host : Host ι) (i : ι) : Option Known → Prop
  | some mine => Running host i mine
  | none => Resting host i

omit [DecidableEq ι] in
theorem Abandoned.congr (abandoned : Abandoned host j) (outcome : next.outcome j = host.outcome j)
    (sent : next.sent j = host.sent j) (waitFailed : next.waitFailed j = host.waitFailed j) :
    Abandoned next j := by
  cases abandoned with
  | killed gone => exact .killed (outcome.trans gone)
  | failed text gone => exact .failed text (outcome.trans gone)
  | recoveryFailed text gone reported =>
      exact .recoveryFailed text (outcome.trans gone) (by rw [sent]; exact reported)
  | waitFailed failed => exact .waitFailed (waitFailed.trans failed)

omit [DecidableEq ι] in
theorem Tracks.congr {known : Option Known} (tracks : Tracks host j known)
    (same : SameAt host next j)
    (kept : ∀ dir, host.holder dir = some j → next.holder dir = some j) : Tracks next j known := by
  have engines : next.engines j = host.engines j := by
    rw [Host.engines, same.strays, same.child, Host.engines]
  cases known with
  | some mine => exact Running.congr tracks same kept
  | none =>
      cases tracks with
      | fresh boots down sent worked waitFailed outcome =>
          exact .fresh (same.boots.trans boots) (engines.trans down) (same.sent.trans sent)
            (same.worked.trans worked) (same.waitFailed.trans waitFailed) (same.outcome.trans outcome)
      | stopped boots single left =>
          refine .stopped (by rw [same.boots]; exact boots) ?_ ?_
          · rw [engines, same.waitFailed]
            exact single
          · rw [engines]
            exact left.imp_right fun abandoned =>
              abandoned.congr same.outcome same.sent same.waitFailed

/-- What one container does leaves the others tracked. -/
theorem tracks_update {known : ι → Option Known} (tracks : ∀ j, Tracks host j (known j))
    {mine : Option Known}
    (now : Tracks next i mine) (same : ∀ j, j ≠ i → SameAt host next j)
    (kept : ∀ j dir, j ≠ i → host.holder dir = some j → next.holder dir = some j) (j : ι) :
    Tracks next j (Function.update known i mine j) := by
  by_cases other : j = i
  · subst other
    simpa using now
  · simpa [other] using (tracks j).congr (same j other) fun dir => kept j dir other

omit [DecidableEq ι] in
/-- A container that knows its child is gone has no engine up, or waiting for one failed. -/
theorem Running.gone (running : Running host i mine) (gone : mine.Gone) :
    host.engines i = 0 ∨ host.waitFailed i = true := by
  rw [running.waitFailed]
  rcases gone with down | failed | noId
  · refine running.strays.imp_left fun none => ?_
    have childDown : host.child i = false := by simpa [down] using running.child
    simp [Host.engines, none, childDown]
  · exact Or.inr failed
  · rw [running.noId] at noId
    cases noId

omit [DecidableEq ι] in
theorem Running.single (running : Running host i mine) :
    host.engines i ≤ 1 ∨ host.waitFailed i = true := by
  rw [running.waitFailed]
  refine running.strays.imp_left fun none => ?_
  rw [Host.engines, none, Nat.zero_add]
  exact Bool.toNat_le _

/-- What a process leaves when it stops by itself. -/
theorem Running.ended (running : Running host i mine) {halt : Halt} (leaves : Leaves mine halt)
    (isEnd : Over.isEnd (.finished (.error halt))) :
    Resting (host.ended i (.finished (.error halt))) i := by
  have outcome : (host.ended i (.finished (.error halt))).outcome i = some (.finished (.error halt)) := by
    simp [Host.ended]
  have ofGone : mine.Gone → Resting (host.ended i (.finished (.error halt))) i := fun gone =>
    .stopped running.booted running.single ((running.gone gone).imp_right .waitFailed)
  cases halt with
  | error text => exact .stopped running.booted running.single (Or.inr (.failed text outcome))
  | exit code =>
      rcases leaves with gone | ⟨rfl, text, reported⟩
      · exact ofGone gone
      · rw [← running.sent] at reported
        exact .stopped running.booted running.single (Or.inr (.recoveryFailed text outcome reported))
  | pinWrite failure => exact ofGone leaves
  | panicked text => exact ofGone leaves
  | unfinished => exact isEnd.elim

theorem sameAt_ended {ending : Over} (other : j ≠ i) : SameAt host (host.ended i ending) j := by
  constructor <;> simp [Host.ended, other]

theorem holder_ended {ending : Over} (other : j ≠ i) {dir : String}
    (held : host.holder dir = some j) : (host.ended i ending).holder dir = some j := by
  simp [Host.ended, held, other]

omit [DecidableEq ι] in
/-- Fewer engines are up, and nothing else has changed. -/
theorem Tracks.fewer {known : Option Known} (tracks : Tracks host j known) {child : ι → Bool}
    {strays : ι → Nat} (childDown : child j = true → host.child j = true)
    (straysDown : strays j ≤ host.strays j) :
    Tracks { host with child := child, strays := strays } j known := by
  have fewer : strays j + (child j).toNat ≤ host.engines j := by
    refine Nat.add_le_add straysDown ?_
    cases up : child j with
    | false => exact Nat.zero_le _
    | true => rw [childDown up]
  cases known with
  | some mine =>
      have running : Running host j mine := tracks
      exact
        { running with
          child := fun up => running.child (childDown up)
          strays := running.strays.imp_left fun before =>
            Nat.le_zero.1 (straysDown.trans before.le) }
  | none =>
      cases tracks with
      | fresh boots down sent worked waitFailed outcome =>
          exact .fresh boots (Nat.le_zero.1 (down ▸ fewer)) sent worked waitFailed outcome
      | stopped boots single left =>
          refine .stopped boots (single.imp_left fewer.trans) (left.imp ?_ ?_)
          · exact fun down => Nat.le_zero.1 (down ▸ fewer)
          · exact fun abandoned => abandoned.congr rfl rfl rfl

theorem Tracks.engineDown {known : Option Known} (tracks : Tracks host j known)
    (down : EngineDown host next) : Tracks next j known := by
  cases down with
  | child i =>
      refine tracks.fewer ?_ (Nat.le_refl _)
      by_cases same : j = i
      · subst same
        simp
      · simp [same]
  | stray i =>
      refine tracks.fewer id ?_
      by_cases same : j = i
      · subst same
        simp
      · simp [same]

theorem Resting.start {boot : Boot} (resting : Resting host i) (unborn : host.boots i = none) :
    Running (host.bootedWith i boot) i (.fresh (boot.dataDir.getD "")) := by
  cases resting with
  | stopped boots single left => simp [unborn] at boots
  | fresh boots down sent worked waitFailed outcome =>
      have engines : host.strays i = 0 ∧ host.child i = false := by
        simpa [Host.engines] using down
      exact
        { booted := by simp [Host.bootedWith]
          dataDir := by simp [Host.bootedWith, Host.dataDir, Known.fresh]
          lock := nofun
          sent := sent
          child := fun up => absurd up (by simp [Host.bootedWith, engines.2])
          strays := Or.inl engines.1
          up := nofun
          worked := fun past => absurd past (by simp [Host.bootedWith, worked])
          waitFailed := waitFailed
          noId := rfl
          outcome := outcome }

/-- What the world holds of every container is kept in every interleaving. -/
theorem containers_uphold (deriveKeyfileContent : String → String) :
    (containers ι deriveKeyfileContent).Upholds hostMonitor
      (fun boot => .fresh (boot.dataDir.getD "")) (ending (fun _ _ => False) Leaves)
      (fun host known => ∀ i, Tracks host i (known i)) where
  meets := main_meets
  start := by
    rintro host next known i boot tracks down ⟨unborn, rfl⟩
    have resting : Resting host i := by simpa [Tracks, down] using tracks i
    refine tracks_update tracks (i := i) (resting.start unborn) ?_ fun _ _ _ => id
    intro j other
    constructor <;> simp [Host.bootedWith, other]
  call := by
    rintro host next known i mine call reply tracks knows allowed ⟨answered, rfl⟩
    have running : Running host i mine := by simpa [Tracks, knows] using tracks i
    exact tracks_update tracks (running.after allowed answered) (fun _ => sameAt_after)
      fun _ _ _ => holder_after answered
  finish := by
    rintro host next known i mine outcome tracks knows ended ⟨isEnd, rfl⟩
    have running : Running host i mine := by simpa [Tracks, knows] using tracks i
    cases outcome with
    | ok value => exact ended.elim
    | error halt =>
        exact tracks_update tracks (running.ended ended isEnd) (fun _ => sameAt_ended)
          fun _ _ other => holder_ended other
  kill := by
    rintro host next known i mine tracks knows ⟨-, rfl⟩
    have running : Running host i mine := by simpa [Tracks, knows] using tracks i
    have killed : Resting (host.ended i .killed) i :=
      .stopped running.booted running.single (Or.inr (.killed (by simp [Host.ended])))
    exact tracks_update tracks killed (fun _ => sameAt_ended) fun _ _ other => holder_ended other
  move := fun tracks down i => (tracks i).engineDown down

/-- A container is at work on its volume, or a mongod of it is still up there. -/
def OnVolume (s : Processes MainCall.Reply Halt Empty ι (Host ι)) (i : ι) : Prop :=
  (s.running i).isSome ∧ s.shared.worked i = true ∨ 0 < s.shared.engines i

omit [DecidableEq ι] in
/-- A container on its volume holds the lock, runs without it or has left a mongod behind. -/
theorem onVolume_cases {s : Processes MainCall.Reply Halt Empty ι (Host ι)} {known : Option Known}
    {dir : String} (informed : known.isSome = (s.running i).isSome) (tracks : Tracks s.shared i known)
    (present : OnVolume s i) (named : s.shared.dataDir i = some dir) :
    s.shared.holder dir = some i ∨ Unprotected s.shared i ∨ Abandoned s.shared i := by
  cases known with
  | none =>
      have down : (s.running i).isSome = false := informed.symm
      have up : 0 < s.shared.engines i := present.resolve_left fun runs => by simp [down] at runs
      cases tracks with
      | fresh boots engines => exact absurd engines up.ne'
      | stopped boots single left => exact Or.inr (Or.inr (left.resolve_left up.ne'))
  | some mine =>
      have running : Running s.shared i mine := tracks
      have cleared : mine.Cleared ∨ s.shared.waitFailed i = true := by
        rcases present with ⟨-, worked⟩ | up
        · exact Or.inl (running.worked worked)
        · by_cases child : mine.up = true
          · exact Or.inl (running.up child)
          · refine Or.inr ((running.gone (Or.inl (by simpa using child))).resolve_left up.ne')
      rcases cleared with (held | ⟨-, reported⟩) | failed
      · exact Or.inl (running.lock held dir named)
      · refine Or.inr (Or.inl ⟨dir, named, ?_⟩)
        rw [running.sent]
        simpa [running.dataDir, named] using reported
      · exact Or.inr (Or.inr (.waitFailed failed))

/-- A container has one mongod up at a time, as far as waiting for it can tell. Two containers are on one
    volume only if one of them runs without the lock and has said so, or was stopped in a way that
    may leave its mongod up. -/
theorem one_mongod_per_volume {deriveKeyfileContent : String → String}
    {s : Processes MainCall.Reply Halt Empty ι (Host ι)}
    (reached : ((containers ι deriveKeyfileContent).system Host.Fresh).Reachable s) :
    (∀ i, s.shared.engines i ≤ 1 ∨ s.shared.waitFailed i = true) ∧
      ∀ i j dir, i ≠ j → s.shared.dataDir i = some dir → s.shared.dataDir j = some dir →
        OnVolume s i → OnVolume s j →
        (Unprotected s.shared i ∨ Abandoned s.shared i) ∨
          Unprotected s.shared j ∨ Abandoned s.shared j := by
  have fresh : ∀ host : Host ι, host.Fresh → ∀ i, Tracks host i none := by
    rintro host ⟨-, fresh⟩ i
    obtain ⟨boots, engines, sent, worked, waitFailed, outcome⟩ := fresh i
    exact .fresh boots engines sent worked waitFailed outcome
  obtain ⟨known, tracks, informed⟩ := (containers_uphold deriveKeyfileContent).reachable fresh reached
  have informs : ∀ i, (known i).isSome = (s.running i).isSome := fun i => (informed i).isSome_eq
  constructor
  · intro i
    cases knows : known i with
    | some mine => exact Running.single (by simpa [Tracks, knows] using tracks i)
    | none =>
        have resting : Resting s.shared i := by simpa [Tracks, knows] using tracks i
        cases resting with
        | fresh boots engines => exact Or.inl (by omega)
        | stopped boots single left => exact single
  · intro i j dir different mine other present beside
    rcases onVolume_cases (informs i) (tracks i) present mine with holds | exposed
    · rcases onVolume_cases (informs j) (tracks j) beside other with held | exposed
      · rw [holds] at held
        exact absurd (Option.some.inj held) different
      · exact Or.inr exposed
    · exact Or.inl exposed

end Containers

/-- A standalone container. -/
def plainEnvironment : Environment
  | "MONGO_INITDB_ROOT_USERNAME" => some "mongo"
  | "MONGO_INITDB_ROOT_PASSWORD" => some "pw"
  | _ => none

def plainBoot : Boot :=
  { watch := { lockPolls := 1, dnsRounds := 0, supervisorRounds := 0 }
    env := plainEnvironment
    args := [] }

def emptyHost : Host Bool :=
  { holder := fun _ => none
    boots := fun _ => none
    child := fun _ => false
    strays := fun _ => 0
    sent := fun _ => []
    worked := fun _ => false
    waitFailed := fun _ => false
    outcome := fun _ => none }

/-- What its boot calls up to its work on the volume when the lock file cannot be opened. -/
def unlockedCalls : List ((call : MainCall) × call.Reply) :=
  [⟨.startTelemetry, .ok ()⟩, ⟨.volumeLock .openLockFile, false⟩,
    ⟨.sendOnce (lockLost "/data/db"), ()⟩, ⟨.listDataDir, []⟩]

/-- The same when the lock is free. -/
def lockedCalls : List ((call : MainCall) × call.Reply) :=
  [⟨.startTelemetry, .ok ()⟩, ⟨.volumeLock .openLockFile, true⟩, ⟨.volumeLock .now, (0 : Nat)⟩,
    ⟨.volumeLock .lockExclusive, true⟩, ⟨.listDataDir, []⟩]

/-- The host once the first container is at work. -/
def unlockedHost : Host Bool :=
  unlockedCalls.foldl (fun host call => host.after false call.1 call.2)
    (emptyHost.bootedWith false plainBoot)

/-- Two containers of it at work on one volume, the first without the lock. -/
theorem unprotected_container_beside :
    ∃ s : Processes MainCall.Reply Halt Empty Bool (Host Bool),
      ((containers Bool id).system Host.Fresh).Reachable s ∧ OnVolume s false ∧ OnVolume s true ∧
        ((Unprotected s.shared false ∨ Abandoned s.shared false) ∨
          Unprotected s.shared true ∨ Abandoned s.shared true) := by
  have fresh : emptyHost.Fresh := ⟨fun _ => rfl, fun _ => ⟨rfl, rfl, rfl, rfl, rfl, rfl⟩⟩
  obtain ⟨rest, ran⟩ : ∃ rest,
      (main id plainBoot.watch plainBoot.env plainBoot.args).Runs unlockedCalls rest :=
    ⟨_, .cons (.cons (.cons (.cons (.nil _))))⟩
  obtain ⟨others, beside⟩ : ∃ rest,
      (main id plainBoot.watch plainBoot.env plainBoot.args).Runs lockedCalls rest :=
    ⟨_, .cons (.cons (.cons (.cons (.cons (.nil _)))))⟩
  have first : ProcessStep (containers Bool id) { shared := emptyHost, running := fun _ => none }
      { shared := emptyHost.bootedWith false plainBoot
        running := Function.update (fun _ => none) false
          (some (main id plainBoot.watch plainBoot.env plainBoot.args)) } := .start rfl ⟨rfl, rfl⟩
  have refused : (containers Bool id).AnswersAll false (emptyHost.bootedWith false plainBoot)
      unlockedCalls unlockedHost :=
    .cons ⟨trivial, rfl⟩ (.cons ⟨trivial, rfl⟩ (.cons ⟨trivial, rfl⟩ (.cons ⟨trivial, rfl⟩ (.nil _))))
  have alone := Processes.reachable_runs ran refused (Function.update_self ..)
    (.step (.init ⟨fresh, fun _ => rfl⟩) first)
  have granted : (containers Bool id).AnswersAll true (unlockedHost.bootedWith true plainBoot)
      lockedCalls _ :=
    .cons ⟨trivial, rfl⟩ (.cons ⟨trivial, rfl⟩ (.cons ⟨trivial, rfl⟩
      (.cons ⟨fun _ _ => rfl, rfl⟩ (.cons ⟨trivial, rfl⟩ (.nil _)))))
  have both := Processes.reachable_runs beside granted (Function.update_self ..)
    (.step alone (.start rfl ⟨rfl, rfl⟩))
  exact ⟨_, both, Or.inl ⟨rfl, rfl⟩, Or.inl ⟨rfl, rfl⟩,
    (one_mongod_per_volume both).2 false true "/data/db" nofun rfl rfl (Or.inl ⟨rfl, rfl⟩)
      (Or.inl ⟨rfl, rfl⟩)⟩

/-! ### The wait for the lock -/

section VolumeLock

variable {met : LockPolls} {waitSecs : Nat}

theorem fromSecs_succ (secs : Nat) :
    Duration.fromSecs (secs + 1) = Duration.fromSecs secs + Duration.fromSecs 1 :=
  Nat.add_mul secs 1 1000000000

theorem clock_ge (slept : met.Slept) (k : Nat) :
    met.startsAt + Duration.fromSecs k ≤ met.clock k := by
  induction k with
  | zero => simpa only [Duration.fromSecs, Nat.zero_mul, Nat.add_zero] using slept.start
  | succ k ih =>
      rw [fromSecs_succ, ← Nat.add_assoc]
      exact (Nat.add_le_add_right ih _).trans (slept.sleep k)

/-- An attempt before the deadline is one of the first `waitSecs`. -/
theorem lt_of_clock_lt (slept : met.Slept) {k : Nat}
    (early : met.clock k < met.startsAt + Duration.fromSecs waitSecs) : k < waitSecs := by
  have below : Duration.fromSecs k < Duration.fromSecs waitSecs :=
    Nat.lt_of_add_lt_add_left ((clock_ge slept k).trans_lt early)
  exact Nat.lt_of_mul_lt_mul_right below

/-- How a wait may end at an attempt. -/
def EndsAt (met : LockPolls) (waitSecs k : Nat) : Except Halt VolumeLockOutcome → Prop
  | .ok outcome => outcome = .held ∧ met.free k = true
  | .error halt =>
      halt = .error (notReleased waitSecs) ∧ met.free k = false ∧
        met.startsAt + Duration.fromSecs waitSecs ≤ met.clock k

/-- The attempt finds the lock taken, before the deadline. -/
def Refused (met : LockPolls) (waitSecs k : Nat) : Prop :=
  met.free k = false ∧ met.clock k < met.startsAt + Duration.fromSecs waitSecs

/-- What one attempt of the loop leads to. -/
theorem pollLock_attempt {deadline : Instant} {polls n : Nat} :
    ((pollLock waitSecs deadline (polls + 1)).run met.answer { started := true, attempts := n }).1 =
      if met.free n then .ok .held
      else if deadline ≤ met.clock n then .error (.error (notReleased waitSecs))
      else ((pollLock waitSecs deadline polls).run met.answer
        { started := true, attempts := n + 1 }).1 := by
  by_cases free : met.free n = true
  · simp [pollLock, lockCall, Program.call, Program.run, LockPolls.answer, free]
  · by_cases late : deadline ≤ met.clock n
    · simp [pollLock, lockCall, Program.call, Program.run, LockPolls.answer, free, late]
    · simp [pollLock, lockCall, Program.call, Program.run, LockPolls.answer, free, late]

theorem pollLock_run (slept : met.Slept) {polls n : Nat} (early : n ≤ waitSecs)
    (enough : waitSecs < n + polls) :
    ∃ k, n ≤ k ∧ k ≤ waitSecs ∧ (∀ j, n ≤ j → j < k → Refused met waitSecs j) ∧
      EndsAt met waitSecs k
        ((pollLock waitSecs (met.startsAt + Duration.fromSecs waitSecs) polls).run met.answer
          { started := true, attempts := n }).1 := by
  induction polls generalizing n with
  | zero => omega
  | succ polls ih =>
      rw [pollLock_attempt]
      by_cases free : met.free n = true
      · refine ⟨n, Nat.le_refl n, early, fun j low high => absurd high (by omega), ?_⟩
        rw [if_pos free]
        exact ⟨rfl, free⟩
      have taken : met.free n = false := by simpa using free
      by_cases late : met.startsAt + Duration.fromSecs waitSecs ≤ met.clock n
      · refine ⟨n, Nat.le_refl n, early, fun j low high => absurd high (by omega), ?_⟩
        rw [if_neg free, if_pos late]
        exact ⟨rfl, taken, late⟩
      · have before : n < waitSecs := lt_of_clock_lt slept (Nat.lt_of_not_le late)
        obtain ⟨k, low, high, refused, ends⟩ := ih (Nat.succ_le_of_lt before) (by omega)
        refine ⟨k, by omega, high, fun j from_ below => ?_, ?_⟩
        · rcases Nat.eq_or_lt_of_le from_ with rfl | later
          · exact ⟨taken, Nat.lt_of_not_le late⟩
          · exact refused j later below
        · rw [if_neg free, if_neg late]
          exact ends

/-- When every sleep lasts its second, the wait is over within its seconds: at the first attempt that
    finds the lock free, or at the first one that finds it taken at or after the deadline. -/
theorem volume_lock_wait {polls : Nat} (slept : met.Slept) (enough : waitSecs < polls)
    (fits : met.startsAt < instantLimit - Duration.fromSecs waitSecs) :
    ∃ k ≤ waitSecs, (∀ j < k, Refused met waitSecs j) ∧
      EndsAt met waitSecs k ((acquireWithWait polls waitSecs).run met.answer
        { started := false, attempts := 0 }).1 := by
  obtain ⟨k, -, high, refused, ends⟩ := pollLock_run slept (Nat.zero_le waitSecs)
    (by omega : waitSecs < 0 + polls)
  refine ⟨k, high, fun j => refused j (Nat.zero_le j), ?_⟩
  have started : ((acquireWithWait polls waitSecs).run met.answer
      { started := false, attempts := 0 }).1 =
        ((pollLock waitSecs (met.startsAt + Duration.fromSecs waitSecs) polls).run met.answer
          { started := true, attempts := 0 }).1 := by
    simp [acquireWithWait, lockCall, Program.call, Program.run, LockPolls.answer, instantAdd, fits]
  rw [started]
  exact ends

/-- The previous container releases the lock after two seconds. -/
def handedOver : LockPolls :=
  { startsAt := 0, free := fun k => k == 2, clock := fun k => Duration.fromSecs k }

/-- A lock that its holder releases within the wait is taken over. -/
theorem lock_taken_over :
    ∃ k ≤ 300, (∀ j < k, Refused handedOver 300 j) ∧
      EndsAt handedOver 300 k ((acquireWithWait 301 300).run handedOver.answer
        { started := false, attempts := 0 }).1 :=
  volume_lock_wait { start := Nat.zero_le _, sleep := fun k => (fromSecs_succ k).ge } (by decide)
    (by decide)

end VolumeLock

end MongoHa.Entrypoint
