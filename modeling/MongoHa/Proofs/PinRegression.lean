/-
Module: MongoHa.Proofs.PinRegression
Layer: Proofs
Purpose: The pin of one node while mongod, the resolver and the rotation lock's holder act in any order.
  Once the member phase for a password succeeded, the pin keeps that password as long as mongod enforces
  it, in every run in which the resolver's proof is not overtaken before it writes and the stored user
  does not change between a member phase's write and its answer. The resolver's proof and its write are
  separate calls: a run that puts the member phase between them leaves the old password in the pin.
Imports: MongoHa.Proofs.CredentialTasks
Trusted boundary: none (fully proved)
Main exports: Enforcing, EnforcingStep, InForce, Undisturbed, pinHolds_step, pin_never_regresses,
  stale_proof_written_last
Open obligations: none
-/
import MongoHa.Proofs.CredentialTasks

namespace MongoHa.Credentials

open Foundations
open Foundations.Monitor

/-- A node with the password its mongod enforces, the password the member phase under way wrote to the
    pin, and the password of the last member phase that succeeded, while mongod enforces it. -/
structure Enforcing where
  node : Node
  enforced : Option String
  wrote : Option String
  guarded : Option String

/-- A step of the node, or of the password that its mongod enforces. -/
inductive EnforcingLabel where
  | node (label : Label)
  /-- The stored user of this node changes, by replication or otherwise. -/
  | enforce (password : Option String)

/-- The member phase of a job has written the pin, until the job is over. -/
def onWrote (wrote : Option String) : Label → Option String
  | .performs .rotation (.writePasswordPin password _) written =>
      if written = .ok () then some password else wrote
  | .starts _ _ | .ends .rotation _ | .ends .supervisor (.restarted (.error _)) | .expires | .stops
  | .boots _ => none
  | _ => wrote

/-- A member phase succeeded, asked for or reconciled, on a mongod that enforces its password. -/
def onGuarded (s : Enforcing) : Label → Option String
  | .ends .rotation (.answered request (.ok _)) =>
      if request.operation = .member ∧ s.enforced = some request.newPassword then
        some request.newPassword
      else s.guarded
  | .ends .rotation (.reconciled (.ok ())) =>
      if s.wrote.isSome ∧ s.enforced = s.wrote then s.wrote else s.guarded
  | _ => s.guarded

/-- One step of the node or of the stored user. The user stands still between a member phase's write and
    its answer. -/
inductive EnforcingStep (deriveKeyfileContent : String → String) :
    Enforcing → EnforcingLabel → Enforcing → Prop where
  /-- A probe finds that the password works only if mongod enforces it. -/
  | node {s : Enforcing} {label : Label} {node : Node}
      (step : NodeStep deriveKeyfileContent s.node label node)
      (truthful : ∀ name password, label.works = some (name, password) →
        s.enforced = some password) :
      EnforcingStep deriveKeyfileContent s (.node label)
        { s with node := node, wrote := onWrote s.wrote label, guarded := onGuarded s label }
  | enforce {s : Enforcing} {password : Option String} :
      EnforcingStep deriveKeyfileContent s (.enforce password)
        { s with
          enforced := password
          guarded := if s.guarded = password then s.guarded else none }

/-- The password of a member phase that succeeded or has written the pin, while mongod enforces it. -/
def InForce (s : Enforcing) (password : String) : Prop :=
  s.guarded = some password ∨ (s.wrote = some password ∧ s.enforced = some password)

/-- The resolver writes no other password than one in force, and the stored user stays as it is between
    the pin write of a member phase and its end. -/
def Undisturbed (s : Enforcing) : EnforcingLabel → Prop
  | .node label => ∀ password, label.pinWrite = some (.resolver, password) →
      ∀ inForce, InForce s inForce → password = inForce
  | .enforce _ => s.wrote = none

/-- The runs of a node on any volume, from a stopped process on. -/
def enforcing (deriveKeyfileContent : String → String)
    (admits : Enforcing → EnforcingLabel → Prop) : System Enforcing :=
  System.labelled (fun s => s.node = s.node.stopped ∧ s.wrote = none ∧ s.guarded = none)
    (EnforcingStep deriveKeyfileContent) admits

/-- The holder of the rotation lock proved nothing but a guarded password, and knows what it wrote. -/
def HolderKnows (deriveKeyfileContent : String → String) (s : Enforcing) : Prop :=
  ∃ asked known, (∀ password ∈ known.proven, ∀ kept, s.guarded = some kept → password = kept) ∧
    known.pinned = s.wrote ∧
    s.node.Obeys .rotation (jobMonitor deriveKeyfileContent asked)
      (onOk (jobEnds deriveKeyfileContent asked)) known

/-- What holds in every state: each task follows what it learned, and a password in force is the pinned
    one. -/
structure PinHolds (deriveKeyfileContent : String → String) (s : Enforcing) : Prop where
  staged : s.node.Staged
  supervisor : SupervisorSound s.node
  boot : BootSound s.node
  holder : HolderKnows deriveKeyfileContent s
  enforced : ∀ password, s.guarded = some password → s.enforced = some password
  pinned : ∀ password, InForce s password → pinPassword s.node = some password

variable {deriveKeyfileContent : String → String} {s t : Enforcing}

theorem PinHolds.start (down : s.node = s.node.stopped) (unwritten : s.wrote = none)
    (unguarded : s.guarded = none) : PinHolds deriveKeyfileContent s := by
  have idle : ∀ name, s.node.tasks name = none := by
    intro name
    rw [down]
    rfl
  constructor
  · rw [down]
    exact staged_stopped s.node
  · refine ⟨none, fun task has => ?_⟩
    rw [idle] at has
    cases has
  · exact bootHeard_idle (idle _)
  · refine ⟨none, .nothing, nofun, unwritten.symm, fun task has => ?_⟩
    rw [idle] at has
    cases has
  · intro password guarded
    rw [unguarded] at guarded
    cases guarded
  · rintro password (guarded | ⟨wrote, -⟩)
    · rw [unguarded] at guarded
      cases guarded
    · rw [unwritten] at wrote
      cases wrote

/-- A password in force after a step was so before, or the holder of the lock wrote it just now. -/
theorem inForce_before (holds : PinHolds deriveKeyfileContent s) {label : Label} {node : Node}
    (step : NodeStep deriveKeyfileContent s.node label node) {password : String}
    (inForce : InForce
      { s with node := node, wrote := onWrote s.wrote label, guarded := onGuarded s label } password) :
    InForce s password ∨
      ∃ fallbackKey, label = .performs .rotation (.writePasswordPin password fallbackKey) (.ok ()) := by
  rcases inForce with guarded | ⟨wrote, enforced⟩
  · left
    simp only [onGuarded] at guarded
    split at guarded
    · rename_i request reply
      split at guarded
      · rename_i answered
        obtain ⟨operation, enforced⟩ := answered
        obtain rfl := Option.some.inj guarded
        obtain ⟨asked, known, -, same, obeys⟩ := holds.holder
        have finished : Finished deriveKeyfileContent request known := (obeys_ends step obeys).2
        simp only [Finished, operation] at finished
        exact Or.inr ⟨same ▸ finished.2, enforced⟩
      · exact Or.inl guarded
    · split at guarded
      · rename_i reconciled
        exact Or.inr ⟨guarded, reconciled.2.trans guarded⟩
      · exact Or.inl guarded
    · exact Or.inl guarded
  · simp only [onWrote] at wrote
    split at wrote
    · rename_i written fallbackKey reply
      split at wrote
      · rename_i succeeded
        subst succeeded
        obtain rfl := Option.some.inj wrote
        exact Or.inr ⟨fallbackKey, rfl⟩
      · exact Or.inl (Or.inr ⟨wrote, enforced⟩)
    · cases wrote
    · cases wrote
    · cases wrote
    · cases wrote
    · cases wrote
    · cases wrote
    · exact Or.inl (Or.inr ⟨wrote, enforced⟩)

/-- What is in force stays in the pin. -/
theorem pinned_step (holds : PinHolds deriveKeyfileContent s) {label : Label} {node : Node}
    (step : NodeStep deriveKeyfileContent s.node label node) (undisturbed : Undisturbed s (.node label))
    {password : String} (inForce : InForce s password) : pinPassword node = some password := by
  have before := holds.pinned password inForce
  obtain ⟨pin, pinned⟩ : ∃ pin, readPin node.shared.pin = some pin := by
    rcases pin_step step with same | ⟨_, pin, _, _, -, wrote⟩ | ⟨_, _, _, _, _, -, wrote⟩
    · obtain ⟨pin, read, -⟩ := Option.map_eq_some_iff.1 before
      exact ⟨pin, same ▸ read⟩
    · exact ⟨_, wrote⟩
    · exact ⟨_, wrote⟩
  have same : pin.password = password := by
    rcases pin_password_cases holds.supervisor holds.boot step pinned with kept | writes | writes
    · exact Option.some.inj (kept.symm.trans before)
    · -- The holder writes the pin once, after it proved the password.
      obtain ⟨asked, known, proven, wrote, obeys⟩ := holds.holder
      obtain ⟨proved, unwritten⟩ := job_pinWrite obeys step writes
      rcases inForce with guarded | ⟨written, -⟩
      · exact proven _ proved _ guarded
      · rw [wrote, written] at unwritten
        cases unwritten
    · exact undisturbed _ writes _ inForce
  rw [pinPassword, pinned, Option.map_some, same]

theorem holderKnows_idle (idle : s.node.tasks .rotation = none) (unwritten : s.wrote = none) :
    HolderKnows deriveKeyfileContent s := by
  refine ⟨none, .nothing, nofun, unwritten.symm, fun task has => ?_⟩
  rw [idle] at has
  cases has

/-- A holder whose task goes on knows what it wrote. -/
theorem pinned_followJob {asked : Option Rotation} {known : JobKnown} {label : Label}
    (goes : ∀ wrote, onWrote wrote label = wrote ∨ (∃ job polls, label = .starts job polls) ∨
      ∃ effect reply, label = .performs .rotation effect reply) :
    (followJob deriveKeyfileContent asked known label).pinned = onWrote known.pinned label := by
  cases label with
  | starts job polls => rfl
  | performs name effect reply =>
      cases name with
      | rotation => cases effect <;> rfl
      | _ => rfl
  | _ =>
      rcases goes known.pinned with same | ⟨_, _, called⟩ | ⟨_, _, called⟩
      · exact same.symm
      · cases called
      · cases called

theorem holderKnows_step (holds : PinHolds deriveKeyfileContent s) {label : Label} {node : Node}
    (step : NodeStep deriveKeyfileContent s.node label node)
    (truthful : ∀ name password, label.works = some (name, password) → s.enforced = some password) :
    HolderKnows deriveKeyfileContent
      { s with node := node, wrote := onWrote s.wrote label, guarded := onGuarded s label } := by
  have goesOn : (∀ wrote, onWrote wrote label = wrote ∨ (∃ job polls, label = .starts job polls) ∨
        ∃ effect reply, label = .performs .rotation effect reply) →
      onGuarded s label = s.guarded →
      HolderKnows deriveKeyfileContent
        { s with node := node, wrote := onWrote s.wrote label, guarded := onGuarded s label } := by
    intro goes unguarded
    obtain ⟨asked, known, proven, wrote, obeys⟩ := holds.holder
    refine ⟨label.asks asked, followJob deriveKeyfileContent asked known label, ?_, ?_,
      job_obeys_step step obeys⟩
    · intro password member kept guarded
      simp only [unguarded] at guarded
      rcases (mem_followJob member).1 with earlier | works
      · exact proven password earlier kept guarded
      · have enforced := holds.enforced kept guarded
        rw [truthful _ _ works] at enforced
        exact Option.some.inj enforced
    · rw [pinned_followJob goes, wrote]
  cases label with
  | starts job polls => exact goesOn (fun _ => Or.inr (Or.inl ⟨job, polls, rfl⟩)) rfl
  | boots config =>
      cases step with
      | boots down =>
          have other : TaskName.rotation ≠ .boot := nofun
          exact holderKnows_idle (setTask_of_ne s.node.stopped
            (some (booting config deriveKeyfileContent)) other) rfl
  | expires =>
      cases step with
      | expires => exact holderKnows_idle (setTask_self _ _ _) rfl
  | stops =>
      cases step with
      | stops => exact holderKnows_idle rfl rfl
  | notified => exact goesOn (fun _ => Or.inl rfl) rfl
  | performs name effect reply =>
      refine goesOn (fun wrote => ?_) rfl
      cases name with
      | rotation => exact Or.inr (Or.inr ⟨effect, reply, rfl⟩)
      | _ => exact Or.inl rfl
  | ends name ending =>
      cases name with
      | rotation =>
          cases step with
          | ends ended => exact holderKnows_idle (setTask_self _ _ _) rfl
      | supervisor =>
          cases ending with
          | restarted outcome =>
              cases outcome with
              | ok _ => exact goesOn (fun _ => Or.inl rfl) rfl
              | error text =>
                  cases step with
                  | ends ended => exact holderKnows_idle rfl rfl
          | _ => exact goesOn (fun _ => Or.inl rfl) rfl
      | _ => exact goesOn (fun _ => Or.inl rfl) rfl

theorem onGuarded_enforced {s : Enforcing} {label : Label} {password : String}
    (kept : ∀ password, s.guarded = some password → s.enforced = some password)
    (guarded : onGuarded s label = some password) : s.enforced = some password := by
  simp only [onGuarded] at guarded
  split at guarded
  · split at guarded
    · rename_i answered
      exact answered.2.trans guarded
    · exact kept _ guarded
  · split at guarded
    · rename_i reconciled
      exact reconciled.2.trans guarded
    · exact kept _ guarded
  · exact kept _ guarded

/-- An undisturbed step keeps the pin on the password in force. -/
theorem pinHolds_step {label : EnforcingLabel} (holds : PinHolds deriveKeyfileContent s)
    (undisturbed : Undisturbed s label) (step : EnforcingStep deriveKeyfileContent s label t) :
    PinHolds deriveKeyfileContent t := by
  cases step with
  | @node label node step truthful =>
      refine ⟨staged_step holds.staged step, supervisorSound_step step holds.supervisor,
        bootSound_step holds.staged step holds.boot, holderKnows_step holds step truthful,
        fun _ => onGuarded_enforced holds.enforced, fun password inForce => ?_⟩
      rcases inForce_before holds step inForce with before | ⟨fallbackKey, rfl⟩
      · exact pinned_step holds step undisturbed before
      · rw [pinPassword, shared_step step]
        exact congrArg (Option.map AuthPin.password)
          (readPin_writePasswordPin s.node.shared.pin password fallbackKey (.ok ()))
  | @enforce password =>
      have before : ∀ kept, (if s.guarded = password then s.guarded else none) = some kept →
          s.guarded = some kept ∧ password = some kept := by
        intro kept guarded
        split at guarded
        · rename_i same
          exact ⟨guarded, same ▸ guarded⟩
        · cases guarded
      refine ⟨holds.staged, holds.supervisor, holds.boot, ?_, fun kept guarded => ?_, ?_⟩
      · obtain ⟨asked, known, proven, wrote, obeys⟩ := holds.holder
        exact ⟨asked, known, fun _ member kept guarded => proven _ member kept (before kept guarded).1,
          wrote, obeys⟩
      · exact (before kept guarded).2
      · rintro kept (guarded | ⟨wrote, -⟩)
        · exact holds.pinned kept (Or.inl (before kept guarded).1)
        · rw [show s.wrote = none from undisturbed] at wrote
          cases wrote

/-- On every volume, with any tasks of the node between each other: the password of a member phase that
    succeeded stays in the pin as long as mongod enforces it, in every run in which the resolver writes no
    other password than the one in force and nothing changes the stored user before the phase is over. -/
theorem pin_never_regresses (reached : (enforcing deriveKeyfileContent Undisturbed).Reachable s)
    {password : String} (guarded : s.guarded = some password) :
    pinPassword s.node = some password := by
  have holds : PinHolds deriveKeyfileContent s := by
    refine System.labelled_invariant (fun _ start => ?_) ?_ reached
    · exact .start start.1 start.2.1 start.2.2
    · exact fun _ _ _ holds undisturbed step => pinHolds_step holds undisturbed step
  exact holds.pinned password (Or.inl guarded)

/-! ### A member phase between the resolver's proof and its write -/

/-- The volume of a node whose process stopped. -/
def oldVolume : Enforcing where
  node := restingNode.stopped
  enforced := some "a"
  wrote := none
  guarded := none

/-- The next call of a task. -/
theorem enforcing_call {admits : Enforcing → EnforcingLabel → Prop} {s : Enforcing}
    (reached : (enforcing id admits).Reachable s) (name : TaskName) (effect : Effect)
    {next : effect.Reply → Running} (reply : effect.Reply)
    (running : s.node.tasks name = some (.perform effect next))
    (answered : s.node.shared.answers effect reply)
    (truthful : ∀ name' password,
      (Label.performs name effect reply).works = some (name', password) → s.enforced = some password)
    (admitted : admits s (.node (.performs name effect reply))) :
    (enforcing id admits).Reachable
      ⟨{ s.node.setTask name (some (next reply)) with shared := s.node.shared.after effect reply },
        s.enforced, onWrote s.wrote (.performs name effect reply),
        onGuarded s (.performs name effect reply)⟩ :=
  reached.take _ admitted (.node (.performs running answered) truthful)

/-- A run in which the resolver proved the old password, and the member phase for the new one comes
    before the resolver reads the pin. -/
theorem member_phase_after_proof : ∃ s, (enforcing id Undisturbed).Reachable s ∧
    s.guarded = some "b" ∧ s.enforced = some "b" ∧
    ∃ next rest, s.node.tasks .resolver = some (.perform .readPin next) ∧
      s.node.shared.answers .readPin (some { password := "b", keyfile := some "key" }) ∧
      next (some { password := "b", keyfile := some "key" }) =
        .perform (.writePasswordPin "a" (some "key")) rest := by
  have start : (enforcing id Undisturbed).Reachable oldVolume := .init ⟨rfl, rfl, rfl⟩
  -- The boot.
  have booting := start.take (t := ⟨_, _, _, _⟩) (.node (.boots oldConfig)) nofun
    (.node (.boots rfl) nofun)
  have read := enforcing_call booting .boot .readPin _ rfl rfl nofun nofun
  have pending := enforcing_call read .boot .readPending _ rfl rfl nofun nofun
  have reread := enforcing_call pending .boot .readPin _ rfl rfl nofun nofun
  have written := enforcing_call reread .boot (.writeKeyfileContent "key") (.ok ()) rfl trivial nofun nofun
  have loaded := enforcing_call written .boot (.setLoadedKeyfile "key") () rfl trivial nofun nofun
  have booted := loaded.take (t := ⟨_, _, _, _⟩)
    (.node (.ends .boot (.booted (.ok
      { password := "a", keyfile := some "key", envDrifted := true })))) nofun (.node (.ends rfl) nofun)
  -- The resolver proves the old password.
  have past := enforcing_call booted .resolver .initServerRunning false rfl trivial nofun nofun
  have unpending := enforcing_call past .resolver .readPending _ rfl rfl nofun nofun
  have proved := enforcing_call unpending .resolver (.probeLocalPassword "a") .works rfl trivial
    (by rintro _ _ ⟨⟩; rfl) nofun
  -- The stored user changes, and the member phase for the new password runs.
  have replicated := proved.take (t := ⟨_, _, _, _⟩) (.enforce (some "b")) rfl .enforce
  have asked := replicated.take (t := ⟨_, _, _, _⟩)
    (.node (.starts (.answer (some "railway:a")
      { operation := .member, newPassword := "b", currentPassword := "a" }) 1)) nofun
    (.node (.starts rfl rfl) nofun)
  have authorized := enforcing_call asked .rotation .readPin _ rfl rfl nofun nofun
  have probed := enforcing_call authorized .rotation (.probeLocalPassword "b") .works rfl trivial
    (by rintro _ _ ⟨⟩; rfl) nofun
  have swapped := enforcing_call probed .rotation (.swapPassword "b") () rfl trivial nofun nofun
  have keyed := enforcing_call swapped .rotation .loadedKeyfile _ rfl rfl nofun nofun
  have pinned := enforcing_call keyed .rotation (.writePasswordPin "b" (some "key")) (.ok ()) rfl trivial
    nofun nofun
  have led := enforcing_call pinned .rotation .hello (.ok { isWritablePrimary := true }) rfl trivial
    nofun nofun
  have answered := led.take (t := ⟨_, _, _, _⟩)
    (.node (.ends .rotation (.answered
      { operation := .member, newPassword := "b", currentPassword := "a" } (.ok { leader := true }))))
    nofun (.node (.ends rfl) nofun)
  exact ⟨_, answered, rfl, rfl, _, _, rfl, rfl, rfl⟩

/-- As long as the resolver waits, the pin holds the new password. -/
theorem pin_never_regresses_before_write : ∃ s, (enforcing id Undisturbed).Reachable s ∧
    s.guarded = some "b" ∧ pinPassword s.node = some "b" := by
  obtain ⟨s, reached, guarded, -⟩ := member_phase_after_proof
  exact ⟨s, reached, guarded, pin_never_regresses reached guarded⟩

/-- The resolver goes on with its proof of the old password and writes it over the new one. -/
theorem stale_proof_written_last : ∃ s, (enforcing id fun _ _ => True).Reachable s ∧
    s.guarded = some "b" ∧ s.enforced = some "b" ∧ pinPassword s.node = some "a" := by
  obtain ⟨s, reached, guarded, enforced, next, rest, resolving, answered, writes⟩ :=
    member_phase_after_proof
  have free : (enforcing id fun _ _ => True).Reachable s := reached.weaken fun _ _ _ => trivial
  have read := enforcing_call free .resolver .readPin _ resolving answered nofun trivial
  rw [writes] at read
  have wrote := enforcing_call read .resolver (.writePasswordPin "a" (some "key")) (.ok ())
    (setTask_self _ _ _) trivial nofun trivial
  refine ⟨_, wrote, guarded, enforced, ?_⟩
  exact congrArg (Option.map AuthPin.password)
    (readPin_writePasswordPin s.node.shared.pin "a" (some "key") (.ok ()))

end MongoHa.Credentials
