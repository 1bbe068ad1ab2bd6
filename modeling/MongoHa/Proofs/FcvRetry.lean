/-
Module: MongoHa.Proofs.FcvRetry
Layer: Proofs
Purpose: Interrupted raises. Over any run of reconcile iterations, completions and interruptions, the next
  round raises whenever no command runs and the FCV is behind exactly when no command was interrupted:
  mongod keeps the target of an interrupted one, and a round that reads a target waits.
Imports: Mathlib.Tactic.ByContra, MongoHa.Foundations.Machine, MongoHa.Proofs.FcvRaise
Trusted boundary: none (fully proved)
Main exports: MongodFcv, Iteration, fcvStep, Retries, Retried, Uninterrupted, retried_iff,
  retried_between_restarts, interrupted_raise_waits
Open obligations: none
-/
import Mathlib.Tactic.ByContra
import MongoHa.Foundations.Machine
import MongoHa.Proofs.FcvRaise

namespace MongoHa.Fcv

open Foundations

/-! ### mongod and the rounds -/

/-- mongod's FCV, and whether a `setFeatureCompatibilityVersion` runs. -/
structure MongodFcv where
  fcv : Fcv
  running : Bool
deriving Repr, DecidableEq, Inhabited

/-- What an iteration of `reconcile` reads besides the FCV, with what it reports and reads back. -/
structure Iteration where
  env : Environment
  config : Config
  buildInfo : String
  hello : Hello
  status : RsStatus
  peerSeries : String → Option String
  reported : Reported
  after : MongoResult Fcv

def Iteration.reads (iteration : Iteration) (fcv : Fcv) : RoundReads :=
  { buildInfo := .ok iteration.buildInfo
    fcv := .ok fcv
    hello := .ok iteration.hello
    status := .ok iteration.status
    peerSeries := iteration.peerSeries }

/-- The decision of the iteration. -/
def Iteration.decision (iteration : Iteration) (fcv : Fcv) : MongoResult Decision :=
  round iteration.config (iteration.reads fcv)

/-- The node is a standalone, or a primary whose other members all are healthy and on its series. -/
def Iteration.Ready (iteration : Iteration) (running : Series) : Prop :=
  parseSeries iteration.buildInfo = some running ∧
    (iteration.config.rsEnabled = false ∨
      iteration.hello.isWritablePrimary = true ∧
      ∃ setName myState myStateStr members votingMembers,
        iteration.status = .active setName myState myStateStr members votingMembers ∧
        ∀ m ∈ members, m.isSelf = false →
          (memberSeries iteration.peerSeries m).Follows running)

/-- A round of the wrapper, or what happens to the command that runs. -/
inductive FcvLabel where
  | round (iteration : Iteration)
  | completes
  /-- A restart, or a failure of the command. -/
  | interrupted

/-- mongod once it is asked for a series, or left alone. -/
def MongodFcv.asked (s : MongodFcv) : Option String → MongodFcv
  | some series => { fcv := { s.fcv with target := some series }, running := true }
  | none => s

/-- mongod after a label. -/
def fcvStep (s : MongodFcv) : FcvLabel → MongodFcv
  | .round iteration =>
      s.asked (reconcileStep iteration.env iteration.reported iteration.after
        (iteration.decision s.fcv)).asks
  | .completes =>
      match s.running, s.fcv.target with
      | true, some target => { fcv := { version := target, target := none }, running := false }
      | _, _ => s
  | .interrupted => { s with running := false }

/-- mongod before any raise. -/
def atRest (version : String) : MongodFcv :=
  { fcv := { version := version, target := none }, running := false }

def Behind (running : Series) (fcv : Fcv) : Prop :=
  ∃ current, parseSeries fcv.version = some current ∧ current < running

/-- With no command running and the FCV behind, the next round raises. -/
def Retries (running : Series) (s : MongodFcv) : Prop :=
  s.running = false → Behind running s.fcv → ∀ iteration : Iteration, iteration.Ready running →
    ∃ series, iteration.decision s.fcv = .ok (.raise series)

/-- In every state that the run reaches, the next round raises whenever no command runs and the FCV is
    behind. -/
def Retried (running : Series) (version : String) (labels : List FcvLabel) : Prop :=
  ∀ before after, labels = before ++ after →
    Retries running (finalState fcvStep (atRest version) before)

/-- Every interruption of the run finds no command running. -/
def Uninterrupted (version : String) (labels : List FcvLabel) : Prop :=
  ∀ before after, labels = before ++ .interrupted :: after →
    (finalState fcvStep (atRest version) before).running = false

variable {running : Series} {version : String} {s : MongodFcv} {iteration : Iteration} {fcv : Fcv}

/-- What a round of a ready node decides. -/
theorem decision_ready (ready : iteration.Ready running) :
    ∃ role members, MayRaise running role members ∧
      iteration.decision fcv = .ok (decide running.text fcv role members) := by
  obtain ⟨ran, set⟩ := ready
  have series : buildInfoSeries (.ok iteration.buildInfo) = .ok running.text := by
    simp [buildInfoSeries, seriesOf, ran, bind, Except.bind, pure, Except.pure]
  rcases set with standalone | ⟨primary, setName, myState, myStateStr, members, votingMembers, active,
    follows⟩
  · refine ⟨.standalone, [], Or.inl rfl, ?_⟩
    simp [Iteration.decision, round, Iteration.reads, series, standalone, bind, Except.bind, pure,
      Except.pure]
  · cases enabled : iteration.config.rsEnabled with
    | false =>
        refine ⟨.standalone, [], Or.inl rfl, ?_⟩
        simp [Iteration.decision, round, Iteration.reads, series, enabled, bind, Except.bind, pure,
          Except.pure]
    | true =>
        refine ⟨.primary, (members.filter fun m => !m.isSelf).map (memberSeries iteration.peerSeries),
          Or.inr ⟨rfl, ?_⟩, ?_⟩
        · intro row listed
          obtain ⟨m, kept, rfl⟩ := List.mem_map.1 listed
          obtain ⟨member, other⟩ := List.mem_filter.1 kept
          exact follows m member (by simpa using other)
        · simp [Iteration.decision, round, Iteration.reads, series, enabled, primary, active, bind,
            Except.bind, pure, Except.pure]

/-- A ready round raises exactly when the FCV is behind and carries no target. -/
theorem decision_raise_iff (ready : iteration.Ready running) {series : String} :
    iteration.decision fcv = .ok (.raise series) ↔
      Behind running fcv ∧ fcv.target = none ∧ series = running.text := by
  obtain ⟨role, members, may, decided⟩ := @decision_ready running iteration fcv ready
  rw [decided, Except.ok.injEq, decide_raise_iff]
  constructor
  · rintro ⟨runningSeries, current, ran, at_, free, behind, -, rfl⟩
    obtain rfl := Option.some.inj (ran.symm.trans (parseSeries_text running))
    exact ⟨⟨current, at_, behind⟩, free, rfl⟩
  · rintro ⟨⟨current, at_, behind⟩, free, rfl⟩
    exact ⟨running, current, parseSeries_text running, at_, free, behind, may, rfl⟩

/-! ### Runs -/

/-- A ready round asks for the running series, or leaves mongod as it is. -/
theorem fcvStep_round (ready : iteration.Ready running) :
    (Behind running s.fcv ∧ s.fcv.target = none ∧ fcvStep s (.round iteration) =
        { fcv := { s.fcv with target := some running.text }, running := true }) ∨
      (¬ (Behind running s.fcv ∧ s.fcv.target = none) ∧ fcvStep s (.round iteration) = s) := by
  have asked : ∀ series, (reconcileStep iteration.env iteration.reported iteration.after
      (iteration.decision s.fcv)).asks = some series ↔
        Behind running s.fcv ∧ s.fcv.target = none ∧ series = running.text :=
    fun _ => asks_reconcileStep.trans (decision_raise_iff ready)
  rw [fcvStep]
  cases asks : (reconcileStep iteration.env iteration.reported iteration.after
      (iteration.decision s.fcv)).asks with
  | some series =>
      obtain ⟨behind, free, rfl⟩ := (asked series).1 asks
      exact Or.inl ⟨behind, free, rfl⟩
  | none =>
      refine Or.inr ⟨fun ⟨behind, free⟩ => ?_, rfl⟩
      rw [(asked running.text).2 ⟨behind, free, rfl⟩] at asks
      cases asks

/-- The command that runs was issued by a round. -/
def InFlight (running : Series) (s : MongodFcv) : Prop :=
  s.running = true → Behind running s.fcv ∧ s.fcv.target = some running.text

theorem inFlight_step {label : FcvLabel}
    (ready : ∀ iteration, label = .round iteration → iteration.Ready running)
    (holds : InFlight running s) : InFlight running (fcvStep s label) := by
  cases label with
  | round iteration =>
      rcases @fcvStep_round running s iteration (ready _ rfl) with ⟨behind, -, moved⟩ | ⟨-, same⟩
      · rw [moved]
        exact fun _ => ⟨behind, rfl⟩
      · rw [same]
        exact holds
  | completes =>
      intro runs
      simp only [fcvStep] at runs ⊢
      split at runs
      · cases runs
      · exact holds runs
  | interrupted =>
      intro runs
      cases runs

theorem inFlight_run {labels : List FcvLabel}
    (ready : ∀ iteration, .round iteration ∈ labels → iteration.Ready running)
    (holds : InFlight running s) : InFlight running (finalState fcvStep s labels) := by
  apply finalState_invariant holds
  intro entry member holds
  apply inFlight_step _ holds
  intro iteration same
  apply ready
  rw [← same]
  exact snd_mem_of_mem_trace member

/-- Nothing is in flight without a command that runs. -/
def Clean (s : MongodFcv) : Prop :=
  s.running = false → s.fcv.target = none

theorem clean_step {label : FcvLabel}
    (ready : ∀ iteration, label = .round iteration → iteration.Ready running)
    (uninterrupted : label = .interrupted → s.running = false) (holds : Clean s) :
    Clean (fcvStep s label) := by
  cases label with
  | round iteration =>
      rcases @fcvStep_round running s iteration (ready _ rfl) with ⟨-, -, moved⟩ | ⟨-, same⟩
      · rw [moved]
        intro idle
        cases idle
      · rw [same]
        exact holds
  | completes =>
      intro idle
      simp only [fcvStep] at idle ⊢
      split
      · rfl
      · rename_i other
        split at idle
        · rename_i target runs aimed
          exact absurd aimed (other target runs)
        · exact holds idle
  | interrupted =>
      intro _
      exact holds (uninterrupted rfl)

theorem clean_run {labels : List FcvLabel}
    (ready : ∀ iteration, .round iteration ∈ labels → iteration.Ready running)
    (uninterrupted : ∀ before after, labels = before ++ .interrupted :: after →
      (finalState fcvStep s before).running = false)
    (holds : Clean s) : Clean (finalState fcvStep s labels) := by
  apply finalState_invariant holds
  intro entry member holds
  apply @clean_step running entry.1 entry.2 _ _ holds
  · intro iteration same
    apply ready
    rw [← same]
    exact snd_mem_of_mem_trace member
  · intro same
    obtain ⟨before, after, split, reached⟩ := mem_trace_iff.1 member
    rw [reached]
    exact uninterrupted before after (by rw [split, same])

/-- A standalone on this series. -/
def standaloneOn (series : Series) : Iteration :=
  { env := fun _ => none
    config := { configWithSeeds "mongo-1" none with rsEnabledFlag := false }
    buildInfo := series.text
    hello := {}
    status := .notInitialized
    peerSeries := fun _ => none
    reported := { lastReason := "", lastError := "" }
    after := .ok { version := series.text, target := none } }

theorem standaloneOn_ready (series : Series) : (standaloneOn series).Ready series :=
  ⟨parseSeries_text series, Or.inl rfl⟩

/-- Over a run from an FCV without a target, the next round raises whenever no command runs and the FCV
    is behind exactly when no command was interrupted while it ran. -/
theorem retried_iff {labels : List FcvLabel}
    (ready : ∀ iteration, .round iteration ∈ labels → iteration.Ready running) :
    Retried running version labels ↔ Uninterrupted version labels := by
  constructor
  · intro retries before after split
    by_contra interrupts
    have runs : (finalState fcvStep (atRest version) before).running = true := by simpa using interrupts
    have issued : InFlight running (finalState fcvStep (atRest version) before) := by
      refine inFlight_run (fun iteration member => ready iteration ?_) (fun busy => by cases busy)
      rw [split]
      exact List.mem_append_left _ member
    obtain ⟨behind, aimed⟩ := issued runs
    have next := retries (before ++ [.interrupted]) after (by rw [split]; simp)
    rw [finalState_append, finalState_cons, finalState_nil] at next
    obtain ⟨series, raises⟩ := next rfl behind _ (standaloneOn_ready running)
    obtain ⟨-, free, -⟩ := (decision_raise_iff (standaloneOn_ready running)).1 raises
    rw [fcvStep, aimed] at free
    cases free
  · intro uninterrupted before after split idle behind iteration ready'
    have clean : Clean (finalState fcvStep (atRest version) before) := by
      refine clean_run (fun iteration member => ready iteration ?_) (fun early late inner => ?_)
        fun _ => rfl
      · rw [split]
        exact List.mem_append_left _ member
      · exact uninterrupted early (late ++ after) (by rw [split, inner]; simp)
    exact ⟨running.text, (decision_raise_iff ready').2 ⟨behind, clean idle, rfl⟩⟩

/-- A raise between two restarts, neither of which meets its command. -/
def raiseBetweenRestarts : List FcvLabel :=
  [.interrupted, .round (standaloneOn ⟨8, 3⟩), .completes, .interrupted]

/-- A restart before the raise leaves it to the next round, and none finds the FCV behind afterwards. -/
theorem retried_between_restarts : Retried ⟨8, 3⟩ "8.2" raiseBetweenRestarts := by
  refine (retried_iff (fun iteration member => ?_)).2 (fun before after split => ?_)
  · obtain rfl : iteration = standaloneOn ⟨8, 3⟩ := by simpa [raiseBetweenRestarts] using member
    exact standaloneOn_ready ⟨8, 3⟩
  · rcases before with _ | ⟨first, _ | ⟨second, _ | ⟨third, _ | ⟨fourth, later⟩⟩⟩⟩
    · rfl
    · simp [raiseBetweenRestarts] at split
    · simp [raiseBetweenRestarts] at split
    · obtain ⟨rfl, rfl, rfl, -⟩ : .interrupted = first ∧ .round (standaloneOn ⟨8, 3⟩) = second ∧
          .completes = third ∧ [] = after := by simpa [raiseBetweenRestarts] using split
      rfl
    · simp [raiseBetweenRestarts] at split

/-- A raise from 8.2 that a restart interrupts: the next round waits for it. -/
theorem interrupted_raise_waits :
    ¬ (∀ (running : Series) (version : String) (labels : List FcvLabel),
        (∀ iteration, .round iteration ∈ labels → iteration.Ready running) →
        Retried running version labels) ∧
      (standaloneOn ⟨8, 3⟩).decision
          (finalState fcvStep (atRest "8.2") [.round (standaloneOn ⟨8, 3⟩), .interrupted]).fcv =
        .ok (.wait "an FCV transition to 8.3 is in flight (currently 8.2)") := by
  refine ⟨fun retries => ?_, by rfl⟩
  have next := retries ⟨8, 3⟩ "8.2" [.round (standaloneOn ⟨8, 3⟩), .interrupted] ?_ _ []
    (List.append_nil _).symm
  · obtain ⟨series, raises⟩ := next rfl ⟨⟨8, 2⟩, by decide, by decide⟩ _ (standaloneOn_ready ⟨8, 3⟩)
    cases raises
  · intro iteration member
    obtain rfl : iteration = standaloneOn ⟨8, 3⟩ := by simpa using member
    exact standaloneOn_ready ⟨8, 3⟩

end MongoHa.Fcv
