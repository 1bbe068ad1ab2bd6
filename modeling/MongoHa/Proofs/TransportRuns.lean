/-
Module: MongoHa.Proofs.TransportRuns
Layer: Proofs
Purpose: Rebuilds for a run of transport failures. The run is unbroken exactly when no authentication
  failure that an open window holds back lies within it: that failure returns before the count is reset,
  although the server answered.
Imports: MongoHa.Proofs.RebuildWindows
Trusted boundary: none (fully proved)
Main exports: rebuilds_transport_iff, PolicyEffect.transportFailures, counted_calls, UnbrokenRuns,
  NoneHeldBackInRun, unbroken_iff, held_back_failure_counts
Open obligations: none
-/
import MongoHa.Proofs.RebuildWindows

namespace MongoHa

open Foundations RecoveryPolicy

variable {policy : RecoveryPolicy} {call : PolicyCall} {authenticated : Bool} {now : Instant}
  {history : List PolicyCall}

/-! ### What is counted -/

/-- A transport failure rebuilds exactly when it completes a count and no window for one is open. -/
theorem rebuilds_transport_iff :
    PolicyCall.rebuilds policy (.failure .transport authenticated now) = true ↔
      transportFailuresBeforeRebuild ≤ policy.transportFailures + 1 ∧
        policy.windowOpen .transport now = false := by
  simp only [PolicyCall.rebuilds, onFailure]
  split
  · rename_i short
    constructor
    · intro rebuilds
      cases rebuilds
    · intro completes
      exact absurd short (not_lt.2 completes.1)
  · rename_i enough
    rw [arm_rebuilds, Bool.not_eq_true']
    exact ⟨fun unopened => ⟨not_lt.1 enough, unopened⟩, And.right⟩

/-- The count after a call: a transport failure adds one, a failure that an open window holds back keeps
    it, and everything else starts it again. -/
theorem PolicyEffect.transportFailures {rebuilds : Bool} {next : RecoveryPolicy}
    (effect : PolicyEffect policy call rebuilds next) :
    next.transportFailures = 0 ∨
      call.isTransportFailure = true ∧ next.transportFailures = policy.transportFailures + 1 ∨
      (∃ failure : AuthFailure, call = failure.call ∧ policy.authWindowOpen failure.at_ = true) ∧
        next.transportFailures = policy.transportFailures := by
  cases effect with
  | answered answers => exact Or.inl rfl
  | counted held => exact Or.inr (Or.inl ⟨rfl, rfl⟩)
  | @heldBack failure opened =>
      rw [← authWindowOpen_eq] at opened
      exact Or.inr (Or.inr ⟨⟨failure, rfl, opened⟩, rfl⟩)
  | rebuilt fails completes closed least => exact Or.inl rfl

theorem transportFailures_le_length (history : List PolicyCall) :
    (afterCalls history).transportFailures ≤ history.length := by
  induction history using List.reverseRecOn with
  | nil => exact le_refl _
  | append_singleton history call ih =>
      rw [afterCalls_snoc, List.length_append, List.length_singleton]
      rcases (policy_effect (afterCalls history) call).transportFailures with zero | ⟨-, added⟩ | ⟨-, same⟩
      · omega
      · omega
      · omega

/-- The last calls of a history, as many as are counted: each is a transport failure, or an authentication
    failure that an open window held back. -/
theorem counted_calls {early late : List PolicyCall} (split : history = early ++ call :: late)
    (counted : late.length < (afterCalls history).transportFailures) :
    call.isTransportFailure = true ∨
      ∃ failure : AuthFailure, call = failure.call ∧
        (afterCalls early).authWindowOpen failure.at_ = true := by
  induction history using List.reverseRecOn generalizing late with
  | nil => simp at split
  | append_singleton history last ih =>
      rw [afterCalls_snoc] at counted
      have moved := (policy_effect (afterCalls history) last).transportFailures
      rcases append_singleton_split split with ⟨rfl, rfl, rfl⟩ | ⟨late, rfl, within⟩
      · rcases moved with zero | ⟨transport, -⟩ | ⟨heldBack, -⟩
        · rw [zero] at counted
          cases counted
        · exact Or.inl transport
        · exact Or.inr heldBack
      · rw [List.length_append, List.length_singleton] at counted
        apply ih within
        rcases moved with zero | ⟨-, added⟩ | ⟨-, same⟩
        · rw [zero] at counted
          cases counted
        · omega
        · omega

/-! ### Unbroken runs -/

/-- The last calls of every transport rebuild, itself included, are all transport failures. -/
def UnbrokenRuns (history : List PolicyCall) : Prop :=
  ∀ before authenticated now after,
    history = before ++ .failure .transport authenticated now :: after →
    PolicyCall.rebuilds (afterCalls before) (.failure .transport authenticated now) = true →
    ∃ run, run <:+ before ++ [.failure .transport authenticated now] ∧
      run.length = transportFailuresBeforeRebuild ∧ ∀ call ∈ run, call.isTransportFailure = true

/-- No authentication failure that an open window holds back is among the calls that a transport failure
    completes to a count, unless a window for transport failures is open then. -/
def NoneHeldBackInRun (history : List PolicyCall) : Prop :=
  ∀ before (heldBack : AuthFailure) between authenticated now after,
    history = before ++ heldBack.call :: (between ++ .failure .transport authenticated now :: after) →
    (afterCalls before).authWindowOpen heldBack.at_ = true →
    between.length + 2 ≤ transportFailuresBeforeRebuild →
    transportFailuresBeforeRebuild ≤
      (afterCalls (before ++ heldBack.call :: between)).transportFailures + 1 →
    (afterCalls (before ++ heldBack.call :: between)).windowOpen .transport now = true

/-- A transport rebuild is for an unbroken run exactly when no authentication failure that an open window
    held back is among the calls before it. -/
theorem unbroken_iff : UnbrokenRuns history ↔ NoneHeldBackInRun history := by
  constructor
  · intro unbroken before heldBack between authenticated now after split opened few enough
    by_contra closed
    have rebuilds := (@rebuilds_transport_iff _ authenticated now).2 ⟨enough, by simpa using closed⟩
    obtain ⟨run, last, length, transports⟩ := unbroken (before ++ heldBack.call :: between)
      authenticated now after (by rw [split]; simp) rebuilds
    have inside : heldBack.call :: (between ++ [.failure .transport authenticated now]) <:+ run := by
      refine List.suffix_of_suffix_length_le ⟨before, ?_⟩ last ?_
      · simp
      · rw [length, List.length_cons, List.length_append, List.length_singleton]
        exact few
    cases transports heldBack.call (inside.subset List.mem_cons_self)
  · intro none before authenticated now after split rebuilds
    obtain ⟨enough, unopened⟩ := rebuilds_transport_iff.1 rebuilds
    have long := transportFailures_le_length before
    have five : transportFailuresBeforeRebuild = 5 := rfl
    refine ⟨_, List.drop_suffix (before.length - 4) _, ?_, ?_⟩
    · rw [List.length_drop, List.length_append, List.length_singleton]
      omega
    · intro call member
      rw [List.drop_append_of_le_length (Nat.sub_le ..)] at member
      rcases List.mem_append.1 member with earlier | last
      · obtain ⟨skipped, late, dropped⟩ := List.append_of_mem earlier
        obtain ⟨early, ended⟩ : ∃ early, before = early ++ call :: late := by
          refine ⟨before.take (before.length - 4) ++ skipped, ?_⟩
          rw [List.append_assoc, ← dropped, List.take_append_drop]
        have few : late.length < 4 := by
          have total := congrArg List.length dropped
          rw [List.length_drop, List.length_append, List.length_cons] at total
          omega
        rcases counted_calls ended (by omega) with transport | ⟨heldBack, rfl, opened⟩
        · exact transport
        · have calls : history = early ++ heldBack.call ::
              (late ++ .failure .transport authenticated now :: after) := by
            rw [split, ended, List.append_assoc, List.cons_append]
          have reopened := none early heldBack late authenticated now after calls opened (by omega)
            (by rw [← ended]; exact enough)
          rw [← ended, unopened] at reopened
          cases reopened
      · rw [List.mem_singleton.1 last]
        rfl

/-- A refused credential at boot, four timeouts, another refusal that the window holds back, one timeout:
    it rebuilds for a run that the server interrupted. -/
theorem held_back_failure_counts :
    ¬ UnbrokenRuns ([.failure .auth true 0] ++ List.replicate 4 (.failure .transport false 0) ++
      [.failure .auth true 0, .failure .transport false 0]) := by
  intro unbroken
  obtain ⟨run, last, length, transports⟩ := unbroken
    ([.failure .auth true 0] ++ List.replicate 4 (.failure .transport false 0) ++ [.failure .auth true 0])
    false 0 [] rfl (by decide)
  have inside : [PolicyCall.failure .auth true 0, .failure .transport false 0] <:+ run := by
    refine List.suffix_of_suffix_length_le
      ⟨[.failure .auth true 0] ++ List.replicate 4 (.failure .transport false 0), rfl⟩ last ?_
    rw [length]
    decide
  cases transports _ (inside.subset List.mem_cons_self)

end MongoHa
