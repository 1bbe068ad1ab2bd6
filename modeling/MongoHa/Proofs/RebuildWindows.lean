/-
Module: MongoHa.Proofs.RebuildWindows
Layer: Proofs
Purpose: Histories of calls on the recovery policy. After an authenticated answer the next authentication
  failure rebuilds, whatever other calls come between. Two rebuilds for a refused credential are a window
  apart exactly when no five transport failures in a row come inside one: a transport rebuild takes the
  only slot, and the window of the credential with it.
Imports: Mathlib.Data.List.Infix, MongoHa.Foundations.Machine, MongoHa.Wrapper.Recovery
Trusted boundary: none (fully proved)
Main exports: PolicyCall, policyStep, afterCalls, PolicyEffect, policy_effect,
  auth_failure_after_proof_rebuilds, AuthPair, Spaced,
  spaced_iff, transport_rebuild_reopens_auth
Open obligations: none
-/
import Mathlib.Data.List.Infix
import MongoHa.Foundations.Machine
import MongoHa.Wrapper.Recovery

namespace MongoHa

open Foundations

/-! ### Histories -/

/-- A call on the policy: `on_success`, or `on_failure` at this reading of the clock. -/
inductive PolicyCall where
  | success (authenticated : Bool)
  | failure (kind : Failure) (authenticated : Bool) (now : Instant)
deriving Repr, DecidableEq, Inhabited

namespace PolicyCall

def time? : PolicyCall → Option Instant
  | .success _ => none
  | .failure _ _ now => some now

/-- A success or a verdict of the server. -/
def answers : PolicyCall → Bool
  | .success _ => true
  | .failure kind _ _ => kind = .verdict

/-- An answer to an authenticated command. -/
def proves : PolicyCall → Bool
  | .success authenticated => authenticated
  | .failure kind authenticated _ => decide (kind = .verdict) && authenticated

def isAuthFailure : PolicyCall → Bool
  | .success _ => false
  | .failure kind _ _ => kind = .auth

def isTransportFailure : PolicyCall → Bool
  | .success _ => false
  | .failure kind _ _ => kind = .transport

/-- Whether the call tells its caller to rebuild. -/
def rebuilds (policy : RecoveryPolicy) : PolicyCall → Bool
  | .success _ => false
  | .failure kind authenticated now => (policy.onFailure kind authenticated now).2

end PolicyCall

/-- The policy after a call, whatever it answers. -/
def policyStep (policy : RecoveryPolicy) : PolicyCall → RecoveryPolicy
  | .success authenticated => policy.onSuccess authenticated
  | .failure kind authenticated now => (policy.onFailure kind authenticated now).1

/-- The policy after a history. -/
def afterCalls (history : List PolicyCall) : RecoveryPolicy :=
  finalState policyStep .new history

theorem afterCalls_snoc (history : List PolicyCall) (call : PolicyCall) :
    afterCalls (history ++ [call]) = policyStep (afterCalls history) call := by
  simp [afterCalls, finalState_append]

theorem afterCalls_append (history calls : List PolicyCall) :
    afterCalls (history ++ calls) = finalState policyStep (afterCalls history) calls :=
  finalState_append ..

/-- The transport failures since the last answer. -/
def unanswered (calls : List PolicyCall) : Nat :=
  calls.foldl
    (fun count call =>
      if call.answers then 0 else if call.isTransportFailure then count + 1 else count) 0

theorem unanswered_snoc (calls : List PolicyCall) (call : PolicyCall) :
    unanswered (calls ++ [call]) =
      if call.answers then 0
      else if call.isTransportFailure then unanswered calls + 1 else unanswered calls := by
  simp [unanswered]

theorem unanswered_le_length (calls : List PolicyCall) : unanswered calls ≤ calls.length := by
  induction calls using List.reverseRecOn with
  | nil => exact le_refl _
  | append_singleton calls call ih =>
      rw [unanswered_snoc, List.length_append, List.length_singleton]
      split
      · exact Nat.zero_le _
      · split <;> omega

/-- An authentication failure: what the command needed, and when it failed. -/
structure AuthFailure where
  authenticated : Bool
  at_ : Instant
deriving Repr, DecidableEq, Inhabited

def AuthFailure.call (failure : AuthFailure) : PolicyCall :=
  .failure .auth failure.authenticated failure.at_

/-- Two authentication failures of a history with no authenticated answer between them. -/
structure AuthPair (history : List PolicyCall) where
  before : List PolicyCall
  first : AuthFailure
  between : List PolicyCall
  second : AuthFailure
  after : List PolicyCall
  split : history = before ++ first.call :: (between ++ second.call :: after)
  unproven : ∀ call ∈ between, call.proves = false

/-- The calls come at non-decreasing times. -/
def InOrder (history : List PolicyCall) : Prop :=
  (history.filterMap PolicyCall.time?).Pairwise (· ≤ ·)

instance (history : List PolicyCall) : Decidable (InOrder history) :=
  inferInstanceAs (Decidable (List.Pairwise _ _))

/-- Two rebuilds for a refused credential are a window apart. -/
def Spaced (history : List PolicyCall) : Prop :=
  ∀ pair : AuthPair history,
    pair.first.call.rebuilds (afterCalls pair.before) = true →
    pair.second.call.rebuilds (afterCalls (pair.before ++ pair.first.call :: pair.between)) = true →
    pair.first.at_ + rebuildBackoffMin ≤ pair.second.at_

/-- Where the window of a first authentication failure should still hold the second one back, no run of
    transport failures without an answer between them is long enough for a rebuild. -/
def NoRunInWindow (history : List PolicyCall) : Prop :=
  ∀ pair : AuthPair history,
    (afterCalls pair.before).authWindowOpen pair.first.at_ = false →
    pair.second.at_ < pair.first.at_ + rebuildBackoffMin →
    ∀ calls, calls <+: pair.between → unanswered calls < transportFailuresBeforeRebuild

variable {policy : RecoveryPolicy} {call : PolicyCall} {authenticated : Bool} {now until_ : Instant}
  {kind : Failure}

/-! ### What a call leaves -/

namespace RecoveryPolicy

/-- The window, open or not, is one for authentication failures. -/
def authArmed (policy : RecoveryPolicy) : Bool :=
  match policy.pending with
  | some (.auth, _) => true
  | _ => false

theorem windowOpen_of_pending (pending : policy.pending = some (kind, until_)) (early : now < until_) :
    policy.windowOpen kind now = true := by
  simp [windowOpen, pending, early]

end RecoveryPolicy

open RecoveryPolicy

/-- Everything a call can do: whether it tells its caller to rebuild, and the policy it leaves. -/
inductive PolicyEffect (policy : RecoveryPolicy) : PolicyCall → Bool → RecoveryPolicy → Prop where
  | answered {call : PolicyCall} (answers : call.answers = true) :
      PolicyEffect policy call false (policy.proven call.proves)
  | counted {authenticated : Bool} {now : Instant}
      (held : policy.transportFailures + 1 < transportFailuresBeforeRebuild ∨
        policy.windowOpen .transport now = true) :
      PolicyEffect policy (.failure .transport authenticated now) false
        { policy with transportFailures := policy.transportFailures + 1 }
  | heldBack {failure : AuthFailure} (opened : policy.windowOpen .auth failure.at_ = true) :
      PolicyEffect policy failure.call false policy
  | rebuilt {kind : Failure} {authenticated : Bool} {now : Instant} {wait : Duration}
      (fails : kind ≠ .verdict)
      (completes : kind = .transport →
        transportFailuresBeforeRebuild ≤ policy.transportFailures + 1)
      (closed : policy.windowOpen kind now = false)
      (least : rebuildBackoffMin ≤ policy.backoff → rebuildBackoffMin ≤ wait) :
      PolicyEffect policy (.failure kind authenticated now) true
        { transportFailures := 0, backoff := wait, pending := some (kind, now + wait) }

/-- What a call does to the policy, case by case. -/
theorem policy_effect (policy : RecoveryPolicy) (call : PolicyCall) :
    PolicyEffect policy call (call.rebuilds policy) (policyStep policy call) := by
  cases call with
  | success authenticated => exact .answered rfl
  | failure kind authenticated now =>
      cases kind with
      | verdict => exact .answered rfl
      | auth =>
          simp only [policyStep, PolicyCall.rebuilds, onFailure]
          rcases @arm_cases policy .auth now with ⟨opened, held⟩ | ⟨closed, wait, least, armed⟩
          · rw [held]
            exact @PolicyEffect.heldBack policy ⟨authenticated, now⟩ opened
          · rw [armed]
            exact .rebuilt (by decide) (fun other => by cases other) closed least
      | transport =>
          simp only [policyStep, PolicyCall.rebuilds, onFailure]
          split
          · rename_i short
            exact .counted (Or.inl short)
          · rename_i enough
            rcases @arm_cases { policy with transportFailures := policy.transportFailures + 1 } .transport
              now with ⟨opened, held⟩ | ⟨closed, wait, least, armed⟩
            · rw [held]
              exact .counted (Or.inr opened)
            · rw [armed]
              exact .rebuilt (by decide) (fun _ => Nat.le_of_not_lt enough) closed least

/-- An authentication failure rebuilds exactly when no window for one is open. -/
theorem rebuilds_auth (failure : AuthFailure) :
    failure.call.rebuilds policy = !policy.authWindowOpen failure.at_ :=
  onFailure_auth

variable {next : RecoveryPolicy} {rebuilds : Bool}

/-- The backoff is never below the shortest one. -/
theorem PolicyEffect.backoff (effect : PolicyEffect policy call rebuilds next)
    (enough : rebuildBackoffMin ≤ policy.backoff) : rebuildBackoffMin ≤ next.backoff := by
  cases effect with
  | answered answers =>
      simp only [RecoveryPolicy.proven]
      split
      · exact le_refl _
      · exact enough
  | counted held => exact enough
  | heldBack opened => exact enough
  | rebuilt fails completes closed least => exact least enough

theorem backoff_afterCalls (history : List PolicyCall) :
    rebuildBackoffMin ≤ (afterCalls history).backoff := by
  apply finalState_invariant (motive := fun policy : RecoveryPolicy =>
    rebuildBackoffMin ≤ policy.backoff) (le_refl _)
  intro entry _ enough
  exact (policy_effect entry.1 entry.2).backoff enough

/-! ### After a proof of the credential -/

/-- A proof leaves no window for authentication failures where the command was authenticated, or where
    there was none. -/
theorem authArmed_proven (unarmed : authenticated = true ∨ policy.authArmed = false) :
    (policy.proven authenticated).authArmed = false := by
  simp only [RecoveryPolicy.proven, authArmed] at unarmed ⊢
  cases pending : policy.pending with
  | none => rfl
  | some window =>
      obtain ⟨kind, until_⟩ := window
      rw [pending] at unarmed
      cases kind with
      | transport => rfl
      | verdict => cases authenticated <;> rfl
      | auth =>
          rcases unarmed with rfl | armed
          · rfl
          · cases armed

/-- An authenticated answer leaves no window for authentication failures. -/
theorem authArmed_of_proves (proves : call.proves = true) :
    (policyStep policy call).authArmed = false := by
  cases call with
  | success authenticated => exact authArmed_proven (Or.inl proves)
  | failure kind authenticated now =>
      obtain ⟨rfl, proves⟩ : kind = .verdict ∧ authenticated = true := by
        simpa [PolicyCall.proves] using proves
      exact authArmed_proven (Or.inl proves)

/-- Only an authentication failure arms a window for one. -/
theorem PolicyEffect.authArmed (effect : PolicyEffect policy call rebuilds next)
    (unarmed : policy.authArmed = false) (other : call.isAuthFailure = false) :
    next.authArmed = false := by
  cases effect with
  | answered answers => exact authArmed_proven (Or.inr unarmed)
  | counted held => exact unarmed
  | heldBack opened => exact unarmed
  | @rebuilt kind authenticated now wait fails completes closed least =>
      cases kind with
      | auth => cases other
      | transport => rfl
      | verdict => rfl

theorem authArmed_run {calls : List PolicyCall} (unarmed : policy.authArmed = false)
    (others : ∀ call ∈ calls, call.isAuthFailure = false) :
    (finalState policyStep policy calls).authArmed = false := by
  apply finalState_invariant (motive := fun policy : RecoveryPolicy => policy.authArmed = false) unarmed
  intro entry member unarmed
  exact (policy_effect entry.1 entry.2).authArmed unarmed (others entry.2 (snd_mem_of_mem_trace member))

/-- Without a window for one an authentication failure rebuilds. -/
theorem rebuilds_of_not_authArmed (unarmed : policy.authArmed = false) :
    PolicyCall.rebuilds policy (.failure .auth authenticated now) = true := by
  rw [PolicyCall.rebuilds, onFailure_auth, authWindowOpen]
  rw [authArmed] at unarmed
  cases pending : policy.pending with
  | none => rfl
  | some window =>
      obtain ⟨kind, until_⟩ := window
      cases kind with
      | auth =>
          rw [pending] at unarmed
          cases unarmed
      | transport => rfl
      | verdict => rfl

/-- After an authenticated answer and calls that are no authentication failures, the next one rebuilds. -/
theorem auth_failure_after_proof_rebuilds (before : List PolicyCall) {answer : PolicyCall}
    (proves : answer.proves = true) {calls : List PolicyCall}
    (others : ∀ call ∈ calls, call.isAuthFailure = false) (authenticated : Bool) (now : Instant) :
    PolicyCall.rebuilds (afterCalls (before ++ answer :: calls)) (.failure .auth authenticated now) =
      true := by
  apply rebuilds_of_not_authArmed
  rw [afterCalls_append, finalState_cons]
  exact authArmed_run (authArmed_of_proves proves) others

/-- A rebuild at boot, a verdict with the credential, a rebuild for a run of timeouts: the lost session
    a second later rebuilds. -/
theorem boot_window_proved_away :
    PolicyCall.rebuilds
      (afterCalls ([.failure .auth true 0] ++ .failure .verdict true 0 ::
        List.replicate 5 (.failure .transport false 0)))
      (.failure .auth true (Duration.fromSecs 1)) = true :=
  auth_failure_after_proof_rebuilds [.failure .auth true 0] rfl (by decide) true (Duration.fromSecs 1)

/-! ### Between two rebuilds -/

variable {calls : List PolicyCall}

/-- While the window is open a call that does not prove the credential keeps it, with the run counted, or
    completes a run that is long enough and takes it. -/
theorem PolicyEffect.window (effect : PolicyEffect policy call rebuilds next)
    (pending : policy.pending = some (.auth, until_))
    (counted : policy.transportFailures = unanswered calls)
    (short : unanswered calls < transportFailuresBeforeRebuild)
    (early : ∀ now, call.time? = some now → now < until_) (unproven : call.proves = false) :
    (unanswered (calls ++ [call]) < transportFailuresBeforeRebuild ∧
      next.pending = some (.auth, until_) ∧ next.transportFailures = unanswered (calls ++ [call])) ∨
    (transportFailuresBeforeRebuild ≤ unanswered (calls ++ [call]) ∧ next.authArmed = false) := by
  rw [unanswered_snoc]
  cases effect with
  | answered answers =>
      have kept : (policy.proven false).pending = some (.auth, until_) := by
        rw [RecoveryPolicy.proven, pending]
        rfl
      rw [if_pos answers, unproven]
      exact Or.inl ⟨by decide, kept, rfl⟩
  | @counted authenticated now held =>
      have closed : policy.windowOpen .transport now = false := by simp [windowOpen, pending]
      rw [closed, counted] at held
      rcases held with fits | opened
      · exact Or.inl ⟨fits, pending, congrArg (· + 1) counted⟩
      · cases opened
  | heldBack opened => exact Or.inl ⟨short, pending, counted⟩
  | @rebuilt kind authenticated now wait fails completes closed least =>
      cases kind with
      | auth =>
          rw [windowOpen_of_pending pending (early now rfl)] at closed
          cases closed
      | transport =>
          rw [counted] at completes
          exact Or.inr ⟨completes rfl, rfl⟩
      | verdict => exact absurd rfl fails

/-- A rebuild for an authentication failure arms a window with nothing counted. -/
theorem PolicyEffect.auth_rebuild
    (effect : PolicyEffect policy (.failure .auth authenticated now) true next)
    (enough : rebuildBackoffMin ≤ policy.backoff) :
    ∃ wait, rebuildBackoffMin ≤ wait ∧ next.pending = some (.auth, now + wait) ∧
      next.transportFailures = 0 := by
  cases effect with
  | @rebuilt kind authenticated now wait fails completes closed least =>
      exact ⟨wait, least enough, rfl, rfl⟩

/-- From an armed window with nothing counted: as long as no run of transport failures is long enough the
    window stays, and after the first one that is there was a moment without it. -/
theorem window_run (pending : policy.pending = some (.auth, until_))
    (uncounted : policy.transportFailures = 0)
    (early : ∀ call ∈ calls, ∀ now, call.time? = some now → now < until_)
    (unproven : ∀ call ∈ calls, call.proves = false) :
    ((∀ run, run <+: calls → unanswered run < transportFailuresBeforeRebuild) ∧
      (finalState policyStep policy calls).pending = some (.auth, until_) ∧
      (finalState policyStep policy calls).transportFailures = unanswered calls) ∨
    ((∃ run, run <+: calls ∧ transportFailuresBeforeRebuild ≤ unanswered run) ∧
      ∃ run, run <+: calls ∧ (finalState policyStep policy run).authArmed = false) := by
  induction calls using List.reverseRecOn with
  | nil =>
      refine Or.inl ⟨fun run inside => ?_, pending, uncounted⟩
      rw [List.prefix_nil.1 inside]
      decide
  | append_singleton calls call ih =>
      rw [List.forall_mem_append, List.forall_mem_singleton] at early unproven
      have last : finalState policyStep policy (calls ++ [call]) =
          policyStep (finalState policyStep policy calls) call := by
        rw [finalState_append, finalState_cons, finalState_nil]
      have longer : ∀ run, run <+: calls → run <+: calls ++ [call] :=
        fun run inside => inside.trans (List.prefix_append ..)
      rcases ih early.1 unproven.1 with ⟨short, held, counted⟩ | ⟨⟨run, ran, long⟩, gap, gone, unarmed⟩
      · rw [last]
        rcases (policy_effect _ call).window held counted (short calls (List.prefix_refl calls)) early.2
          unproven.2 with ⟨fits, kept⟩ | ⟨long, unarmed⟩
        · refine Or.inl ⟨fun run inside => ?_, kept⟩
          rcases List.prefix_concat_iff.1 inside with rfl | inside
          · exact fits
          · exact short run inside
        · have whole := List.prefix_refl (calls ++ [call])
          exact Or.inr ⟨⟨_, whole, long⟩, _, whole, last ▸ unarmed⟩
      · exact Or.inr ⟨⟨run, longer run ran, long⟩, gap, longer gap gone, unarmed⟩

/-- Without a window the first authentication failure rebuilds, the one after these calls at the latest. -/
theorem first_auth_rebuilds (unarmed : policy.authArmed = false) (failure : AuthFailure) :
    ∃ early next rest, calls ++ [failure.call] = early ++ AuthFailure.call next :: rest ∧
      early <+: calls ∧ (next.call ∈ calls ∨ next = failure) ∧
      next.call.rebuilds (finalState policyStep policy early) = true := by
  induction calls generalizing policy with
  | nil =>
      have rebuilds : failure.call.rebuilds policy = true := rebuilds_of_not_authArmed unarmed
      exact ⟨[], failure, [], rfl, List.prefix_refl [], Or.inr rfl, rebuilds⟩
  | cons call calls ih =>
      cases auth : call.isAuthFailure with
      | true =>
          cases call with
          | success authenticated => cases auth
          | failure kind authenticated now =>
              obtain rfl : kind = .auth := by simpa [PolicyCall.isAuthFailure] using auth
              have rebuilds : (AuthFailure.call ⟨authenticated, now⟩).rebuilds policy = true :=
                rebuilds_of_not_authArmed unarmed
              exact ⟨[], ⟨authenticated, now⟩, calls ++ [failure.call], rfl, List.nil_prefix,
                Or.inl List.mem_cons_self, rebuilds⟩
      | false =>
          obtain ⟨early, next, rest, split, inside, listed, rebuilds⟩ :=
            ih ((policy_effect policy call).authArmed unarmed auth)
          refine ⟨call :: early, next, rest, ?_, ?_, ?_, rebuilds⟩
          · rw [List.cons_append, split, List.cons_append]
          · exact List.cons_prefix_cons.2 ⟨rfl, inside⟩
          · exact listed.imp (List.mem_cons_of_mem call) id

namespace AuthPair

variable {history : List PolicyCall} (pair : AuthPair history)

/-- What comes between the two comes no later than the second one. -/
theorem time_le (ordered : InOrder history) :
    ∀ call ∈ pair.between, ∀ now, call.time? = some now → now ≤ pair.second.at_ := by
  intro call member now timed
  unfold InOrder at ordered
  rw [pair.split, List.filterMap_append, List.pairwise_append] at ordered
  obtain ⟨-, ordered, -⟩ := ordered
  have first : pair.first.call.time? = some pair.first.at_ := rfl
  rw [List.filterMap_cons_some first, List.pairwise_cons, List.filterMap_append,
    List.pairwise_append] at ordered
  apply ordered.2.2.2 now (List.mem_filterMap.2 ⟨call, member, timed⟩)
  exact List.mem_filterMap.2 ⟨pair.second.call, List.mem_cons_self, rfl⟩

/-- The first failure finds no open window exactly when it rebuilds. -/
theorem first_rebuilds_iff : pair.first.call.rebuilds (afterCalls pair.before) = true ↔
    (afterCalls pair.before).authWindowOpen pair.first.at_ = false := by
  rw [rebuilds_auth, Bool.not_eq_true']

/-- The calls between two failures of which the first rebuilds, when the second comes within the window. -/
theorem window (ordered : InOrder history)
    (rebuilds : pair.first.call.rebuilds (afterCalls pair.before) = true)
    (close : pair.second.at_ < pair.first.at_ + rebuildBackoffMin) :
    ((∀ run, run <+: pair.between → unanswered run < transportFailuresBeforeRebuild) ∧
      pair.second.call.rebuilds (afterCalls (pair.before ++ pair.first.call :: pair.between)) = false) ∨
    ((∃ run, run <+: pair.between ∧ transportFailuresBeforeRebuild ≤ unanswered run) ∧
      ∃ run, run <+: pair.between ∧
        (afterCalls (pair.before ++ pair.first.call :: run)).authArmed = false) := by
  have effect := policy_effect (afterCalls pair.before) pair.first.call
  rw [rebuilds] at effect
  obtain ⟨wait, least, pending, uncounted⟩ := effect.auth_rebuild (backoff_afterCalls pair.before)
  have within : pair.second.at_ < pair.first.at_ + wait :=
    lt_of_lt_of_le close (Nat.add_le_add_left least _)
  have early : ∀ call ∈ pair.between, ∀ now, call.time? = some now → now < pair.first.at_ + wait :=
    fun call member now timed => lt_of_le_of_lt (pair.time_le ordered call member now timed) within
  simp only [afterCalls_append, finalState_cons]
  rcases window_run pending uncounted early pair.unproven with ⟨short, held, -⟩ | gone
  · refine Or.inl ⟨short, ?_⟩
    rw [rebuilds_auth, authWindowOpen_eq, windowOpen_of_pending held within]
    rfl
  · exact Or.inr gone

end AuthPair

/-- For calls at non-decreasing times, two rebuilds for a refused credential with no authenticated answer
    between them are a window apart exactly when no run of transport failures comes inside a window. -/
theorem spaced_iff {history : List PolicyCall} (ordered : InOrder history) :
    Spaced history ↔ NoRunInWindow history := by
  constructor
  · intro spaced pair unopened close
    have rebuilds := pair.first_rebuilds_iff.2 unopened
    rcases pair.window ordered rebuilds close with ⟨short, -⟩ | ⟨-, gap, ⟨tail, whole⟩, unarmed⟩
    · exact short
    · -- The window was taken: the next authentication failure, the second one at the latest, rebuilds.
      obtain ⟨early, next, rest, split, first, listed, again⟩ :=
        @first_auth_rebuilds _ tail unarmed pair.second
      have inTail : ∀ call ∈ tail, call ∈ pair.between := by
        intro call member
        rw [← whole]
        exact List.mem_append_right gap member
      have inside : ∀ call ∈ gap ++ early, call ∈ pair.between := by
        intro call member
        rcases List.mem_append.1 member with before | later
        · rw [← whole]
          exact List.mem_append_left tail before
        · exact inTail call (first.subset later)
      have soon : next.at_ ≤ pair.second.at_ := by
        rcases listed with member | rfl
        · exact pair.time_le ordered next.call (inTail _ member) next.at_ rfl
        · exact le_refl _
      have calls : history = pair.before ++ pair.first.call :: ((gap ++ early) ++
          next.call :: (rest ++ pair.after)) := by
        calc history
            = pair.before ++ pair.first.call :: (gap ++ (tail ++ [pair.second.call]) ++ pair.after) := by
              conv_lhs => rw [pair.split, ← whole]
              simp
          _ = _ := by rw [split]; simp
      have apart := spaced
        { before := pair.before, first := pair.first, between := gap ++ early, second := next
          after := rest ++ pair.after, split := calls
          unproven := fun call member => pair.unproven call (inside call member) }
        rebuilds (by
          rw [← List.cons_append, ← List.append_assoc, afterCalls_append]
          exact again)
      exact absurd (le_trans apart soon) (not_le.2 close)
  · intro short pair first second
    by_contra apart
    have close := not_le.1 apart
    rcases pair.window ordered first close with ⟨-, held⟩ | ⟨⟨run, inside, long⟩, -⟩
    · rw [held] at second
      cases second
    · have fits := short pair (pair.first_rebuilds_iff.1 first) close run inside
      exact absurd fits (not_lt.2 long)

/-- A refused credential with this many timeouts between its failures, all in ten seconds. -/
def refusedAround (timeouts : Nat) : List PolicyCall :=
  .failure .auth true 0 ::
    (List.replicate timeouts (.failure .transport false (Duration.fromSecs 5)) ++
      [.failure .auth true (Duration.fromSecs 10)])

/-- Four timeouts between two refusals do not rebuild, so the refusals' own window holds. -/
theorem four_timeouts_spaced : Spaced (refusedAround 4) := by
  refine (spaced_iff (by decide)).2 fun pair _ _ run inside => ?_
  have total := congrArg List.length pair.split
  simp only [refusedAround, List.length_cons, List.length_append, List.length_replicate,
    List.length_nil] at total
  have fits := unanswered_le_length run
  have part := inside.length_le
  have enough : transportFailuresBeforeRebuild = 5 := rfl
  omega

/-- The fifth timeout rebuilds, and the credential refused since the first second rebuilds once more. -/
theorem transport_rebuild_reopens_auth :
    InOrder (refusedAround 5) ∧ ¬ Spaced (refusedAround 5) := by
  refine ⟨by decide, fun spaced => ?_⟩
  have apart := spaced
    { before := [], first := ⟨true, 0⟩
      between := List.replicate 5 (.failure .transport false (Duration.fromSecs 5))
      second := ⟨true, Duration.fromSecs 10⟩, after := [], split := rfl, unproven := by decide }
    (by decide) (by decide)
  exact absurd apart (by decide)

end MongoHa
