/-
Module: MongoHa.Proofs.LostSession
Layer: Proofs
Purpose: Callers of `recovering` that all lost the session of one pool generation. In every complete run
  each of them returns its value and the pool is rebuilt once exactly when no caller notes its failure
  while a window armed for an authentication failure is open: the pool's own guard lets the losers of the
  race retry, the policy's window turns them away before they reach it.
Imports: MongoHa.Foundations.Machine, MongoHa.Wrapper.Recovery
Trusted boundary: none (fully proved)
Main exports: LostSession, meetsOpenWindow, healing_step, lost_session_healed_iff,
  second_caller_turned_away
Open obligations: none
-/
import MongoHa.Foundations.Machine
import MongoHa.Wrapper.Recovery

namespace MongoHa

open Foundations

section LostSession

variable {ι α : Type} [DecidableEq ι]

/-- The callers' commands fail with a lost session on the client of generation `g`, and succeed on every
    client built after it. -/
structure LostSession (answer : ι → Nat → Except CommandError α) (g : Nat) (value : ι → α) : Prop where
  lost : ∀ caller, ∃ error, answer caller g = .error error ∧ classify error = .auth
  healed : ∀ caller client, g < client → answer caller client = .ok (value caller)

/-- The callers before any of them took a client. -/
def callersAt (policy : RecoveryPolicy) (g : Nat) : Callers ι α :=
  { policy := policy, generation := g, call := fun _ => .begins }

/-- Whether the entry's caller takes the pooled client. -/
def takesClient (entry : Callers ι α × (ι × Instant)) : Bool :=
  match entry.1.call entry.2.1 with
  | .begins => true
  | _ => false

/-- Whether the entry's caller notes a lost session while a window armed for one is open. -/
def meetsOpenWindow (entry : Callers ι α × (ι × Instant)) : Bool :=
  match entry.1.call entry.2.1 with
  | .failed _ error => classify error == .auth && entry.1.policy.authWindowOpen entry.2.2
  | _ => false

variable {authenticated : ι → Bool} {answer : ι → Nat → Except CommandError α} {g : Nat}
  {value : ι → α} {s : Callers ι α} {event : ι × Instant} {caller : ι}

/-! ### What one event changes -/

/-- Another caller's event leaves a call where it is. -/
theorem call_recoveringStep_of_ne (other : caller ≠ event.1) :
    (recoveringStep authenticated answer s event).call caller = s.call caller :=
  Function.update_of_ne other ..

theorem call_recoveringStep_self :
    (recoveringStep authenticated answer s event).call event.1 =
      (callStep (authenticated event.1) (answer event.1) event.2 s.policy s.generation
        (s.call event.1)).call :=
  Function.update_self ..

/-- The events a call is from its result at most. -/
def Call.remaining : Call α → Nat
  | .begins => 7
  | .running _ => 6
  | .failed _ _ => 5
  | .rebuilding _ _ => 4
  | .retaking => 3
  | .retrying _ => 2
  | .succeeded _ => 1
  | .refused _ => 1
  | .returned _ => 0

theorem remaining_callStep (proves : Bool) (answers : Nat → Except CommandError α) (now : Instant)
    (policy : RecoveryPolicy) (generation : Nat) (call : Call α) :
    (callStep proves answers now policy generation call).call.remaining ≤ call.remaining - 1 := by
  unfold callStep
  cases call with
  | running client => cases said : answers client <;> simp [said, Call.remaining]
  | failed observed error => simp only; split <;> simp [Call.remaining]
  | rebuilding observed error => simp only; split <;> simp [Call.remaining]
  | retrying client => cases said : answers client <;> simp [said, Call.remaining]
  | _ => simp [Call.remaining]

theorem remaining_finalState (schedule : List (ι × Instant)) :
    ((finalState (recoveringStep authenticated answer) s schedule).call caller).remaining ≤
      (s.call caller).remaining - schedule.countP (fun event => event.1 = caller) := by
  induction schedule generalizing s with
  | nil => simp
  | cons event rest ih =>
      have after := @ih (recoveringStep authenticated answer s event)
      rw [finalState_cons, List.countP_cons]
      by_cases own : event.1 = caller
      · subst own
        have moved := remaining_callStep (authenticated event.1) (answer event.1) event.2 s.policy
          s.generation (s.call event.1)
        rw [call_recoveringStep_self] at after
        simp only [decide_true, ↓reduceIte]
        omega
      · rw [call_recoveringStep_of_ne (Ne.symm own)] at after
        simpa [own] using after

variable (authenticated answer) in
/-- Seven events of its own bring a call to its result, whatever comes between them. -/
theorem returned_of_scheduled {schedule : List (ι × Instant)}
    (scheduled : 7 ≤ schedule.countP fun event => event.1 = caller) :
    ∃ result, (finalState (recoveringStep authenticated answer) s schedule).call caller =
      .returned result := by
  have left := @remaining_finalState _ _ _ authenticated answer s caller schedule
  have most : (s.call caller).remaining ≤ 7 := by cases s.call caller <;> simp [Call.remaining]
  have spent : ((finalState (recoveringStep authenticated answer) s schedule).call caller).remaining =
      0 := by omega
  cases at_ : (finalState (recoveringStep authenticated answer) s schedule).call caller with
  | returned result => exact ⟨result, rfl⟩
  | _ =>
      rw [at_] at spent
      cases spent

variable (authenticated answer) in
/-- A call that returned has no further event. -/
theorem returned_kept (schedule : List (ι × Instant)) {result : Except CommandError α}
    (returned : s.call caller = .returned result) :
    (finalState (recoveringStep authenticated answer) s schedule).call caller = .returned result := by
  apply finalState_invariant (motive := fun s : Callers ι α => s.call caller = .returned result) returned
  intro entry _ returned
  by_cases own : caller = entry.2.1
  · subst own
    rw [call_recoveringStep_self, returned]
    rfl
  · rw [call_recoveringStep_of_ne own, returned]

/-! ### Healing -/

/-- Where a call that heals can be, with the pool at this generation: nothing after its rebuild happens
    before the generation is past `g`, and it never returns an error. -/
def CallHeals (g generation : Nat) (value : α) : Call α → Prop
  | .begins => True
  | .running client => client = g
  | .failed observed error => observed = g ∧ classify error = .auth
  | .rebuilding observed error => observed = g ∧ classify error = .auth
  | .retaking => generation = g + 1
  | .retrying client => client = g + 1 ∧ generation = g + 1
  | .succeeded result => result = value ∧ generation = g + 1
  | .refused _ => False
  | .returned (.ok result) => result = value ∧ generation = g + 1
  | .returned (.error _) => False

/-- While a lost session heals, the generation is the lost one or the next, and every call is on its way
    to its own value. -/
structure Heals (g : Nat) (value : ι → α) (s : Callers ι α) : Prop where
  generation : s.generation = g ∨ s.generation = g + 1
  calls : ∀ caller, CallHeals g s.generation (value caller) (s.call caller)

/-- A rebuild by another caller takes no call back. -/
theorem CallHeals.advance {generation : Nat} {result : α} {call : Call α}
    (heals : CallHeals g generation result call) : CallHeals g (rebuild generation g) result call := by
  have past : generation = g + 1 → rebuild generation g = g + 1 := by
    rintro rfl
    simp [rebuild]
  cases call with
  | begins => trivial
  | running client => exact heals
  | failed observed error => exact heals
  | rebuilding observed error => exact heals
  | retaking => exact past heals
  | retrying client => exact ⟨heals.1, past heals.2⟩
  | succeeded result => exact ⟨heals.1, past heals.2⟩
  | refused error => exact heals
  | returned result =>
      cases result with
      | ok result => exact ⟨heals.1, past heals.2⟩
      | error error => exact heals

theorem rebuild_heals {generation : Nat} (range : generation = g ∨ generation = g + 1) :
    rebuild generation g = g + 1 := by
  rcases range with rfl | rfl <;> simp [rebuild]

/-- The next event of a call that heals, when the pool is still at `g` if it only begins and no window
    is open if it notes its failure. -/
theorem callStep_heals (proves : Bool) {answers : Nat → Except CommandError α} {now : Instant}
    {policy : RecoveryPolicy} {generation : Nat} {result : α} {call : Call α}
    (lost : ∃ error, answers g = .error error ∧ classify error = .auth)
    (healed : ∀ client, g < client → answers client = .ok result)
    (range : generation = g ∨ generation = g + 1) (took : call = .begins → generation = g)
    (unmet : ∀ observed error, call = .failed observed error → policy.authWindowOpen now = false)
    (heals : CallHeals g generation result call) :
    let moved := callStep proves answers now policy generation call
    (moved.generation = generation ∨ moved.generation = rebuild generation g) ∧
      CallHeals g moved.generation result moved.call := by
  cases call with
  | begins => exact ⟨Or.inl rfl, took rfl⟩
  | running client =>
      obtain rfl : client = g := heals
      obtain ⟨error, said, auth⟩ := lost
      simp only [callStep, said]
      exact ⟨Or.inl trivial, rfl, auth⟩
  | failed observed error =>
      obtain ⟨rfl, auth⟩ : observed = g ∧ classify error = .auth := heals
      have rebuilds : (policy.onFailure (classify error) proves now).2 = true := by
        rw [auth, RecoveryPolicy.onFailure_auth, unmet _ _ rfl]
        rfl
      simp only [callStep, rebuilds]
      exact ⟨Or.inl trivial, rfl, auth⟩
  | rebuilding observed error =>
      obtain ⟨rfl, auth⟩ : observed = g ∧ classify error = .auth := heals
      simp only [callStep, auth]
      exact ⟨Or.inr trivial, rebuild_heals range⟩
  | retaking =>
      obtain rfl : generation = g + 1 := heals
      exact ⟨Or.inl rfl, rfl, rfl⟩
  | retrying client =>
      obtain ⟨rfl, past⟩ : client = g + 1 ∧ generation = g + 1 := heals
      simp only [callStep, healed (g + 1) (Nat.lt_succ_self g)]
      exact ⟨Or.inl trivial, rfl, past⟩
  | succeeded value => exact ⟨Or.inl rfl, heals⟩
  | refused error => exact heals.elim
  | returned value => exact ⟨Or.inl rfl, heals⟩

/-- A step outside an open window goes on healing the session. -/
theorem healing_step (session : LostSession answer g value) (heals : Heals g value s)
    (took : takesClient (s, event) = true → s.generation = g)
    (unmet : meetsOpenWindow (s, event) = false) :
    Heals g value (recoveringStep authenticated answer s event) := by
  have unopened : ∀ observed error, s.call event.1 = .failed observed error →
      s.policy.authWindowOpen event.2 = false := by
    intro observed error failed
    have auth : classify error = .auth := by
      have at_ := heals.calls event.1
      rw [failed] at at_
      exact at_.2
    simpa [meetsOpenWindow, failed, auth] using unmet
  have atFirst : s.call event.1 = .begins → s.generation = g := fun begins =>
    took (by simp [takesClient, begins])
  obtain ⟨generation, own⟩ := callStep_heals (authenticated event.1) (session.lost event.1)
    (session.healed event.1) heals.generation atFirst unopened (heals.calls event.1)
  -- The pool moves on by this caller's rebuild or not at all.
  have generation : (recoveringStep authenticated answer s event).generation = s.generation ∨
      (recoveringStep authenticated answer s event).generation = rebuild s.generation g := generation
  constructor
  · rcases generation with same | rebuilt
    · rw [same]
      exact heals.generation
    · exact Or.inr (rebuilt.trans (rebuild_heals heals.generation))
  · intro caller
    by_cases self : caller = event.1
    · subst self
      rw [call_recoveringStep_self]
      exact own
    · rw [call_recoveringStep_of_ne self]
      rcases generation with same | rebuilt
      · rw [same]
        exact heals.calls caller
      · rw [rebuilt]
        exact (heals.calls caller).advance

theorem healing_run (session : LostSession answer g value) {schedule : List (ι × Instant)}
    (heals : Heals g value s)
    (took : ∀ entry ∈ trace (recoveringStep authenticated answer) s schedule,
      takesClient entry = true → entry.1.generation = g)
    (unmet : ∀ entry ∈ trace (recoveringStep authenticated answer) s schedule,
      meetsOpenWindow entry = false) :
    Heals g value (finalState (recoveringStep authenticated answer) s schedule) := by
  apply finalState_invariant heals
  intro entry member heals
  exact healing_step session heals (took entry member) (unmet entry member)

/-! ### Being turned away -/

variable (authenticated answer) in
/-- A caller that meets an open window returns its error. -/
theorem turned_away (meets : meetsOpenWindow (s, event) = true) :
    ∃ error, (recoveringStep authenticated answer s event).call event.1 =
      .returned (.error error) := by
  unfold meetsOpenWindow at meets
  split at meets
  · rename_i observed error failed
    obtain ⟨auth, opened⟩ : classify error = .auth ∧ s.policy.authWindowOpen event.2 = true := by
      simpa using meets
    refine ⟨error, ?_⟩
    have held : (s.policy.onFailure (classify error) (authenticated event.1) event.2).2 = false := by
      rw [auth, RecoveryPolicy.onFailure_auth, opened]
      rfl
    rw [call_recoveringStep_self]
    simp only at failed
    simp [failed, callStep, held]
  · cases meets

/-- In every run that gives each caller its events, every caller returns its value and the generation
    advances once exactly when no caller notes its failure while a window armed for one is open. -/
theorem lost_session_healed_iff [Nonempty ι] (session : LostSession answer g value)
    (policy : RecoveryPolicy) {schedule : List (ι × Instant)}
    (scheduled : ∀ caller, 7 ≤ schedule.countP fun event => event.1 = caller)
    (took : ∀ entry ∈ trace (recoveringStep authenticated answer) (callersAt policy g) schedule,
      takesClient entry = true → entry.1.generation = g) :
    let final := finalState (recoveringStep authenticated answer) (callersAt policy g) schedule
    ((∀ caller, final.call caller = .returned (.ok (value caller))) ∧ final.generation = g + 1) ↔
      ∀ entry ∈ trace (recoveringStep authenticated answer) (callersAt policy g) schedule,
        meetsOpenWindow entry = false := by
  intro final
  constructor
  · rintro ⟨healed, -⟩ entry member
    by_contra window
    have meets : meetsOpenWindow entry = true := by simpa using window
    obtain ⟨before, after, split, reached⟩ := mem_trace_iff.1 member
    obtain ⟨error, away⟩ := turned_away authenticated answer meets
    have kept := returned_kept authenticated answer after away
    have ended := healed entry.2.1
    simp only [final, split, finalState_append, finalState_cons, ← reached, kept] at ended
    cases ended
  · intro unmet
    have start : Heals g value (callersAt policy g) := ⟨Or.inl rfl, fun _ => trivial⟩
    have heals := healing_run session start took unmet
    have healed : ∀ caller, final.call caller = .returned (.ok (value caller)) ∧
        final.generation = g + 1 := by
      intro caller
      obtain ⟨result, returned⟩ := @returned_of_scheduled _ _ _ authenticated answer
        (callersAt policy g) caller schedule (scheduled caller)
      have at_ := heals.calls caller
      rw [returned] at at_
      cases result with
      | ok result =>
          obtain ⟨rfl, past⟩ := at_
          exact ⟨returned, past⟩
      | error error => exact at_.elim
    exact ⟨fun caller => (healed caller).1, (healed (Classical.arbitrary ι)).2⟩

end LostSession

/-! ### Two callers -/

/-- A member whose session of generation 0 was logged out by the initial sync. -/
def loggedOut (_ : Bool) (client : Nat) : Except CommandError Unit :=
  if client = 0 then .error (.command Codes.unauthorized) else .ok ()

theorem loggedOut_session : LostSession loggedOut 0 fun _ => () where
  lost _ := ⟨.command Codes.unauthorized, rfl, rfl⟩
  healed _ _ later := if_neg (Nat.ne_of_gt later)

/-- Both take the client; the second runs its command when the first one has returned. -/
def inTurn : List (Bool × Instant) :=
  [(false, 0), (true, 0)] ++ List.replicate 6 (false, 0) ++ List.replicate 6 (true, 1)

/-- Two callers one after the other: the second finds the rebuilt client. -/
theorem lost_session_healed_in_turn :
    let final := finalState (recoveringStep (fun _ => true) loggedOut) (callersAt .new 0) inTurn
    (∀ caller, final.call caller = .returned (.ok ())) ∧ final.generation = 1 :=
  (lost_session_healed_iff loggedOut_session .new (by decide) (by decide)).2 (by decide)

/-- Both take the client and both commands fail before either failure is noted. -/
def raced : List (Bool × Instant) :=
  [(false, 0), (true, 0), (false, 0), (true, 0), (false, 0), (true, 1)] ++
    List.replicate 7 (false, 2) ++ List.replicate 7 (true, 2)

/-- The second of two callers whose session was lost is turned away by the window the first one armed. -/
theorem second_caller_turned_away :
    LostSession loggedOut 0 (fun _ => ()) ∧
      (∀ entry ∈ trace (recoveringStep (fun _ => true) loggedOut) (callersAt .new 0) raced,
        takesClient entry = true → entry.1.generation = 0) ∧
      (finalState (recoveringStep (fun _ => true) loggedOut) (callersAt .new 0) raced).call true =
        .returned (.error (.command Codes.unauthorized)) :=
  ⟨loggedOut_session, by decide, rfl⟩

end MongoHa
