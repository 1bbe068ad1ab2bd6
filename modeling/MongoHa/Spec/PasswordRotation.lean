/-
Module: MongoHa.Spec.PasswordRotation
Layer: Spec
Purpose: What a member can authenticate with while the stored password is rotated and rotated back, without
  tasks, files or requests. A member tries three passwords: its pinned one, the one of the rotation under
  way and the one of its environment. As long as every change keeps to `Step`, these cover whatever the
  member enforces and has still to replicate.
Imports: Mathlib.Logic.Function.Basic, MongoHa.Foundations.Machine, MongoHa.Foundations.Replication
Trusted boundary: human-reviewed spec
Main exports: Tried, Tried.Has, Rotating, target, Step, rotating, Covering, covering_step,
  tried_of_reachable
Open obligations: none
-/
import Mathlib.Logic.Function.Basic
import MongoHa.Foundations.Machine
import MongoHa.Foundations.Replication

namespace MongoHa.Spec

open Foundations

/-- The passwords a member tries by itself. -/
structure Tried (α : Type*) where
  pin : Option α
  pending : Option α
  env : α

namespace Tried

variable {α : Type*} (tried : Tried α) (v : α)

/-- Tried even if the pin changes. -/
def Covers : Prop := tried.pending = some v ∨ tried.env = v

/-- The pin is this password, or it is tried anyway. -/
def Has : Prop := tried.pin = some v ∨ tried.Covers v

end Tried

/-- The stored password, what every member tries and whether the rotation under way reached it, and
    whether that is the one back. -/
structure Rotating (ι α : Type*) where
  user : Replication ι α
  tried : ι → Tried α
  prepared : ι → Bool
  back : Bool

section

variable {ι α : Type*} (first second : α)

/-- The password the rotation under way leads to. -/
def target (back : Bool) : α := if back then first else second

variable [DecidableEq ι]

def Rotating.setTried (s : Rotating ι α) (member : ι) (tried : Tried α) : Rotating ι α :=
  { s with tried := Function.update s.tried member tried }

/-- One step of a rotation as the passwords see it. -/
inductive Step : Rotating ι α → Rotating ι α → Prop where
  /-- A password that worked on the member becomes its pin: the one it enforces, unless it tries that one
      anyway. -/
  | pins {s : Rotating ι α} {member : ι} {p : α} (worked : s.user.Applied member p)
      (current : ∀ v, s.user.value member = some v → v = p ∨ (s.tried member).Covers v) :
      Step s (s.setTried member { s.tried member with pin := some p })
  /-- The rotation reaches a member. The one back may replace what the member would follow only if it
      tries the password it comes from anyway, or never gets it. -/
  | prepares {s : Rotating ι α} {member : ι}
      (safe : s.back = true → (s.tried member).pin = some second ∨ (s.tried member).env = second ∨
        s.user.Awaits member (· = first)) :
      Step s
        { s.setTried member { s.tried member with pending := some (target first second s.back) } with
          prepared := Function.update s.prepared member true }
  /-- The rotation is over for a member that has nothing else left to replicate. -/
  | removes {s : Rotating ι α} {member : ι}
      (settled : s.user.Awaits member (· = target first second s.back))
      (held : (s.tried member).pin = some (target first second s.back) ∨
        (s.tried member).env = target first second s.back) :
      Step s (s.setTried member { s.tried member with pending := none })
  | edits {s : Rotating ι α} {member : ι} {env : α}
      (covered : s.user.Awaits member fun v =>
        (s.tried member).pin = some v ∨ (s.tried member).pending = some v) :
      Step s (s.setTried member { s.tried member with env := env })
  | writes {s : Rotating ι α} {user : Replication ι α} (all : ∀ member, s.prepared member = true)
      (wrote : user = s.user.write (target first second s.back) ∨
        user = s.user.acknowledge (target first second s.back)) :
      Step s { s with user := user }
  | replicates {s : Rotating ι α} {user : Replication ι α} (moves : s.user.Moves user)
      (lossless : user.history = s.user.history) : Step s { s with user := user }
  | turns {s : Rotating ι α} (forward : s.back = false) :
      Step s { s with back := true, prepared := fun _ => false }

/-- Rotations from members that all hold and are pinned with the first password. -/
def rotating : System (Rotating ι α) where
  init s := s.back = false ∧ (∀ member, s.prepared member = false) ∧
    (∀ v ∈ s.user.history, v = first) ∧ ∀ member, (s.tried member).pin = some first
  step := Step first second

/-- The stored password changes once, and once more on the way back; who was prepared follows its target
    or is past it; and what a member tries covers all it has still to get. -/
structure Covering (s : Rotating ι α) : Prop where
  among : ∀ v ∈ s.user.history, v = first ∨ v = second
  once : (s.back = false ∨ ∃ member, s.prepared member = false) → ∀ k k' : Nat, k ≤ k' →
    s.user.history[k]? = some second → ∀ v, s.user.history[k']? = some v → v = second
  twice : ∀ k k' k'' : Nat, k ≤ k' → k' ≤ k'' → s.user.history[k]? = some second →
    s.user.history[k']? = some first → ∀ v, s.user.history[k'']? = some v → v = first
  pinned : ∀ member, ∃ p, (s.tried member).pin = some p ∧ s.user.Applied member p
  awaits : ∀ member, s.user.Awaits member (s.tried member).Has
  ready : ∀ member, s.prepared member = true →
    (s.tried member).pending = some (target first second s.back) ∨
      (s.user.Awaits member (· = target first second s.back) ∧
        ((s.tried member).pin = some (target first second s.back) ∨
          (s.tried member).env = target first second s.back))

end

section Covering

variable {ι α : Type*} {first second : α} {s t : Rotating ι α} {member : ι}

theorem target_cases (back : Bool) : target first second back = first ∨
    target first second back = second := by
  cases back with
  | true => exact Or.inl rfl
  | false => exact Or.inr rfl

theorem covering_start (unprepared : ∀ member, s.prepared member = false)
    (only : ∀ v ∈ s.user.history, v = first) (pinned : ∀ member, (s.tried member).pin = some first) :
    Covering first second s := by
  have written : ∀ {k v}, s.user.history[k]? = some v → v = first :=
    fun found => only _ (List.mem_of_getElem? found)
  constructor
  · exact fun v member => Or.inl (only v member)
  · intro _ k k' _ earlier v later
    rw [written later, written earlier]
  · exact fun k k' k'' _ _ _ _ v later => written later
  · intro member
    refine ⟨first, pinned member, ?_⟩
    obtain ⟨v, holds⟩ := Replication.exists_value s.user member
    rw [← written holds]
    exact .of_value holds
  · intro member k v _ found
    rw [written found]
    exact Or.inl (pinned member)
  · intro member prepared
    rw [unprepared] at prepared
    cases prepared

/-- A member has a password to get that is its pin and differs from the one it enforces: it is the first
    one, and the rotation back is prepared everywhere. -/
theorem regained (holds : Covering first second s) {p v : α} {k : Nat}
    (pinned : (s.tried member).pin = some v) (current : s.user.value member = some p)
    (later : s.user.applied member ≤ k) (found : s.user.history[k]? = some v) (differs : v ≠ p) :
    v = first ∧ s.back = true ∧ ∀ other, s.prepared other = true := by
  obtain ⟨q, same, k', early, earlier⟩ := holds.pinned member
  obtain rfl := Option.some.inj (same.symm.trans pinned)
  have known := holds.among p (List.mem_of_getElem? current)
  rcases holds.among q (List.mem_of_getElem? found) with rfl | rfl
  · obtain rfl := known.resolve_left (Ne.symm differs)
    by_contra other
    have goes : s.back = false ∨ ∃ other, s.prepared other = false := by
      by_contra none_
      simp only [not_or, not_exists, Bool.not_eq_false] at none_
      exact other ⟨rfl, none_.1, none_.2⟩
    exact differs (holds.once goes _ k later current q found)
  · obtain rfl := known.resolve_right (Ne.symm differs)
    exact absurd (holds.twice k' _ k early later earlier current q found) differs

/-- A history with more of the target behind it, once every member is prepared. -/
theorem Covering.extends (holds : Covering first second s) {user : Replication ι α}
    (more : s.user.Extends user) (all : ∀ member, s.prepared member = true)
    (added : ∀ (k : Nat) (v : α), user.history[k]? = some v → s.user.history[k]? = some v ∨
      (k = s.user.history.length ∧ v = target first second s.back)) :
    Covering first second { s with user := user } := by
  have before : ∀ {k : Nat} {v w : α}, user.history[k]? = some v → s.user.history[k]? = some w →
      v = w := by
    intro k v w found known
    exact Option.some.inj (found.symm.trans (more.kept k w known))
  have inside : ∀ {k : Nat} {v : α}, s.user.history[k]? = some v → k < s.user.history.length :=
    fun found => (List.getElem?_eq_some_iff.1 found).1
  constructor
  · intro v member
    obtain ⟨k, found⟩ := List.getElem?_of_mem member
    rcases added k v found with known | ⟨-, rfl⟩
    · exact holds.among v (List.mem_of_getElem? known)
    · exact target_cases s.back
  · intro goes k k' order earlier v later
    have forward : s.back = false := by
      rcases goes with forward | ⟨other, unprepared⟩
      · exact forward
      · rw [show s.prepared other = true from all other] at unprepared
        cases unprepared
    rcases added k' v later with known | ⟨last, rfl⟩
    · rcases added k second earlier with early | ⟨last, -⟩
      · exact holds.once (Or.inl forward) k k' order early v known
      · have bound := inside known
        omega
    · rw [forward]
      rfl
  · intro k k' k'' order order' earlier between v later
    rcases added k'' v later with known | ⟨last, rfl⟩
    · have bound := inside known
      rcases added k second earlier with early | ⟨last, -⟩
      · rcases added k' first between with middle | ⟨last, -⟩
        · exact holds.twice k k' k'' order order' early middle v known
        · omega
      · omega
    · cases direction : s.back with
      | true => rfl
      | false =>
          rcases added k' first between with middle | ⟨last, same⟩
          · rcases added k second earlier with early | ⟨last, -⟩
            · exact (holds.once (Or.inl direction) k k' order early first middle).symm
            · have bound := inside middle
              omega
          · rw [direction] at same
            exact same.symm
  · intro member
    obtain ⟨p, pinned, applied⟩ := holds.pinned member
    exact ⟨p, pinned, applied.extends more⟩
  · intro member
    refine (holds.awaits member).extends more fun k v found => ?_
    rcases added k v found with known | ⟨-, rfl⟩
    · exact Or.inl known
    · right
      rcases holds.ready member (all member) with pending | ⟨-, pinned | env⟩
      · exact Or.inr (Or.inl pending)
      · exact Or.inl pinned
      · exact Or.inr (Or.inr env)
  · intro member prepared
    rcases holds.ready member prepared with pending | ⟨settled, held⟩
    · exact Or.inl pending
    · refine Or.inr ⟨settled.extends more fun k v found => ?_, held⟩
      rcases added k v found with known | ⟨-, same⟩
      · exact Or.inl known
      · exact Or.inr same

theorem Covering.replicates (holds : Covering first second s) {user : Replication ι α}
    (more : s.user.Extends user) (lossless : user.history = s.user.history) :
    Covering first second { s with user := user } := by
  have same : ∀ {k : Nat} {v : α}, user.history[k]? = some v → s.user.history[k]? = some v := by
    intro k v found
    rwa [lossless] at found
  constructor
  · intro v member
    rw [lossless] at member
    exact holds.among v member
  · exact fun goes k k' order earlier v later => holds.once goes k k' order (same earlier) v (same later)
  · exact fun k k' k'' order order' earlier between v later =>
      holds.twice k k' k'' order order' (same earlier) (same between) v (same later)
  · intro member
    obtain ⟨p, pinned, applied⟩ := holds.pinned member
    exact ⟨p, pinned, applied.extends more⟩
  · exact fun member => (holds.awaits member).extends more fun k v found => Or.inl (same found)
  · intro member prepared
    rcases holds.ready member prepared with pending | ⟨settled, held⟩
    · exact Or.inl pending
    · exact Or.inr ⟨settled.extends more fun k v found => Or.inl (same found), held⟩

variable [DecidableEq ι]

/-- Other members try what they tried. -/
theorem Covering.setTried (holds : Covering first second s) {tried : Tried α}
    (pinned : ∃ p, tried.pin = some p ∧ s.user.Applied member p)
    (awaits : s.user.Awaits member tried.Has)
    (ready : s.prepared member = true → tried.pending = some (target first second s.back) ∨
      (s.user.Awaits member (· = target first second s.back) ∧
        (tried.pin = some (target first second s.back) ∨ tried.env = target first second s.back))) :
    Covering first second (s.setTried member tried) := by
  refine ⟨holds.among, holds.once, holds.twice, fun other => ?_, fun other => ?_, fun other => ?_⟩
  · by_cases same : other = member
    · subst same
      simpa [Rotating.setTried] using pinned
    · simpa [Rotating.setTried, Function.update_of_ne same] using holds.pinned other
  · by_cases same : other = member
    · subst same
      simpa [Rotating.setTried] using awaits
    · simpa [Rotating.setTried, Function.update_of_ne same] using holds.awaits other
  · by_cases same : other = member
    · subst same
      simpa [Rotating.setTried] using ready
    · simpa [Rotating.setTried, Function.update_of_ne same] using holds.ready other

theorem covering_pins (holds : Covering first second s) {p : α} (worked : s.user.Applied member p)
    (current : ∀ v, s.user.value member = some v → v = p ∨ (s.tried member).Covers v) :
    Covering first second (s.setTried member { s.tried member with pin := some p }) := by
  obtain ⟨now, value⟩ := Replication.exists_value s.user member
  refine holds.setTried ⟨p, rfl, worked⟩ (fun k v later found => ?_) fun prepared => ?_
  · rcases holds.awaits member k v later found with pinned | covers
    · -- The pin it had: a password it still gets, other than the one it enforces, is followed.
      by_cases same : v = p
      · exact Or.inl (congrArg some same.symm)
      by_cases kept : v = now
      · subst kept
        exact Or.inr ((current v value).resolve_left same)
      · obtain ⟨rfl, back, all⟩ := regained holds pinned value later found kept
        rcases holds.ready member (all member) with pending | ⟨settled, -⟩
        · rw [back] at pending
          exact Or.inr (Or.inl pending)
        · rw [back] at settled
          exact absurd (settled.value value).symm kept
    · exact Or.inr covers
  · rcases holds.ready member prepared with pending | ⟨settled, held⟩
    · exact Or.inl pending
    · obtain rfl := settled.value value
      rcases current _ value with same | pending | env
      · exact Or.inr ⟨settled, Or.inl (congrArg some same.symm)⟩
      · exact Or.inl pending
      · exact Or.inr ⟨settled, Or.inr env⟩

theorem covering_prepares (holds : Covering first second s)
    (safe : s.back = true → (s.tried member).pin = some second ∨ (s.tried member).env = second ∨
      s.user.Awaits member (· = first)) :
    Covering first second
      (s.setTried member { s.tried member with pending := some (target first second s.back) }) := by
  refine holds.setTried (holds.pinned member) (fun k v later found => ?_) fun _ => Or.inl rfl
  have known := holds.among v (List.mem_of_getElem? found)
  cases direction : s.back with
  | false =>
      rcases known with rfl | rfl
      · -- The first password is still to come, so the pin has not moved past it.
        obtain ⟨p, pinned, k', early, earlier⟩ := holds.pinned member
        rcases holds.among p (List.mem_of_getElem? earlier) with rfl | rfl
        · exact Or.inl pinned
        · have same := holds.once (Or.inl direction) k' k (Nat.le_trans early later) earlier v found
          exact Or.inl (pinned.trans (congrArg some same.symm))
      · exact Or.inr (Or.inl rfl)
  | true =>
      rcases known with rfl | rfl
      · exact Or.inr (Or.inl rfl)
      · rcases safe direction with pinned | env | never
        · exact Or.inl pinned
        · exact Or.inr (Or.inr env)
        · exact Or.inr (Or.inl (congrArg some (never k v later found).symm))

theorem covering_removes (holds : Covering first second s)
    (settled : s.user.Awaits member (· = target first second s.back))
    (held : (s.tried member).pin = some (target first second s.back) ∨
      (s.tried member).env = target first second s.back) :
    Covering first second (s.setTried member { s.tried member with pending := none }) := by
  refine holds.setTried (holds.pinned member) (fun k v later found => ?_) fun _ =>
    Or.inr ⟨settled, held⟩
  obtain rfl := settled k v later found
  rcases held with pinned | env
  · exact Or.inl pinned
  · exact Or.inr (Or.inr env)

theorem covering_edits (holds : Covering first second s) {env : α}
    (covered : s.user.Awaits member fun v =>
      (s.tried member).pin = some v ∨ (s.tried member).pending = some v) :
    Covering first second (s.setTried member { s.tried member with env := env }) := by
  refine holds.setTried (holds.pinned member) (fun k v later found => ?_) fun prepared => ?_
  · rcases covered k v later found with pinned | pending
    · exact Or.inl pinned
    · exact Or.inr (Or.inl pending)
  · rcases holds.ready member prepared with pending | ⟨settled, -⟩
    · exact Or.inl pending
    · obtain ⟨now, value⟩ := Replication.exists_value s.user member
      obtain rfl := settled.value value
      rcases covered.value value with pinned | pending
      · exact Or.inr ⟨settled, Or.inl pinned⟩
      · exact Or.inl pending

/-- The rotation has reached one member more. -/
theorem Covering.prepared (holds : Covering first second s)
    (follows : (s.tried member).pending = some (target first second s.back)) :
    Covering first second { s with prepared := Function.update s.prepared member true } := by
  refine ⟨holds.among, fun goes => holds.once ?_, holds.twice, holds.pinned, holds.awaits,
    fun other prepared => ?_⟩
  · rcases goes with forward | ⟨other, unprepared⟩
    · exact Or.inl forward
    · by_cases same : other = member
      · subst same
        simp at unprepared
      · exact Or.inr ⟨other, by simpa [Function.update_of_ne same] using unprepared⟩
  · by_cases same : other = member
    · subst same
      exact Or.inl follows
    · exact holds.ready other (by simpa [Function.update_of_ne same] using prepared)

/-- A step keeps every member on a password it tries. -/
theorem covering_step (holds : Covering first second s) (step : Step first second s t) :
    Covering first second t := by
  cases step with
  | pins worked current => exact covering_pins holds worked current
  | prepares safe => exact (covering_prepares holds safe).prepared (by simp [Rotating.setTried])
  | removes settled held => exact covering_removes holds settled held
  | edits covered => exact covering_edits holds covered
  | writes all wrote =>
      rcases wrote with rfl | rfl
      · refine holds.extends (Replication.extends_write _ _) all fun k v found => ?_
        exact Replication.write_getElem? found
      · refine holds.extends (Replication.extends_acknowledge _ _) all fun k v found => ?_
        exact Replication.write_getElem? found
  | replicates moves lossless => exact holds.replicates (moves.extends lossless) lossless
  | turns forward =>
      refine ⟨holds.among, fun _ => holds.once (Or.inl forward), holds.twice, holds.pinned, holds.awaits,
        nofun⟩

/-- Whatever a member enforces, it tries. -/
theorem tried_of_reachable (reached : (rotating first second).Reachable s) {v : α}
    (enforced : s.user.value member = some v) : (s.tried member).Has v := by
  have holds : Covering first second s := by
    apply System.invariant _ _ reached
    · exact fun s start => covering_start start.2.1 start.2.2.1 start.2.2.2
    · exact fun s t _ holds step => covering_step holds step
  exact (holds.awaits member).value enforced

end Covering

end MongoHa.Spec
