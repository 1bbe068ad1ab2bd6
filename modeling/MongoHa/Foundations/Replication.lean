/-
Module: MongoHa.Foundations.Replication
Layer: Foundations
Purpose: One replicated value. The primary's writes are a history that the members apply in order, each at
  its own pace; a prefix of it is committed, and a failover to a member that holds the committed prefix
  drops whatever that member lacks. `Settled` says that nothing from the last committed write on is
  another value, which no later move can undo; `Awaits` bounds what a member holds now or still gets.
Imports: Mathlib.Logic.Function.Basic
Trusted boundary: none (fully proved)
Main exports: Replication, Replication.uniform, Replication.write, Replication.acknowledge,
  Replication.Moves, Settled, settled_acknowledge, Settled.write, Settled.moves, Settled.value, Awaits,
  Applied, Extends, Awaits.extends, Applied.extends, extends_write, Moves.extends
Open obligations: none
-/
import Mathlib.Logic.Function.Basic

namespace Foundations

/-- The writes of the primary, the last one that each member applied, and the last one that a majority
    holds for good. -/
structure Replication (ι α : Type*) where
  history : List α
  applied : ι → Nat
  committed : Nat
  primary : ι
  bounded : ∀ member, applied member < history.length
  leads : applied primary + 1 = history.length
  durable : committed ≤ applied primary

namespace Replication

variable {ι α : Type*} (r : Replication ι α)

/-- The value a member holds. -/
def value (member : ι) : Option α := r.history[r.applied member]?

/-- One value that every member holds for good. -/
def uniform (v : α) (primary : ι) : Replication ι α where
  history := [v]
  applied _ := 0
  committed := 0
  primary := primary
  bounded _ := Nat.one_pos
  leads := rfl
  durable := Nat.le_refl 0

/-- More of the history is held by a majority. -/
def commit (upTo : Nat) (known : upTo < r.history.length) : Replication ι α :=
  { r with
    committed := upTo
    durable := by
      have leads := r.leads
      omega }

/-- A member takes over with what it has, and the others drop what it lacks. -/
def failover (member : ι) (holds : r.committed ≤ r.applied member) : Replication ι α where
  history := r.history.take (r.applied member + 1)
  applied other := min (r.applied other) (r.applied member)
  committed := r.committed
  primary := member
  bounded other := by
    have bounded := r.bounded member
    rw [List.length_take]
    omega
  leads := by
    have bounded := r.bounded member
    rw [List.length_take]
    omega
  durable := by
    rw [Nat.min_self]
    exact holds

section Predicates

variable {r} {v w : α} {k : Nat} {member : ι}

theorem failover_getElem? {holds : r.committed ≤ r.applied member}
    (kept : (r.failover member holds).history[k]? = some w) : r.history[k]? = some w := by
  simp only [failover, List.getElem?_take] at kept
  split at kept
  · exact kept
  · cases kept

/-- The member that takes over keeps the value it holds. -/
theorem failover_value {holds : r.committed ≤ r.applied member} :
    (r.failover member holds).value member = r.value member := by
  simp [value, failover]

/-! ### A value that stays -/

/-- The last committed write and every later one are of this value. -/
def Settled (r : Replication ι α) (v : α) : Prop :=
  ∀ k w, r.committed ≤ k → r.history[k]? = some w → w = v

/-- Every member that holds what is committed holds the value. -/
theorem Settled.value (settled : r.Settled v) (holds : r.committed ≤ r.applied member) :
    r.value member = some v := by
  have inside := r.bounded member
  have found := List.getElem?_eq_getElem inside
  rw [Replication.value, found, settled _ _ holds found]

/-! ### What a member still gets -/

/-- What a member holds, and all it has still to apply, is one of these values. -/
def Awaits (r : Replication ι α) (member : ι) (among : α → Prop) : Prop :=
  ∀ k w, r.applied member ≤ k → r.history[k]? = some w → among w

/-- A member holds a value now or held it before. -/
def Applied (r : Replication ι α) (member : ι) (v : α) : Prop :=
  ∃ k ≤ r.applied member, r.history[k]? = some v

/-- A member that awaits some values holds one of them. -/
theorem Awaits.value {among : α → Prop} (awaits : r.Awaits member among)
    (holds : r.value member = some v) : among v :=
  awaits _ v (Nat.le_refl _) holds

theorem Applied.of_value (holds : r.value member = some v) : r.Applied member v :=
  ⟨_, Nat.le_refl _, holds⟩

theorem exists_value (r : Replication ι α) (member : ι) : ∃ v, r.value member = some v :=
  ⟨_, List.getElem?_eq_getElem (r.bounded member)⟩

/-- Nothing is lost and no member goes back. -/
structure Extends (r s : Replication ι α) : Prop where
  forward : ∀ member, r.applied member ≤ s.applied member
  kept : ∀ (k : Nat) (w : α), r.history[k]? = some w → s.history[k]? = some w

/-- What a member applied stays applied. -/
theorem Applied.extends {s : Replication ι α} (applied : r.Applied member v) (more : r.Extends s) :
    s.Applied member v := by
  obtain ⟨k, early, written⟩ := applied
  exact ⟨k, Nat.le_trans early (more.forward member), more.kept k v written⟩

/-- A member awaits the same values as long as only such are added. -/
theorem Awaits.extends {s : Replication ι α} {among : α → Prop} (awaits : r.Awaits member among)
    (more : r.Extends s)
    (added : ∀ (k : Nat) (w : α), s.history[k]? = some w → r.history[k]? = some w ∨ among w) :
    s.Awaits member among := by
  intro k w later written
  rcases added k w written with before | new
  · exact awaits k w (Nat.le_trans (more.forward member) later) before
  · exact new

end Predicates

/-! ### Writes and moves -/

variable [DecidableEq ι]

/-- A write on the primary. -/
def write (v : α) : Replication ι α where
  history := r.history ++ [v]
  applied := Function.update r.applied r.primary r.history.length
  committed := r.committed
  primary := r.primary
  bounded member := by
    by_cases leader : member = r.primary
    · subst leader
      simp
    · have before := r.bounded member
      simp only [Function.update_of_ne leader, List.length_append, List.length_singleton]
      omega
  leads := by simp
  durable := by
    have before := r.durable
    have leads := r.leads
    simp only [Function.update_self]
    omega

/-- A write on the primary that a majority holds. -/
def acknowledge (v : α) : Replication ι α :=
  { r.write v with
    committed := r.history.length
    durable := by simp [write] }

/-- A member applies more of the history. -/
def replicate (member : ι) (upTo : Nat) (forward : r.applied member ≤ upTo)
    (known : upTo < r.history.length) : Replication ι α :=
  { r with
    applied := Function.update r.applied member upTo
    bounded := fun other => by
      by_cases same : other = member
      · subst same
        simpa using known
      · simpa [Function.update_of_ne same] using r.bounded other
    leads := by
      have leads := r.leads
      by_cases leader : r.primary = member
      · subst leader
        simp only [Function.update_self]
        omega
      · simpa [Function.update_of_ne leader] using leads
    durable := by
      have durable := r.durable
      by_cases leader : r.primary = member
      · subst leader
        simp only [Function.update_self]
        omega
      · simpa [Function.update_of_ne leader] using durable }

/-- What replication does by itself. -/
inductive Moves : Replication ι α → Replication ι α → Prop where
  | replicate {r : Replication ι α} {member : ι} {upTo : Nat} (forward : r.applied member ≤ upTo)
      (known : upTo < r.history.length) : Moves r (r.replicate member upTo forward known)
  | commit {r : Replication ι α} {upTo : Nat} (forward : r.committed ≤ upTo)
      (known : upTo < r.history.length) : Moves r (r.commit upTo known)
  | failover {r : Replication ι α} {member : ι} (holds : r.committed ≤ r.applied member) :
      Moves r (r.failover member holds)

variable {r} {s : Replication ι α} {v w : α} {k : Nat} {member : ι}

theorem write_getElem? (written : (r.write v).history[k]? = some w) :
    r.history[k]? = some w ∨ (k = r.history.length ∧ w = v) := by
  simp only [write] at written
  rcases Nat.lt_or_ge k r.history.length with inside | outside
  · rw [List.getElem?_append_left inside] at written
    exact Or.inl written
  · rw [List.getElem?_append_right outside, List.getElem?_singleton] at written
    split at written
    · rename_i last
      exact Or.inr ⟨by omega, (Option.some.inj written).symm⟩
    · cases written

/-- A write extends the history. -/
theorem extends_write (r : Replication ι α) (v : α) : r.Extends (r.write v) where
  forward member := by
    by_cases leader : member = r.primary
    · subst leader
      simp only [write, Function.update_self]
      exact Nat.le_of_lt (r.bounded _)
    · simp [write, Function.update_of_ne leader]
  kept k w written := by
    obtain ⟨inside, -⟩ := List.getElem?_eq_some_iff.1 written
    simp only [write]
    rw [List.getElem?_append_left inside]
    exact written

theorem extends_acknowledge (r : Replication ι α) (v : α) : r.Extends (r.acknowledge v) :=
  ⟨(extends_write r v).forward, (extends_write r v).kept⟩

/-- A move that keeps the history: a member that takes over has all of it. -/
theorem Moves.extends (moves : Moves r s) (lossless : s.history = r.history) : r.Extends s := by
  refine ⟨fun other => ?_, fun k w written => by rwa [lossless]⟩
  cases moves with
  | @replicate member upTo forward known =>
      by_cases same : other = member
      · subst same
        simpa [Replication.replicate] using forward
      · simp [Replication.replicate, Function.update_of_ne same]
  | commit forward known => exact Nat.le_refl _
  | @failover member holds =>
      have long := congrArg List.length lossless
      simp only [Replication.failover, List.length_take] at long
      have bounded := r.bounded other
      simp only [Replication.failover]
      omega

/-- What a majority acknowledged is settled. -/
theorem settled_acknowledge (r : Replication ι α) (v : α) : (r.acknowledge v).Settled v := by
  intro k w committed written
  rcases write_getElem? written with before | ⟨-, same⟩
  · obtain ⟨inside, -⟩ := List.getElem?_eq_some_iff.1 before
    exact absurd inside (Nat.not_lt.2 committed)
  · exact same

/-- Writing a settled value again leaves it settled. -/
theorem Settled.write (settled : r.Settled v) : (r.write v).Settled v := by
  intro k w committed written
  rcases write_getElem? written with before | ⟨-, same⟩
  · exact settled k w committed before
  · exact same

/-- Replication and failovers leave a settled value settled. -/
theorem Settled.moves (settled : r.Settled v) (moves : Moves r s) : s.Settled v := by
  cases moves with
  | replicate forward known => exact settled
  | commit forward known =>
      intro k w committed written
      exact settled k w (Nat.le_trans forward committed) written
  | failover holds =>
      intro k w committed written
      exact settled k w committed (failover_getElem? written)

end Replication

end Foundations
