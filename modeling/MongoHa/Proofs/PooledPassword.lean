/-
Module: MongoHa.Proofs.PooledPassword
Layer: Proofs
Purpose: The password of the pooled client. For any number of swaps and rebuilds in any order of their
  steps: whenever the pool's lock is free the client authenticates with the password of the handle, which
  is that of the last swap, and the generation counts the replacements; a rebuild replaces the generation
  it observed and no other, and never changes the password.
Imports: Mathlib.Data.List.NodupEquivFin, MongoHa.Wrapper.PooledClient
Trusted boundary: none (fully proved)
Main exports: lastSwapped, Handle.Accounted, poolHeld, pool_guards, client_step,
  pooled_client_carries_password
Open obligations: none
-/
import Mathlib.Data.List.NodupEquivFin
import MongoHa.Wrapper.PooledClient

namespace MongoHa

open Foundations

/-! ### What the pool's lock guards -/

/-- The password that the last swap brought, or the first one. -/
def lastSwapped (password : String) (replacements : List Replacement) : String :=
  replacements.foldl
    (fun password replacement =>
      match replacement with
      | .swap fresh => fresh
      | .rebuild _ => password) password

theorem lastSwapped_snoc (password : String) (replacements : List Replacement)
    (replacement : Replacement) :
    lastSwapped password (replacements ++ [replacement]) =
      match replacement with
      | .swap fresh => fresh
      | .rebuild _ => lastSwapped password replacements := by
  rw [lastSwapped, List.foldl_append]
  rfl

/-- The rebuild that is the replacement of this number replaced this generation. -/
def Numbered (replacements : List Replacement) : Prop :=
  ∀ number observed, replacements[number]? = some (Replacement.rebuild observed) → observed = number

theorem Numbered.snoc {replacements : List Replacement} {replacement : Replacement}
    (numbered : Numbered replacements)
    (last : ∀ observed, replacement = .rebuild observed → observed = replacements.length) :
    Numbered (replacements ++ [replacement]) := by
  intro number observed found
  rcases Nat.lt_or_ge number replacements.length with inside | outside
  · rw [List.getElem?_append_left inside] at found
    exact numbered number observed found
  · rw [List.getElem?_append_right outside, List.getElem?_singleton] at found
    split at found
    · rename_i first
      rw [last observed (Option.some.inj found)]
      omega
    · cases found

/-- No generation is rebuilt twice. -/
theorem Numbered.count_le_one {replacements : List Replacement} (numbered : Numbered replacements)
    (observed : Nat) : replacements.count (.rebuild observed) ≤ 1 := by
  by_contra more
  obtain ⟨early, late, earlier, first, second⟩ := List.duplicate_iff_exists_distinct_get.1
    (List.duplicate_iff_two_le_count.2 (Nat.lt_of_not_le more))
  have atEarly := numbered early observed (by simp [first])
  have atLate := numbered late observed (by simp [second])
  have ordered : early.val < late.val := earlier
  omega

namespace Handle

/-- The generation counts the replacements, and every rebuild among them replaced the one it observed. -/
structure Accounted (handle : Handle) : Prop where
  generation : handle.generation = handle.replacements.length
  numbered : Numbered handle.replacements

/-- What holds of a handle whose pool is not locked, from its first password. -/
structure Carries (first : String) (handle : Handle) : Prop where
  accounted : handle.Accounted
  client : handle.client = handle.password
  password : handle.password = lastSwapped first handle.replacements
  unheld : handle.passwordHeld = false

end Handle

/-- What holds at each place of the code that holds the pool's lock. -/
def poolHeld (first : String) : PoolPhase → Handle → Prop
  | .swapHoldsPool _, handle => handle.Carries first
  | .swapHoldsBoth _, handle => { handle with passwordHeld := false }.Carries first
  | .swapWrote fresh, handle =>
      handle.Accounted ∧ handle.password = fresh ∧ handle.passwordHeld = false
  | .rebuildHoldsPool _, handle => handle.Carries first
  | .rebuildMatched observed, handle => handle.Carries first ∧ handle.generation = observed
  | .rebuildHoldsBoth observed, handle =>
      { handle with passwordHeld := false }.Carries first ∧ handle.generation = observed
  | .rebuildRead observed fresh, handle =>
      handle.Carries first ∧ handle.generation = observed ∧ fresh = handle.password
  | _, _ => False

theorem Handle.Accounted.replace {handle : Handle} (accounted : handle.Accounted) (client : String)
    {replacement : Replacement}
    (last : ∀ observed, replacement = .rebuild observed → observed = handle.generation) :
    (handle.replace client replacement).Accounted where
  generation := by
    rw [Handle.replace, List.length_append, accounted.generation, List.length_singleton]
  numbered := by
    apply accounted.numbered.snoc
    intro observed same
    rw [last observed same, accounted.generation]

/-- A rebuild keeps the password, and the client it builds authenticates with it. -/
theorem Handle.Carries.rebuild {first : String} {handle : Handle} (carries : handle.Carries first)
    {observed : Nat} (same : handle.generation = observed) :
    (handle.replace handle.password (.rebuild observed)).Carries first where
  accounted := by
    apply carries.accounted.replace
    intro other rebuilt
    cases rebuilt
    exact same.symm
  client := rfl
  password :=
    carries.password.trans (lastSwapped_snoc first handle.replacements (.rebuild observed)).symm
  unheld := carries.unheld

/-- A swap leaves the client of the password it wrote. -/
theorem Handle.Accounted.swap {first fresh : String} {handle : Handle} (accounted : handle.Accounted)
    (password : handle.password = fresh) (unheld : handle.passwordHeld = false) :
    (handle.replace fresh (.swap fresh)).Carries first where
  accounted := by
    apply accounted.replace
    intro observed swapped
    cases swapped
  client := password.symm
  password := password.trans (lastSwapped_snoc first handle.replacements (.swap fresh)).symm
  unheld := unheld

theorem Handle.Carries.unlocked {first : String} {handle : Handle} (carries : handle.Carries first) :
    { handle with passwordHeld := false }.Carries first := by
  rw [← carries.unheld]
  exact carries

/-- Every step of a swap or a rebuild keeps what holds at its place. -/
theorem pool_guards (first : String) : poolCode.Guards (Handle.Carries first) (poolHeld first) where
  enter enters carries := by
    cases enters with
    | swap fresh => exact carries
    | rebuild observed => exact carries
  work works held := by
    cases works with
    | swapLocks free => exact held.unlocked
    | swapWrites => exact ⟨⟨held.accounted.generation, held.accounted.numbered⟩, rfl, rfl⟩
    | rebuildMatches same => exact ⟨held, same⟩
    | rebuildLocks free => exact ⟨held.1.unlocked, held.2⟩
    | rebuildReads => exact ⟨held.1, held.2, rfl⟩
  leave leaves held := by
    cases leaves with
    | swapReplaces =>
        obtain ⟨accounted, password, unheld⟩ := held
        exact accounted.swap password unheld
    | swapDropped => exact held
    | rebuildLost past => exact held
    | rebuildDropped => exact held.1
    | rebuildReplaces =>
        obtain ⟨carries, same, rfl⟩ := held
        exact carries.rebuild same
  crash crashes := by cases crashes

/-! ### Runs -/

variable {ι : Type} [DecidableEq ι] {password : String} {s t : LockState ι Handle PoolPhase}

theorem pool_guarded (reached : (poolCode.system ι (Handle.connect password)).Reachable s) :
    s.Guarded (Handle.Carries password) (poolHeld password) := by
  apply (pool_guards password).reachable _ reached
  constructor
  · exact ⟨rfl, fun _ _ found => by cases found⟩
  · rfl
  · rfl
  · rfl

/-- The accounts hold at every moment, whoever has the lock. -/
theorem accounted_of_reachable
    (reached : (poolCode.system ι (Handle.connect password)).Reachable s) : s.shared.Accounted := by
  apply (pool_guarded reached).always
  · exact fun _ carries => carries.accounted
  · intro place handle held
    cases place with
    | swapHoldsPool fresh => exact held.accounted
    | swapHoldsBoth fresh => exact ⟨held.accounted.generation, held.accounted.numbered⟩
    | swapWrote fresh => exact held.1
    | rebuildHoldsPool observed => exact held.accounted
    | rebuildMatched observed => exact held.1.accounted
    | rebuildHoldsBoth observed => exact ⟨held.1.accounted.generation, held.1.accounted.numbered⟩
    | rebuildRead observed fresh => exact held.1.accounted
    | _ => exact held.elim

/-- A rebuild that works on keeps the password, and its generation is the pool's. -/
theorem rebuild_work {place next : PoolPhase} {handle left : Handle} {observed : Nat}
    (held : poolHeld password place handle) (rebuilds : place.observed = some observed)
    (works : PoolWork place handle next left) :
    left.password = handle.password ∧ (handle.generation ≠ observed → left = handle) := by
  cases works with
  | swapLocks free => cases rebuilds
  | swapWrites => cases rebuilds
  | rebuildMatches same => exact ⟨rfl, fun _ => rfl⟩
  | rebuildLocks free =>
      cases rebuilds
      exact ⟨rfl, fun differs => absurd held.2 differs⟩
  | rebuildReads =>
      cases rebuilds
      exact ⟨rfl, fun differs => absurd held.2 differs⟩

theorem rebuild_leave {place next : PoolPhase} {handle left : Handle} {observed : Nat}
    (held : poolHeld password place handle) (rebuilds : place.observed = some observed)
    (leaves : PoolLeave place handle next left) :
    left.password = handle.password ∧ (handle.generation ≠ observed → left = handle) := by
  cases leaves with
  | swapReplaces => cases rebuilds
  | swapDropped => cases rebuilds
  | rebuildLost past => exact ⟨rfl, fun _ => rfl⟩
  | rebuildDropped => exact ⟨rfl, fun _ => rfl⟩
  | rebuildReplaces =>
      cases rebuilds
      exact ⟨rfl, fun differs => absurd held.2.1 differs⟩

/-- A rebuild keeps the password, and where its generation is not the pool's it changes nothing at all. -/
theorem rebuild_step (reached : (poolCode.system ι (Handle.connect password)).Reachable s) {i : ι}
    {observed : Nat} (rebuilds : (s.phase i).observed = some observed)
    (step : LockStep poolCode s (.call i) t) :
    t.shared.password = s.shared.password ∧
      (s.shared.generation ≠ observed → t.shared = s.shared) := by
  have guarded := pool_guarded reached
  cases step with
  | enter unowned enters => exact ⟨rfl, fun _ => rfl⟩
  | work holds works => exact rebuild_work (guarded.of_holds holds) rebuilds works
  | leave holds leaves => exact rebuild_leave (guarded.of_holds holds) rebuilds leaves

theorem client_work {place next : PoolPhase} {handle left : Handle}
    (works : PoolWork place handle next left) :
    left.client = handle.client ∧ left.generation = handle.generation := by
  cases works with
  | swapLocks free => exact ⟨rfl, rfl⟩
  | swapWrites => exact ⟨rfl, rfl⟩
  | rebuildMatches same => exact ⟨rfl, rfl⟩
  | rebuildLocks free => exact ⟨rfl, rfl⟩
  | rebuildReads => exact ⟨rfl, rfl⟩

theorem client_leave {place next : PoolPhase} {handle left : Handle}
    (leaves : PoolLeave place handle next left) :
    (left.client = handle.client ∧ left.generation = handle.generation) ∨
      left.generation = handle.generation + 1 := by
  cases leaves with
  | swapReplaces => exact Or.inr rfl
  | swapDropped => exact Or.inl ⟨rfl, rfl⟩
  | rebuildLost past => exact Or.inl ⟨rfl, rfl⟩
  | rebuildDropped => exact Or.inl ⟨rfl, rfl⟩
  | rebuildReplaces => exact Or.inr rfl

/-- A step leaves the client and the generation as they are, or replaces the one and counts it. -/
theorem client_step {label : LockLabel ι} (step : LockStep poolCode s label t) :
    (t.shared.client = s.shared.client ∧ t.shared.generation = s.shared.generation) ∨
      t.shared.generation = s.shared.generation + 1 := by
  cases step with
  | enter unowned enters => exact Or.inl ⟨rfl, rfl⟩
  | work holds works => exact Or.inl (client_work works)
  | leave holds leaves => exact client_leave leaves
  | crash crashes begins => cases crashes

/-- Whenever the pool's lock is free, the pooled client authenticates with the password of the handle,
    which is that of the last swap. The generation counts the replacements of the client, each rebuild
    replaced the one it observed and no other did, and a step of a rebuild keeps the password, and
    everything if it observed another generation. -/
theorem pooled_client_carries_password
    (reached : (poolCode.system ι (Handle.connect password)).Reachable s) :
    (s.owner = none → s.shared.client = s.shared.password ∧
      s.shared.password = lastSwapped password s.shared.replacements) ∧
    s.shared.generation = s.shared.replacements.length ∧
    (∀ label t, LockStep poolCode s label t →
      (t.shared.client = s.shared.client ∧ t.shared.generation = s.shared.generation) ∨
        t.shared.generation = s.shared.generation + 1) ∧
    Numbered s.shared.replacements ∧
    (∀ observed, s.shared.replacements.count (.rebuild observed) ≤ 1) ∧
    ∀ i observed t, (s.phase i).observed = some observed → LockStep poolCode s (.call i) t →
      t.shared.password = s.shared.password ∧
        (s.shared.generation ≠ observed → t.shared = s.shared) := by
  have accounted := accounted_of_reachable reached
  refine ⟨fun unowned => ?_, accounted.generation, fun label t step => client_step step,
    accounted.numbered, accounted.numbered.count_le_one, ?_⟩
  · have carries := (pool_guarded reached).of_free unowned
    exact ⟨carries.client, carries.password⟩
  · intro i observed t rebuilds step
    exact rebuild_step reached rebuilds step

/-! ### A swap and a rebuild -/

/-- One call swaps to `"new"`, the other one rebuilds the first generation. -/
def swapAndRebuild : LockState Bool Handle PoolPhase :=
  { shared := .connect "old", owner := none
    phase := fun swaps => if swaps then .swapBegins "new" else .rebuildBegins 0 }

/-- The swap takes the pool's lock first: the rebuild loses the race and the new password stays. -/
theorem swap_before_rebuild :
    ∃ s : LockState Bool Handle PoolPhase, (poolCode.system Bool (Handle.connect "old")).Reachable s ∧
      s.phase false = .lostRace ∧ s.owner = none ∧ s.shared.client = "new" ∧
      s.shared.password = lastSwapped "old" s.shared.replacements := by
  have begun : (poolCode.system Bool (Handle.connect "old")).Reachable swapAndRebuild := by
    refine .init ⟨rfl, rfl, fun swaps => ?_⟩
    cases swaps with
    | true => exact .swap "new"
    | false => exact .rebuild 0
  have swapped := (((begun.take (.call true) trivial (.enter rfl (.swap "new"))).take (.call true)
    trivial (.work rfl (.swapLocks rfl))).take (.call true) trivial (.work rfl .swapWrites)).take
      (.call true) trivial (.leave rfl .swapReplaces)
  have lost := (swapped.take (.call false) trivial (.enter rfl (.rebuild 0))).take (.call false) trivial
    (.leave rfl (.rebuildLost (by decide)))
  obtain ⟨carries, -⟩ := pooled_client_carries_password lost
  exact ⟨_, lost, rfl, rfl, (carries rfl).1, (carries rfl).2⟩

end MongoHa
