/-
Module: MongoHa.Proofs.MemberIds
Layer: Proofs
Purpose: The member ids of a set over any sequence of membership edits. A new id is one more than the
  largest in use, and a removal frees an id only when it is the largest: the ids stay between 0 and 255
  exactly when every member is added while the largest id is below 255. Two hosts that replace each other
  run past that bound.
Imports: MongoHa.Proofs.MembershipEdits
Trusted boundary: none (fully proved)
Main exports: configIds, ValidIds, member_ids_valid_iff, config_numbers_inRange, swaps, swaps_ids,
  replacing_ids, member_id_256
Open obligations: none
-/
import MongoHa.Proofs.MembershipEdits

namespace MongoHa

open Foundations
open Foundations.RustStr

/-- The ids a config has in use. -/
def configIds (config : Document) : List Int :=
  memberIds (contentOf config).members

/-- Every member id is one that mongod accepts. -/
def ValidIds (config : Document) : Prop :=
  ∀ id ∈ configIds config, 0 ≤ id ∧ id ≤ 255

/-! ### One edit -/

theorem draft_eq_nextConfig (current : Document) (edit : MemberEdit) :
    edit.draft current = nextConfig current fun members => applyEdit members edit := by
  cases edit with
  | add host => rfl
  | remove host => rfl

/-- An edit of a complete config is refused only where it leaves no member. -/
theorem editConfig_members {config : Document} (complete : Complete config) (edit : MemberEdit) :
    Complete (editConfig config edit) ∧
      (contentOf (editConfig config edit)).members =
        if applyEdit (contentOf config).members edit = [] then (contentOf config).members
        else applyEdit (contentOf config).members edit := by
  obtain ⟨version, versioned⟩ := Option.isSome_iff_exists.1 complete.versioned
  obtain ⟨members, listed⟩ := Option.isSome_iff_exists.1 complete.listed
  rw [editConfig, draft_eq_nextConfig, contentOf_members listed]
  by_cases empty : applyEdit members edit = []
  · have refused : nextConfig config (fun members => applyEdit members edit) =
        .error "refusing to produce a config with no members" := by
      rw [configVersion] at versioned
      simp [nextConfig, versioned, listed, empty]
    rw [refused, if_pos empty]
    exact ⟨complete, contentOf_members listed⟩
  · cases built : nextConfig config fun members => applyEdit members edit with
    | error text =>
        rw [configVersion] at versioned
        simp [nextConfig, versioned, listed, empty] at built
    | ok next =>
        obtain ⟨_, current, -, after, same, edited, -⟩ := nextConfig_content built
        rw [listed] at same
        cases same
        rw [if_neg empty]
        exact ⟨⟨by simp [after], by simp [edited]⟩, contentOf_members edited⟩

theorem complete_finalState {config : Document} (complete : Complete config) (edits : List MemberEdit) :
    Complete (finalState editConfig config edits) := by
  apply finalState_invariant complete
  intro entry _ whole
  exact (editConfig_members whole entry.2).1

theorem editConfig_add {config : Document} (complete : Complete config) (host : String) :
    (contentOf (editConfig config (.add host))).members =
      (contentOf config).members ++
        [addedMember (nextMemberId (contentOf config).members) host] := by
  rw [(editConfig_members complete _).2, if_neg (by simp [applyEdit])]
  rfl

/-- Adding a member adds the next id to those in use. -/
theorem mem_configIds_add {config : Document} (complete : Complete config) (host : String) {id : Int} :
    id ∈ configIds (editConfig config (.add host)) ↔
      id ∈ configIds config ∨ id = nextMemberId (contentOf config).members := by
  rw [configIds, editConfig_add complete, memberIds_eq, List.filterMap_append,
    List.filterMap_cons_some (entryId_addedMember _ _), List.filterMap_nil, List.mem_append,
    List.mem_singleton, configIds, memberIds_eq]

theorem mem_configIds_remove {config : Document} (complete : Complete config) (host : String) {id : Int}
    (used : id ∈ configIds (editConfig config (.remove host))) : id ∈ configIds config := by
  rw [configIds, (editConfig_members complete _).2] at used
  split at used
  · exact used
  · rw [memberIds_eq] at used
    rw [configIds, memberIds_eq]
    exact (List.filter_sublist.filterMap _).subset used

/-- The next id is at most a bound that every id in use stays below. -/
theorem nextMemberId_le {members : List Bson} {bound : Int} (nonneg : 0 ≤ bound)
    (below : ∀ id ∈ memberIds members, id < bound) : nextMemberId members ≤ bound := by
  rw [nextMemberId]
  cases largest : (memberIds members).max? with
  | none => exact nonneg
  | some top => exact below top (List.max?_eq_some_iff.1 largest).1

theorem nextMemberId_nonneg {members : List Bson} (nonneg : ∀ id ∈ memberIds members, 0 ≤ id) :
    0 ≤ nextMemberId members := by
  rw [nextMemberId]
  cases largest : (memberIds members).max? with
  | none => exact Int.le_refl 0
  | some top =>
      have least := nonneg top (List.max?_eq_some_iff.1 largest).1
      simp only
      omega

theorem validIds_add_iff {config : Document} (complete : Complete config) (valid : ValidIds config)
    (host : String) :
    ValidIds (editConfig config (.add host)) ↔ ∀ id ∈ configIds config, id < 255 := by
  constructor
  · intro kept id used
    have next := (kept _ ((mem_configIds_add complete host).2 (Or.inr rfl))).2
    rw [configIds, memberIds_eq] at used
    have beyond := lt_nextMemberId used
    omega
  · intro below id used
    rcases (mem_configIds_add complete host).1 used with old | rfl
    · exact valid id old
    · exact ⟨nextMemberId_nonneg fun id used => (valid id used).1, nextMemberId_le (by decide) below⟩

/-! ### Sequences of edits -/

theorem complete_rsInitiateConfig (setName selfHost : String) :
    Complete (rsInitiateConfig setName selfHost) := ⟨rfl, rfl⟩

/-- Every config of the sequence has valid ids exactly when every member is added to a config whose
    largest id is below 255. -/
theorem member_ids_valid_iff {setName selfHost : String} {edits : List MemberEdit} :
    (∀ before, before <+: edits →
        ValidIds (finalState editConfig (rsInitiateConfig setName selfHost) before)) ↔
      ∀ entry ∈ trace editConfig (rsInitiateConfig setName selfHost) edits, ∀ host,
        entry.2 = .add host → ∀ id ∈ configIds entry.1, id < 255 := by
  constructor
  · intro valid entry member host adds
    obtain ⟨before, after, split, reached⟩ := mem_trace_iff.1 member
    have complete := complete_finalState (complete_rsInitiateConfig setName selfHost) before
    have old := valid before ⟨entry.2 :: after, split.symm⟩
    have new := valid (before ++ [entry.2]) ⟨after, by rw [split]; simp⟩
    rw [finalState_append, finalState_cons, finalState_nil, adds] at new
    rw [reached]
    exact (validIds_add_iff complete old host).1 new
  · intro below before isPrefix
    obtain ⟨after, rfl⟩ := isPrefix
    have start : ValidIds (rsInitiateConfig setName selfHost) := by
      intro id used
      have first : id = 0 := by simpa using (show id ∈ [0] from used)
      omega
    have holds : Complete (finalState editConfig (rsInitiateConfig setName selfHost) before) ∧
        ValidIds (finalState editConfig (rsInitiateConfig setName selfHost) before) := by
      apply finalState_invariant (motive := fun config => Complete config ∧ ValidIds config)
        ⟨complete_rsInitiateConfig setName selfHost, start⟩
      intro entry member inv
      refine ⟨(editConfig_members inv.1 entry.2).1, ?_⟩
      cases edit : entry.2 with
      | add host =>
          rw [validIds_add_iff inv.1 inv.2]
          apply below entry _ host edit
          rw [trace_append]
          exact List.mem_append_left _ member
      | remove host => exact fun id used => inv.2 id (mem_configIds_remove inv.1 host used)
    exact holds.2

/-! ### The numbers of a config -/

/-- An edit takes no id beyond the next one. -/
theorem ids_applyEdit {members : List Bson} {bound : Int} (edit : MemberEdit)
    (within_ : ∀ id ∈ memberIds members, 0 ≤ id ∧ id ≤ bound) (nonneg : 0 ≤ bound) :
    ∀ id ∈ memberIds (applyEdit members edit), 0 ≤ id ∧ id ≤ bound + 1 := by
  intro id used
  have old : id ∈ memberIds members → 0 ≤ id ∧ id ≤ bound + 1 := by
    intro member
    have bounds := within_ id member
    omega
  rw [memberIds_eq] at used
  cases edit with
  | add host =>
      rw [applyEdit, List.filterMap_append, List.filterMap_cons_some (entryId_addedMember _ _),
        List.filterMap_nil, List.mem_append, List.mem_singleton, ← memberIds_eq] at used
      rcases used with member | rfl
      · exact old member
      · refine ⟨nextMemberId_nonneg fun id used => (within_ id used).1, ?_⟩
        apply nextMemberId_le (by omega)
        intro id used
        have bounds := within_ id used
        omega
  | remove host =>
      apply old
      rw [memberIds_eq]
      exact (List.filter_sublist.filterMap _).subset used

theorem ids_foldl_applyEdit {edits : List MemberEdit} {members : List Bson} {bound : Int}
    (within_ : ∀ id ∈ memberIds members, 0 ≤ id ∧ id ≤ bound) (nonneg : 0 ≤ bound) :
    ∀ id ∈ memberIds (edits.foldl applyEdit members), 0 ≤ id ∧ id ≤ bound + edits.length := by
  induction edits generalizing members bound with
  | nil => simpa using within_
  | cons edit edits ih =>
      have counted : bound + ((edits.length + 1 : Nat) : Int) = bound + 1 + edits.length := by omega
      rw [List.foldl_cons, List.length_cons, counted]
      exact ih (ids_applyEdit edit within_ nonneg) (by omega)

/-- From the config a set was initiated with, the version and the ids that a next config would get are
    those of an `i64` before that many edits were accepted. -/
theorem config_numbers_inRange {setName selfHost : String} {s : EditState} {members : List Bson}
    {version : Int} (reached : (membershipEdits setName selfHost).Reachable s)
    (fewer : (s.accepted.length : Int) + 2 < 2 ^ 63)
    (versioned : configVersion s.installed = some version)
    (listed : s.installed.getArray "members" = some members) :
    (0 ≤ version ∧ version + 1 < 2 ^ 63) ∧ 0 ≤ nextMemberId members ∧ nextMemberId members < 2 ^ 63 := by
  obtain ⟨content, counted⟩ := installed_content reached
  have first : ∀ id ∈ memberIds (initialMembers selfHost), 0 ≤ id ∧ id ≤ 0 := by
    intro id used
    have zero : id = 0 := List.mem_singleton.1 used
    omega
  have ids := @ids_foldl_applyEdit s.accepted _ _ first (Int.le_refl 0)
  have edited : members = s.accepted.foldl applyEdit (initialMembers selfHost) := by
    rw [← contentOf_members listed, content]
  rw [← edited] at ids
  have next : nextMemberId members ≤ s.accepted.length + 1 := by
    apply nextMemberId_le (by omega)
    intro id used
    have bounds := ids id used
    omega
  obtain rfl : 1 + (s.accepted.length : Int) = version := Option.some.inj (counted.symm.trans versioned)
  exact ⟨⟨by omega, by omega⟩, nextMemberId_nonneg fun id used => (ids id used).1, by omega⟩

/-! ### Two hosts that replace each other -/

/-- Two members in turn leave and are added again. -/
def swaps (leaving staying : String) : Nat → List MemberEdit
  | 0 => []
  | n + 1 => .remove leaving :: .add leaving :: swaps staying leaving n

/-- An edit of a set that never has more than two members: an added host is not yet named, and the last
    member is not removed. -/
def SmallEdit (entry : Document × MemberEdit) : Prop :=
  editAllowed (contentOf entry.1).members entry.2 = true ∧ (contentOf entry.1).members.length ≤ 2

theorem keepsMember_addedMember (host : String) (id : Int) (named : String) :
    keepsMember host (addedMember id named) = !eqIgnoreAsciiCase named host := rfl

/-- Each swap takes the next id. -/
theorem swaps_ids {count : Nat} {id : Int} {leaving staying : String} {config : Document}
    (complete : Complete config) (nonneg : 0 ≤ id) (differ : asciiLower leaving ≠ asciiLower staying)
    (members : (contentOf config).members = [addedMember id leaving, addedMember (id + 1) staying]) :
    (∀ entry ∈ trace editConfig config (swaps leaving staying count), SmallEdit entry) ∧
      id + count + 1 ∈ configIds (finalState editConfig config (swaps leaving staying count)) := by
  induction count generalizing id leaving staying config with
  | zero =>
      refine ⟨by simp [swaps], ?_⟩
      have ids : configIds config = [id, id + 1] := by
        rw [configIds, members, memberIds_eq]
        rfl
      simp [swaps, ids]
  | succ count ih =>
      have dropped : keepsMember leaving (addedMember id leaving) = false := by
        simp [keepsMember_addedMember]
      have kept : keepsMember leaving (addedMember (id + 1) staying) = true := by
        simp [keepsMember_addedMember, eqIgnoreAsciiCase, Ne.symm differ]
      have filtered : (contentOf config).members.filter (keepsMember leaving) =
          [addedMember (id + 1) staying] := by
        rw [members, List.filter_cons_of_neg (by simp [dropped]), List.filter_cons_of_pos kept,
          List.filter_nil]
      have alone := editConfig_members complete (.remove leaving)
      rw [applyEdit, filtered, if_neg (List.cons_ne_nil _ _)] at alone
      have next : nextMemberId [addedMember (id + 1) staying] = id + 1 + 1 := rfl
      have both := editConfig_members alone.1 (.add leaving)
      rw [applyEdit, alone.2, next, if_neg (by simp), List.singleton_append] at both
      obtain ⟨small, largest⟩ := ih both.1 (by omega) (Ne.symm differ) both.2
      constructor
      · rw [swaps, trace_cons, trace_cons]
        intro entry member
        rcases List.mem_cons.1 member with rfl | member
        · exact ⟨by simp [editAllowed, filtered], by simp [members]⟩
        · rcases List.mem_cons.1 member with rfl | member
          · refine ⟨?_, by simp [alone.2]⟩
            simp [editAllowed, alone.2, entryHost_addedMember, eqIgnoreAsciiCase, Ne.symm differ]
          · exact small entry member
      · have counted : id + ((count + 1 : Nat) : Int) + 1 = id + 1 + count + 1 := by omega
        rw [swaps, finalState_cons, finalState_cons, counted]
        exact largest

/-- From the first config on, as many replacements as the two hosts make take as many ids. -/
theorem replacing_ids (count : Nat) :
    let first := rsInitiateConfig "rs0" "mongo-1:27017"
    let edits := .add "mongo-2:27017" :: swaps "mongo-1:27017" "mongo-2:27017" (count + 1)
    (∀ entry ∈ trace editConfig first edits, SmallEdit entry) ∧
      (count : Int) + 2 ∈ configIds (finalState editConfig first edits) := by
  intro first edits
  have whole := complete_rsInitiateConfig "rs0" "mongo-1:27017"
  let pair := finalState editConfig first
    [.add "mongo-2:27017", .remove "mongo-1:27017", .add "mongo-1:27017"]
  have members : (contentOf pair).members =
      [addedMember 1 "mongo-2:27017", addedMember (1 + 1) "mongo-1:27017"] := rfl
  obtain ⟨small, largest⟩ := @swaps_ids count 1 "mongo-2:27017" "mongo-1:27017" pair
    (complete_finalState whole _) (by decide) (by decide) members
  constructor
  · simp only [edits, swaps, trace_cons, List.forall_mem_cons]
    exact ⟨⟨rfl, by decide⟩, ⟨rfl, by decide⟩, ⟨rfl, by decide⟩, small⟩
  · have counted : (count : Int) + 2 = 1 + count + 1 := by omega
    rw [counted]
    exact largest

/-- Two hosts that replace each other 255 times reach the id 256. -/
theorem member_id_256 :
    let first := rsInitiateConfig "rs0" "mongo-1:27017"
    let edits := .add "mongo-2:27017" :: swaps "mongo-1:27017" "mongo-2:27017" 255
    (∀ entry ∈ trace editConfig first edits, SmallEdit entry) ∧
      ¬ ∀ before, before <+: edits → ValidIds (finalState editConfig first before) := by
  intro first edits
  obtain ⟨small, reached⟩ := replacing_ids 254
  refine ⟨small, fun valid => ?_⟩
  exact absurd (valid edits (List.prefix_refl _) _ reached).2 (by decide)

end MongoHa
