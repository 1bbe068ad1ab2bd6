/-
Module: MongoHa.Proofs.MembershipEdits
Layer: Proofs
Purpose: Membership edits compose without loss. A config is viewed as its member list and its other
  settings, and the config of the set refines a versioned register of such contents: what a joiner or a
  prune round submits is accepted only while the content it was derived from is the installed one. The
  content invariant (ids, hosts, at least one member) is then kept by each single edit.
Imports: MongoHa.Foundations.VersionedRegister, MongoHa.Proofs.PruneClock, MongoHa.Wrapper.Membership
Trusted boundary: none (fully proved)
Main exports: Content, contentOf, applyEdit, MembersDistinct, config_refines_register, EditsCompose,
  membership_edits_compose, removeMember_of_round
Open obligations: none
-/
import MongoHa.Foundations.VersionedRegister
import MongoHa.Proofs.PruneClock
import MongoHa.Wrapper.Membership

namespace MongoHa

open Foundations
open Foundations.RustStr

/-! ### The content of a config -/

/-- The fields an edit or mongod rewrites. -/
def rewrittenFields : List String := ["version", "term", "members"]

/-- A config without its version and term: its members, and its other top-level fields. -/
structure Content where
  members : List Bson
  settings : String → Option Bson

/-- The content of a config. -/
def contentOf (config : Document) : Content where
  members := (config.getArray "members").getD []
  settings key := if key ∈ rewrittenFields then none else config.get key

/-- What an edit makes of a member list. -/
def applyEdit (members : List Bson) : MemberEdit → List Bson
  | .add host => members ++ [addedMember (nextMemberId members) host]
  | .remove host => members.filter (keepsMember host)

def entryId (entry : Bson) : Option Int :=
  entry.asDocument.bind fun member => bsonInt (member.get "_id")

def entryHost (entry : Bson) : Option String :=
  entry.asDocument.bind fun member => member.getStr "host"

/-- Whether an edit is drafted at all: a host that is named is not added again, and the last member is
    not removed. -/
def editAllowed (members : List Bson) : MemberEdit → Bool
  | .add host => !(members.filterMap entryHost).any fun named => eqIgnoreAsciiCase named host
  | .remove host => !(members.filter (keepsMember host)).isEmpty

def deriveContent (edit : MemberEdit) (content : Content) : Option Content :=
  if editAllowed content.members edit then
    some { content with members := applyEdit content.members edit }
  else none

theorem nextConfig_content {current next : Document} {edit : List Bson → List Bson}
    (built : nextConfig current edit = .ok next) :
    ∃ version members, configVersion current = some version ∧
      configVersion next = some (version + 1) ∧ current.getArray "members" = some members ∧
      next.getArray "members" = some (edit members) ∧ edit members ≠ [] ∧
      (contentOf next).settings = (contentOf current).settings := by
  obtain ⟨version, members, versioned, listed, filled, rfl⟩ := nextConfig_eq_ok built
  refine ⟨version, members, versioned, ?_, listed, ?_, filled, ?_⟩
  · rw [configVersion, Document.get_insert_of_ne _ _ (by decide),
      Document.get_remove_of_ne _ (by decide), Document.get_insert_self]
    rfl
  · rw [Document.getArray, Document.get_insert_self]
  · funext key
    simp only [contentOf]
    split
    · rfl
    · rename_i kept
      simp only [rewrittenFields, List.mem_cons, not_or] at kept
      rw [Document.get_insert_of_ne _ _ kept.2.2.1, Document.get_remove_of_ne _ kept.2.1,
        Document.get_insert_of_ne _ _ kept.1]

theorem configMemberHosts_eq {config : Document} {members : List Bson}
    (listed : config.getArray "members" = some members) :
    configMemberHosts config = members.filterMap entryHost := by
  simp only [configMemberHosts, listed, List.filterMap_filterMap]
  rfl

theorem contentOf_members {config : Document} {members : List Bson}
    (listed : config.getArray "members" = some members) : (contentOf config).members = members := by
  simp [contentOf, listed]

theorem contentOf_insert_term (config : Document) (term : Bson) :
    contentOf (config.insert "term" term) = contentOf config := by
  have fields : ∀ key, key ≠ "term" → (config.insert "term" term).get key = config.get key :=
    fun key differs => Document.get_insert_of_ne _ _ differs
  simp only [contentOf, Document.getArray, fields "members" (by decide), Content.mk.injEq, true_and]
  funext key
  split
  · rfl
  · rename_i kept
    simp only [rewrittenFields, List.mem_cons, not_or] at kept
    exact fields key kept.2.1

/-! ### The config refines a register of contents -/

/-- A config mongod can hold: it has a version and a member list. -/
structure Complete (config : Document) : Prop where
  versioned : (configVersion config).isSome = true
  listed : (config.getArray "members").isSome = true

/-- The next config of an edit, seen as a content: one version on, with the edit applied. -/
theorem content_of_edit {current next : Document} (edit : MemberEdit)
    (allowed : editAllowed (contentOf current).members edit = true)
    (built : nextConfig current (fun members => applyEdit members edit) = .ok next) :
    Complete next ∧ deriveContent edit (contentOf current) = some (contentOf next) ∧
      (configVersion next).getD 0 = (configVersion current).getD 0 + 1 := by
  obtain ⟨version, members, before, after, listed, edited, -, settings⟩ := nextConfig_content built
  refine ⟨⟨by simp [after], by simp [edited]⟩, ?_, by simp [before, after]⟩
  rw [deriveContent, if_pos allowed]
  congr 1
  rw [contentOf_members listed]
  exact congrArg₂ Content.mk (contentOf_members edited).symm settings.symm

theorem content_of_join {config : Config} {primaryHost : String} {myHasData : Bool}
    {reconfig : MongoResult Unit} {current next : Document}
    (derived : .addSelf primaryHost next ∈ (addSelfThroughPrimary config primaryHost myHasData
      { rsConfig := .ok current, reconfig := reconfig }).2) :
    Complete next ∧ deriveContent (.add config.nodeId) (contentOf current) = some (contentOf next) ∧
      (configVersion next).getD 0 = (configVersion current).getD 0 + 1 := by
  obtain ⟨unnamed, built⟩ := addSelf_derives derived
  obtain ⟨-, members, -, -, listed, -⟩ := nextConfig_content built
  apply content_of_edit (.add config.nodeId) _ built
  rw [contentOf_members listed, editAllowed, ← configMemberHosts_eq listed, unnamed]
  rfl

theorem content_of_prune {now : Instant} {dwell : Duration} {gone : GoneTracker} {m : RsMember}
    {nameVerdict : NameVerdict} {reconfig : MongoResult Unit} {current next : Document}
    (derived : .removeMember m.host next ∈ (pruneMembers now dwell gone
      [(m, { nameVerdict := nameVerdict, rsConfig := .ok current, reconfig := reconfig })]).commands) :
    Complete next ∧ deriveContent (.remove m.host) (contentOf current) = some (contentOf next) ∧
      (configVersion next).getD 0 = (configVersion current).getD 0 + 1 := by
  obtain ⟨-, built⟩ := removeMember_derives derived
  obtain ⟨-, members, -, -, listed, -, filled, -⟩ := nextConfig_content built
  apply content_of_edit (.remove m.host) _ built
  simpa [contentOf_members listed, editAllowed] using filled

def viewDraft (draft : MemberEdit × Document) : VersionedRegister.Draft Content MemberEdit where
  edit := draft.1
  result := contentOf draft.2
  version := (configVersion draft.2).getD 0

def viewEdits (s : EditState) : VersionedRegister.State Content MemberEdit where
  value := contentOf s.installed
  version := (configVersion s.installed).getD 0
  drafts := s.drafts.map viewDraft
  accepted := s.accepted

/-- The installed config and every draft are complete. -/
structure EditInv (s : EditState) : Prop where
  installed : Complete s.installed
  drafts : ∀ draft ∈ s.drafts, Complete draft.2

theorem editInv_step {s t : EditState} (holds : EditInv s) (move : EditStep s t) : EditInv t := by
  have drafting : ∀ {draft : MemberEdit × Document}, Complete draft.2 →
      EditInv { s with drafts := s.drafts ++ [draft] } := by
    intro draft complete
    refine ⟨holds.installed, fun other drafted => ?_⟩
    rcases List.mem_append.1 drafted with before | now
    · exact holds.drafts other before
    · rwa [List.mem_singleton.1 now]
  cases move with
  | join config primaryHost myHasData reconfig derived => exact drafting (content_of_join derived).1
  | prune now dwell gone m nameVerdict reconfig derived => exact drafting (content_of_prune derived).1
  | install drafted => exact ⟨holds.drafts _ drafted, holds.drafts⟩
  | elect term =>
      refine ⟨⟨?_, ?_⟩, holds.drafts⟩
      · rw [configVersion, Document.get_insert_of_ne _ _ (by decide)]
        exact holds.installed.versioned
      · rw [Document.getArray, Document.get_insert_of_ne _ _ (by decide)]
        exact holds.installed.listed

theorem editInv_of_reachable {setName selfHost : String} {s : EditState}
    (reached : (membershipEdits setName selfHost).Reachable s) : EditInv s := by
  apply System.invariant _ (fun _ _ _ => editInv_step) reached
  rintro _ rfl
  exact ⟨⟨rfl, rfl⟩, by simp⟩

/-- The config of a set refines the versioned register of its contents. -/
theorem config_refines_register (setName selfHost : String) :
    (membershipEdits setName selfHost).Refines
      (VersionedRegister.register deriveContent (contentOf (rsInitiateConfig setName selfHost)) 1)
      viewEdits where
  start := by
    rintro _ rfl
    rfl
  simulate s t reached move := by
    have drafted : ∀ {edit : MemberEdit} {next : Document},
        deriveContent edit (contentOf s.installed) = some (contentOf next) →
        (configVersion next).getD 0 = (configVersion s.installed).getD 0 + 1 →
        VersionedRegister.Step deriveContent (viewEdits s)
          (viewEdits { s with drafts := s.drafts ++ [(edit, next)] }) := by
      intro edit next derived version
      have read := VersionedRegister.Step.read (s := viewEdits s) derived
      simpa [viewEdits, viewDraft, version] using read
    cases move with
    | join config primaryHost myHasData reconfig derived =>
        obtain ⟨-, content, version⟩ := content_of_join derived
        exact Or.inl (drafted content version)
    | prune now dwell gone m nameVerdict reconfig derived =>
        obtain ⟨-, content, version⟩ := content_of_prune derived
        exact Or.inl (drafted content version)
    | @install edit next version newer member installed submitted greater =>
        refine Or.inl (@VersionedRegister.Step.accept _ _ deriveContent (viewEdits s)
          (viewDraft (edit, next)) (List.mem_map_of_mem member) ?_)
        simpa [viewEdits, viewDraft, installed, submitted] using greater
    | elect term =>
        refine Or.inr ?_
        have version : configVersion (s.installed.insert "term" term) = configVersion s.installed := by
          rw [configVersion, configVersion, Document.get_insert_of_ne _ _ (by decide)]
        simp [viewEdits, contentOf_insert_term, version]

/-! ### The members of every reachable config -/

/-- Every member has an id and a host, the ids and the hosts are distinct, and there is a member. -/
structure MembersDistinct (members : List Bson) : Prop where
  named : ∀ entry ∈ members, (entryId entry).isSome = true ∧ (entryHost entry).isSome = true
  ids : (members.filterMap entryId).Nodup
  hosts : ((members.filterMap entryHost).map asciiLower).Nodup
  filled : members ≠ []

theorem entryId_addedMember (id : Int) (host : String) : entryId (addedMember id host) = some id := rfl

theorem entryHost_addedMember (id : Int) (host : String) :
    entryHost (addedMember id host) = some host := rfl

theorem memberIds_eq (members : List Bson) : memberIds members = members.filterMap entryId := by
  simp only [memberIds, List.filterMap_filterMap]
  rfl

/-- The next id is beyond every id in use. -/
theorem lt_nextMemberId {members : List Bson} {id : Int} (used : id ∈ members.filterMap entryId) :
    id < nextMemberId members := by
  rw [← memberIds_eq] at used
  rw [nextMemberId]
  cases largest : (memberIds members).max? with
  | none =>
      rw [List.max?_eq_none_iff] at largest
      simp [largest] at used
  | some top =>
      have bound := (List.max?_eq_some_iff.1 largest).2 id used
      simp only
      omega

theorem MembersDistinct.add {members : List Bson} {host : String} (distinct : MembersDistinct members)
    (allowed : editAllowed members (.add host) = true) :
    MembersDistinct (applyEdit members (.add host)) where
  named entry member := by
    rcases List.mem_append.1 member with before | now
    · exact distinct.named entry before
    · rw [List.mem_singleton.1 now, entryId_addedMember, entryHost_addedMember]
      exact ⟨rfl, rfl⟩
  ids := by
    rw [applyEdit, List.filterMap_append, List.filterMap_cons_some (entryId_addedMember _ _),
      List.filterMap_nil, List.nodup_append]
    refine ⟨distinct.ids, by simp, ?_⟩
    rintro id used _ now rfl
    rw [List.mem_singleton.1 now] at used
    exact absurd (lt_nextMemberId used) (Int.lt_irrefl _)
  hosts := by
    rw [applyEdit, List.filterMap_append, List.filterMap_cons_some (entryHost_addedMember _ _),
      List.filterMap_nil, List.map_append, List.nodup_append]
    refine ⟨distinct.hosts, by simp, ?_⟩
    rintro lowered used _ now rfl
    rw [List.map_singleton, List.mem_singleton] at now
    obtain ⟨named, listed, same⟩ := List.mem_map.1 used
    have unnamed : (members.filterMap entryHost).any (fun named => eqIgnoreAsciiCase named host) =
        false := by simpa [editAllowed] using allowed
    have differs := List.any_eq_false.1 unnamed named listed
    exact differs (eqIgnoreAsciiCase_iff.2 (same.trans now))
  filled := by simp [applyEdit]

theorem MembersDistinct.remove {members : List Bson} {host : String}
    (distinct : MembersDistinct members) (allowed : editAllowed members (.remove host) = true) :
    MembersDistinct (applyEdit members (.remove host)) where
  named entry member := distinct.named entry (List.mem_of_mem_filter member)
  ids := distinct.ids.sublist (List.filter_sublist.filterMap _)
  hosts := distinct.hosts.sublist ((List.filter_sublist.filterMap _).map _)
  filled := by simpa [editAllowed, applyEdit] using allowed

theorem deriveContent_eq_some {edit : MemberEdit} {content next : Content}
    (derived : deriveContent edit content = some next) :
    editAllowed content.members edit = true ∧
      next = { content with members := applyEdit content.members edit } := by
  rw [deriveContent] at derived
  split at derived
  · rename_i allowed
    exact ⟨allowed, (Option.some.inj derived).symm⟩
  · cases derived

theorem membersDistinct_step (edit : MemberEdit) (content next : Content)
    (distinct : MembersDistinct content.members) (derived : deriveContent edit content = some next) :
    MembersDistinct next.members := by
  obtain ⟨allowed, rfl⟩ := deriveContent_eq_some derived
  cases edit with
  | add host => exact distinct.add allowed
  | remove host => exact distinct.remove allowed

theorem content_of_accepted {edits : List MemberEdit} {start content : Content}
    (composed : edits.foldlM (fun value edit => deriveContent edit value) start = some content) :
    content = { start with members := edits.foldl applyEdit start.members } := by
  induction edits generalizing start with
  | nil =>
      cases composed
      rfl
  | cons edit rest ih =>
      rw [List.foldlM_cons, Option.bind_eq_bind, Option.bind_eq_some_iff] at composed
      obtain ⟨next, derived, composed⟩ := composed
      obtain ⟨-, rfl⟩ := deriveContent_eq_some derived
      exact ih composed

/-! ### The edits compose -/

/-- What the installed config is after the accepted edits. -/
structure EditsCompose (initial : Document) (initialMembers : List Bson) (s : EditState) : Prop where
  distinct : ∃ members, s.installed.getArray "members" = some members ∧ MembersDistinct members
  settings : ∀ key, key ∉ rewrittenFields → s.installed.get key = initial.get key
  version : configVersion s.installed = some (1 + s.accepted.length)
  members : s.installed.getArray "members" = some (s.accepted.foldl applyEdit initialMembers)

def initialMembers (selfHost : String) : List Bson :=
  [.document [("_id", .int32 0), ("host", .string selfHost)]]

theorem initialMembers_distinct (selfHost : String) : MembersDistinct (initialMembers selfHost) where
  named := by
    rintro entry member
    rw [List.mem_singleton.1 member]
    exact ⟨rfl, rfl⟩
  ids := List.nodup_singleton 0
  hosts := List.nodup_singleton (asciiLower selfHost)
  filled := by simp [initialMembers]

/-- The content of the installed config is that of the accepted edits, and its version counts them. -/
theorem installed_content {setName selfHost : String} {s : EditState}
    (reached : (membershipEdits setName selfHost).Reachable s) :
    contentOf s.installed =
        { contentOf (rsInitiateConfig setName selfHost) with
          members := s.accepted.foldl applyEdit (initialMembers selfHost) } ∧
      configVersion s.installed = some (1 + s.accepted.length) := by
  have viewed := (config_refines_register setName selfHost).reachable reached
  have composes := VersionedRegister.composes viewed
  obtain ⟨version, versioned⟩ :=
    Option.isSome_iff_exists.1 (editInv_of_reachable reached).installed.versioned
  have counted := composes.counted
  refine ⟨content_of_accepted composes.composed, ?_⟩
  rw [versioned]
  simpa [viewEdits, versioned] using counted

/-- Whatever joiners and prune rounds read, draft and submit in any order, the installed config is the one
    the accepted edits make of the first one: none of them is lost or applied twice. -/
theorem membership_edits_compose {setName selfHost : String} {s : EditState}
    (reached : (membershipEdits setName selfHost).Reachable s) :
    EditsCompose (rsInitiateConfig setName selfHost) (initialMembers selfHost) s := by
  have complete := (editInv_of_reachable reached).installed
  obtain ⟨members, listed⟩ := Option.isSome_iff_exists.1 complete.listed
  have viewed := (config_refines_register setName selfHost).reachable reached
  obtain ⟨content, version⟩ := installed_content reached
  have membersEq : members = s.accepted.foldl applyEdit (initialMembers selfHost) := by
    rw [← contentOf_members listed, content]
  constructor
  · refine ⟨members, listed, ?_⟩
    have distinct := @VersionedRegister.value_invariant _ _ deriveContent
      (fun content => MembersDistinct content.members) membersDistinct_step _ _
      (initialMembers_distinct selfHost) _ viewed
    rwa [← contentOf_members listed]
  · intro key kept
    have same := congrFun (congrArg Content.settings content) key
    simpa [contentOf, kept] using same
  · exact version
  · rw [listed, membersEq]

/-- The config of a set of one that its second node added itself to. -/
def joinedConfig : Document :=
  [("_id", .string "rs0"), ("version", .int64 2),
    ("members", .array (initialMembers "mongo-1:27017" ++ [addedMember 1 "mongo-2:27017"]))]

def joinedState : EditState where
  installed := joinedConfig
  drafts := [(.add "mongo-2:27017", joinedConfig)]
  accepted := [.add "mongo-2:27017"]

theorem joinedState_reachable : (membershipEdits "rs0" "mongo-1:27017").Reachable joinedState :=
  .step
    (.step (.init rfl)
      (.join (configWithSeeds "mongo-2" (some "mongo-1:27017,mongo-2:27017")) "mongo-1" false (.ok ())
        (List.Mem.head _)))
    (.install (List.Mem.head _) rfl rfl (by decide))

/-- A set of one that its second node joined. -/
theorem membership_edits_compose_joined :
    EditsCompose (rsInitiateConfig "rs0" "mongo-1:27017") (initialMembers "mongo-1:27017")
      joinedState :=
  membership_edits_compose joinedState_reachable

/-! ### The reads of a whole prune round -/

theorem rowCommands_of_single {now : Instant} {dwell : Duration} {gone : GoneTracker}
    {row : MemberRow} :
    (pruneMembers now dwell gone [row]).commands = rowCommands now dwell gone row := by
  rw [pruneMembers_cons]
  by_cases ended : endsRound now dwell gone row <;> simp [ended, pruneMembers]

/-- A round is the reads of its rows: every removal it issues is one a row by itself derives. -/
theorem removeMember_of_round {now : Instant} {dwell : Duration} {gone : GoneTracker}
    {rows : List MemberRow} {host : String} {next : Document}
    (issued : .removeMember host next ∈ (pruneMembers now dwell gone rows).commands) :
    ∃ row ∈ rows, ∃ before,
      .removeMember host next ∈ (pruneMembers now dwell before [row]).commands := by
  induction rows generalizing gone with
  | nil => cases issued
  | cons row rest ih =>
      rw [pruneMembers_cons] at issued
      rcases List.mem_append.1 issued with here | later
      · exact ⟨row, List.mem_cons_self .., gone, rowCommands_of_single ▸ here⟩
      · split at later
        · cases later
        · obtain ⟨other, member, before, removed⟩ := ih later
          exact ⟨other, List.mem_cons_of_mem _ member, before, removed⟩

end MongoHa
