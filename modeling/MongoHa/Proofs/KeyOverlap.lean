/-
Module: MongoHa.Proofs.KeyOverlap
Layer: Proofs
Purpose: The keyfiles of any number of members through one rotation and the compensating one. Every pass has
  one key that all its keyfiles share, and whatever a member has pinned, loaded or is about to load is a
  keyfile of the pass. A pass ends only when every member is settled on its target, so the next one starts
  from keyfiles of its own.
Imports: MongoHa.Proofs.CredentialTasks
Trusted boundary: none (fully proved)
Main exports: Pass, Pass.keyfiles, Pass.keysOverlap_of_mem, KeyRotation, KeyStep, KeyMember,
  keyInvariant_step, loaded_keyfiles_overlap
Open obligations: none
-/
import MongoHa.Proofs.CredentialTasks

namespace MongoHa.Credentials

open Foundations
open Foundations.Monitor

/-! ### The passes and their keyfiles -/

/-- The passes of a rotation and of the one that takes it back, which starts from either pass of the
    rotation. -/
inductive Pass where
  | prepare
  | commit
  | prepareBack (committed : Bool)
  | commitBack
deriving Repr, DecidableEq, Inhabited

namespace Pass

/-- The passes of the compensating rotation. -/
def back : Pass → Bool
  | prepare | commit => false
  | prepareBack _ | commitBack => true

def committing : Pass → Bool
  | prepare | prepareBack _ => false
  | commit | commitBack => true

/-- The pass after the last member answered. -/
def next : Pass → Pass
  | prepare | commit => commit
  | prepareBack _ | commitBack => commitBack

section

variable (sha256 : List UInt8 → List UInt8) (first second : String)

/-- An operation of the rotation from the first password to the second, or of the one back. -/
def request (pass : Pass) (operation : Operation) : Rotation :=
  if pass.back then { operation := operation, newPassword := first, currentPassword := second }
  else { operation := operation, newPassword := second, currentPassword := first }

/-- Both keys in the order of the pass. -/
def both (pass : Pass) : String :=
  targetKeyfile (deriveKeyfileContent sha256) (pass.request first second .keyPrepare) true

/-- The keyfiles that can be in use during a pass. -/
def keyfiles : Pass → List String
  | prepare => [deriveKeyfileContent sha256 first, both sha256 first second prepare]
  | commit => [both sha256 first second prepare, deriveKeyfileContent sha256 second]
  | prepareBack false =>
      [deriveKeyfileContent sha256 first, both sha256 first second prepare,
        both sha256 first second commitBack]
  | prepareBack true =>
      [both sha256 first second prepare, deriveKeyfileContent sha256 second,
        both sha256 first second commitBack]
  | commitBack => [both sha256 first second commitBack, deriveKeyfileContent sha256 first]

/-- The key that all keyfiles of a pass share. -/
def shared : Pass → String
  | prepare | prepareBack false | commitBack => deriveKeyfileContent sha256 first
  | commit | prepareBack true => deriveKeyfileContent sha256 second

end

variable {sha256 : List UInt8 → List UInt8} {first second : String} {pass : Pass} {keyfile other : String}

theorem mem_keysOf_both (key : String) (same : key = first ∨ key = second) :
    deriveKeyfileContent sha256 key ∈ keysOf (both sha256 first second pass) := by
  unfold both request targetKeyfile
  cases pass.back with
  | true =>
      simp only [↓reduceIte, true_and]
      split
      · rw [keysOf_both]
        rcases same with rfl | rfl <;> simp
      · rename_i equal
        rw [keysOf_derived]
        rcases same with rfl | rfl
        · simp
        · simpa using equal
  | false =>
      simp only [Bool.false_eq_true, ↓reduceIte, true_and]
      split
      · rw [keysOf_both]
        rcases same with rfl | rfl <;> simp
      · rename_i equal
        rw [keysOf_derived]
        rcases same with rfl | rfl
        · simpa using equal
        · simp

theorem shared_mem_keysOf (member : keyfile ∈ pass.keyfiles sha256 first second) :
    pass.shared sha256 first second ∈ keysOf keyfile := by
  have alone : ∀ secret, deriveKeyfileContent sha256 secret ∈
      keysOf (deriveKeyfileContent sha256 secret) := by
    intro secret
    rw [keysOf_derived]
    exact List.mem_singleton_self _
  have one : ∀ pass, deriveKeyfileContent sha256 first ∈ keysOf (both sha256 first second pass) :=
    fun _ => mem_keysOf_both first (Or.inl rfl)
  have two : ∀ pass, deriveKeyfileContent sha256 second ∈ keysOf (both sha256 first second pass) :=
    fun _ => mem_keysOf_both second (Or.inr rfl)
  cases pass with
  | prepare =>
      rcases List.mem_pair.1 member with rfl | rfl
      · exact alone first
      · exact one _
  | commit =>
      rcases List.mem_pair.1 member with rfl | rfl
      · exact two _
      · exact alone second
  | prepareBack committed =>
      cases committed with
      | false =>
          simp only [keyfiles, List.mem_cons, List.not_mem_nil, or_false] at member
          rcases member with rfl | rfl | rfl
          · exact alone first
          · exact one _
          · exact one _
      | true =>
          simp only [keyfiles, List.mem_cons, List.not_mem_nil, or_false] at member
          rcases member with rfl | rfl | rfl
          · exact two _
          · exact alone second
          · exact two _
  | commitBack =>
      rcases List.mem_pair.1 member with rfl | rfl
      · exact one _
      · exact alone first

/-- Any two keyfiles of a pass share its key. -/
theorem keysOverlap_of_mem (left : keyfile ∈ pass.keyfiles sha256 first second)
    (right : other ∈ pass.keyfiles sha256 first second) : keysOverlap keyfile other = true :=
  keysOverlap_iff.2 ⟨_, shared_mem_keysOf left, shared_mem_keysOf right⟩

theorem keyfiles_cases (member : keyfile ∈ pass.keyfiles sha256 first second) :
    (∃ secret, keyfile = deriveKeyfileContent sha256 secret) ∨
      ∃ pass, keyfile = both sha256 first second pass := by
  cases pass with
  | prepareBack committed =>
      cases committed with
      | false =>
          simp only [keyfiles, List.mem_cons, List.not_mem_nil, or_false] at member
          rcases member with rfl | rfl | rfl
          · exact Or.inl ⟨_, rfl⟩
          · exact Or.inr ⟨_, rfl⟩
          · exact Or.inr ⟨_, rfl⟩
      | true =>
          simp only [keyfiles, List.mem_cons, List.not_mem_nil, or_false] at member
          rcases member with rfl | rfl | rfl
          · exact Or.inr ⟨_, rfl⟩
          · exact Or.inl ⟨_, rfl⟩
          · exact Or.inr ⟨_, rfl⟩
  | prepare =>
      rcases List.mem_pair.1 member with rfl | rfl
      · exact Or.inl ⟨_, rfl⟩
      · exact Or.inr ⟨_, rfl⟩
  | commit =>
      rcases List.mem_pair.1 member with rfl | rfl
      · exact Or.inr ⟨_, rfl⟩
      · exact Or.inl ⟨_, rfl⟩
  | commitBack =>
      rcases List.mem_pair.1 member with rfl | rfl
      · exact Or.inr ⟨_, rfl⟩
      · exact Or.inl ⟨_, rfl⟩

/-- A keyfile passes through an HTTP body unchanged. -/
theorem trim_of_mem (member : keyfile ∈ pass.keyfiles sha256 first second) :
    RustStr.trim keyfile = keyfile := by
  rcases keyfiles_cases member with ⟨secret, rfl⟩ | ⟨pass, rfl⟩
  · exact trim_derived _ _
  · unfold both targetKeyfile
    dsimp only
    split
    · exact trim_toText _
    · exact trim_derived _ _

/-- A key pass of the rotation that the pass belongs to; the second one only once the pass commits. -/
def Sends (pass : Pass) (first second : String) (request : Rotation) : Prop :=
  request = pass.request first second request.operation ∧
    (request.operation = .keyCommit → pass.committing = true)

variable {request : Rotation}

@[simp] theorem request_operation (operation : Operation) :
    (pass.request first second operation).operation = operation := by
  unfold Pass.request
  split <;> rfl

theorem Sends.next (sends : pass.Sends first second request) : pass.next.Sends first second request := by
  obtain ⟨same, commits⟩ := sends
  cases pass with
  | prepare => exact ⟨same, fun _ => rfl⟩
  | commit => exact ⟨same, fun _ => rfl⟩
  | prepareBack committed => exact ⟨same, fun _ => rfl⟩
  | commitBack => exact ⟨same, fun _ => rfl⟩

theorem passKeyfile_both (sends : pass.Sends first second request)
    (prepares : request.operation = .keyPrepare) :
    request.passKeyfile (deriveKeyfileContent sha256) = both sha256 first second pass := by
  obtain ⟨same, -⟩ := sends
  rw [prepares] at same
  subst same
  simp [Rotation.passKeyfile, both]

theorem both_mem (pass : Pass) : both sha256 first second pass ∈ pass.keyfiles sha256 first second := by
  cases pass with
  | prepareBack committed => cases committed <;> simp [keyfiles, both, Pass.request, back]
  | _ => simp [keyfiles, both, Pass.request, back]

theorem both_mem_next (preparing : pass.committing = false) :
    both sha256 first second pass ∈ pass.next.keyfiles sha256 first second := by
  cases pass with
  | prepare => exact List.mem_cons_self
  | prepareBack committed => exact List.mem_cons_self
  | commit => cases preparing
  | commitBack => cases preparing

/-- What a key pass pins is a keyfile of the pass. -/
theorem passKeyfile_mem (sends : pass.Sends first second request) (isPass : request.isKeyPass) :
    request.passKeyfile (deriveKeyfileContent sha256) ∈ pass.keyfiles sha256 first second := by
  rcases isPass with prepares | commits
  · rw [passKeyfile_both sends prepares]
    exact both_mem pass
  · obtain ⟨same, committing⟩ := sends
    rw [commits] at same
    subst same
    have late := committing commits
    cases pass with
    | prepare => cases late
    | prepareBack committed => cases late
    | commit => simp [Rotation.passKeyfile, keyfiles, Pass.request, back]
    | commitBack => simp [Rotation.passKeyfile, keyfiles, Pass.request, back]

/-- The compensating rotation starts from the keyfiles of the pass it takes back. -/
theorem keyfiles_compensated (forward : pass.back = false)
    (member : keyfile ∈ pass.keyfiles sha256 first second) :
    keyfile ∈ (prepareBack pass.committing).keyfiles sha256 first second := by
  cases pass with
  | prepare =>
      rcases List.mem_pair.1 member with rfl | rfl <;> simp [keyfiles, committing]
  | commit =>
      rcases List.mem_pair.1 member with rfl | rfl <;> simp [keyfiles, committing]
  | prepareBack committed => cases forward
  | commitBack => cases forward

/-- No keyfile of the rotation is the one that the way back prepares, unless there is only one key. -/
theorem eq_both_back (forward : pass.back = false)
    (found : both sha256 first second commitBack ∈ pass.keyfiles sha256 first second)
    (member : keyfile ∈ pass.keyfiles sha256 first second) :
    keyfile = both sha256 first second commitBack := by
  by_cases same : deriveKeyfileContent sha256 first = deriveKeyfileContent sha256 second
  · have only : ∀ pass, both sha256 first second pass = deriveKeyfileContent sha256 first := by
      intro pass
      cases pass <;> simp [both, targetKeyfile, Pass.request, back, same]
    cases pass with
    | prepare =>
        rcases List.mem_pair.1 member with rfl | rfl
        · rw [only]
        · rw [only, only]
    | commit =>
        rcases List.mem_pair.1 member with rfl | rfl
        · rw [only, only]
        · rw [only, same]
    | prepareBack committed => cases forward
    | commitBack => cases forward
  · exfalso
    have there : both sha256 first second commitBack =
        JsonStrings.toText [deriveKeyfileContent sha256 second, deriveKeyfileContent sha256 first] :=
      targetKeyfile_overlap sha256 (Ne.symm same)
    have here : both sha256 first second prepare =
        JsonStrings.toText [deriveKeyfileContent sha256 first, deriveKeyfileContent sha256 second] :=
      targetKeyfile_overlap sha256 same
    have turned : both sha256 first second commitBack ≠ both sha256 first second prepare := by
      rw [there, here]
      intro equal
      exact same (List.head_eq_of_cons_eq (JsonStrings.toText_injective equal)).symm
    have single : ∀ secret, both sha256 first second commitBack ≠ deriveKeyfileContent sha256 secret := by
      intro secret
      rw [there]
      exact toText_ne_derived _ _ _
    cases pass with
    | prepare =>
        rcases List.mem_pair.1 found with equal | equal
        · exact single _ equal
        · exact turned equal
    | commit =>
        rcases List.mem_pair.1 found with equal | equal
        · exact turned equal
        · exact single _ equal
    | prepareBack committed => cases forward
    | commitBack => cases forward

end Pass

/-! ### The set -/

/-- The members, the request that the holder of each member's rotation lock works on, whether the member
    answered 200 to the `key_prepare` of the rotation under way, and the pass. -/
structure KeyRotation (ι : Type*) where
  nodes : ι → Node
  asked : ι → Option Rotation
  answered : ι → Bool
  pass : Pass

/-- A step of one member, or one of the client that drives the rotation. -/
inductive KeyLabel (ι : Type*) where
  | node (member : ι) (label : Label)
  /-- Every member answered, and `key_commit` may be sent. -/
  | commits
  /-- The rotation is abandoned for the one back. -/
  | compensates

def onAnswered (answered : Bool) : Label → Bool
  | .ends .rotation (.answered request (.ok _)) => answered || request.operation == .keyPrepare
  | _ => answered

section

variable {ι : Type*} [DecidableEq ι]

/-- One step of the set while its key is rotated. -/
inductive KeyStep (sha256 : List UInt8 → List UInt8) (first second : String) :
    KeyRotation ι → KeyLabel ι → KeyRotation ι → Prop where
  /-- A member hands out the keyfile it loaded. Key requests are those of the pass; any other request may
      come at any time. -/
  | node {s : KeyRotation ι} {member : ι} {label : Label} {node : Node}
      (step : NodeStep (deriveKeyfileContent sha256) (s.nodes member) label node)
      (handedOut : ∀ name password live,
        label = .performs name (.discoverLiveSetKeyfile password) (some live) →
        ∃ peer keyfile, (s.nodes peer).shared.loaded = some keyfile ∧ live = RustStr.trim keyfile)
      (sent : ∀ supplied request polls, label = .starts (.answer supplied request) polls →
        request.isKeyPass → s.pass.Sends first second request) :
      KeyStep sha256 first second s (.node member label)
        { s with
          nodes := Function.update s.nodes member node
          asked := Function.update s.asked member (label.asks (s.asked member))
          answered := Function.update s.answered member (onAnswered (s.answered member) label) }
  | commits {s : KeyRotation ι} (prepares : s.pass.committing = false)
      (all : ∀ member, s.answered member = true) :
      KeyStep sha256 first second s .commits { s with pass := s.pass.next }
  /-- No key request of the abandoned rotation is in flight. -/
  | compensates {s : KeyRotation ι} (forward : s.pass.back = false)
      (quiet : ∀ member request, s.asked member = some request →
        (s.nodes member).tasks .rotation ≠ none → ¬ request.isKeyPass) :
      KeyStep sha256 first second s .compensates
        { s with answered := fun _ => false, pass := .prepareBack s.pass.committing }

/-- Every member is up, loaded and pinned with the key of the first password. -/
def KeyRotation.Starts (sha256 : List UInt8 → List UInt8) (first : String) (s : KeyRotation ι) : Prop :=
  s.pass = .prepare ∧ ∀ member, s.asked member = none ∧ s.answered member = false ∧
    (s.nodes member).stage = .up ∧ (∀ name, (s.nodes member).tasks name = none) ∧
    (s.nodes member).shared.loaded = some (deriveKeyfileContent sha256 first) ∧
    pinKeyfile (s.nodes member).shared.pin = some (deriveKeyfileContent sha256 first)

def keyRotation (sha256 : List UInt8 → List UInt8) (first second : String) : System (KeyRotation ι) :=
  System.labelled (KeyRotation.Starts sha256 first) (KeyStep sha256 first second) fun _ _ => True

end

/-! ### One member -/

/-- The member holds one keyfile: in its pin, loaded, and as what its supervisor is about to load. -/
structure SettledOn (keyfile : String) (target : Option String) (node : Node) : Prop where
  pinned : pinKeyfile node.shared.pin = some keyfile
  loaded : ∀ found, node.shared.loaded = some found → found = keyfile
  aimed : ∀ found, target = some found → found = keyfile

/-- What the member holds are keyfiles of the pass. -/
structure WithinPass (keyfiles : List String) (target : Option String) (node : Node) : Prop where
  pinned : ∃ keyfile ∈ keyfiles, pinKeyfile node.shared.pin = some keyfile
  loaded : ∀ keyfile, node.shared.loaded = some keyfile → keyfile ∈ keyfiles
  aimed : ∀ keyfile, target = some keyfile → keyfile ∈ keyfiles

/-- Until the pass ends, who loaded its target, saw it loaded or answered is settled on it. -/
structure Preparing (both : String) (asked : Option Rotation) (answered : Bool)
    (target : Option String) (known : JobKnown) (node : Node) : Prop where
  aimed : target = some both → pinKeyfile node.shared.pin = some both
  loaded : node.shared.loaded = some both → SettledOn both target node
  saw : (∃ request, asked = some request ∧ request.isKeyPass) → known.loaded = some both →
    SettledOn both target node
  answered : answered = true → SettledOn both target node

/-- The tasks of a member, with what its supervisor aims at and what the holder of its rotation lock
    knows. -/
structure KeyTasks (deriveKeyfileContent : String → String) (asked : Option Rotation)
    (target : Option String) (known : JobKnown) (node : Node) : Prop where
  staged : node.Staged
  resolver : ResolverSound (fun _ => True) node
  supervisor : node.Obeys .supervisor supervisorMonitor (onOk fun _ => supervisorEnds) target
  waiting : node.tasks .supervisor = none → target = none
  rotation : node.Obeys .rotation (jobMonitor deriveKeyfileContent asked)
    (onOk (jobEnds deriveKeyfileContent asked)) known
  boot : BootHeard (fun live => ∀ keyfile, pinKeyfile node.shared.pin = some keyfile →
    keysOverlap keyfile live = true) node

section Member

variable {deriveKeyfileContent : String → String} {asked : Option Rotation}
  {target after : Option String} {known : JobKnown} {node next : Node} {label : Label}

/-- What one step may do to the keyfiles of a member. -/
structure KeyMove (deriveKeyfileContent : String → String) (asked : Option Rotation)
    (target after : Option String) (node next : Node) : Prop where
  pinned : pinKeyfile next.shared.pin = pinKeyfile node.shared.pin ∨
    ∃ request, asked = some request ∧ request.isKeyPass ∧ node.tasks .rotation ≠ none ∧
      pinKeyfile next.shared.pin = some (request.passKeyfile deriveKeyfileContent)
  loaded : ∀ keyfile, next.shared.loaded = some keyfile → node.shared.loaded = some keyfile ∨
    (pinKeyfile node.shared.pin = some keyfile ∧ target = none) ∨ target = some keyfile
  aimed : ∀ keyfile, after = some keyfile →
    target = some keyfile ∨ pinKeyfile node.shared.pin = some keyfile

/-- The supervisor aims at what it aimed at before, or at the pin. -/
theorem target_step (tasks : KeyTasks deriveKeyfileContent asked target known node)
    (step : NodeStep deriveKeyfileContent node label next) :
    ∃ after, next.Obeys .supervisor supervisorMonitor (onOk fun _ => supervisorEnds) after ∧
      (next.tasks .supervisor = none → after = none) ∧
      ∀ keyfile, after = some keyfile →
        target = some keyfile ∨ pinKeyfile node.shared.pin = some keyfile := by
  by_cases idle : next.tasks .supervisor = none
  · refine ⟨none, fun task has => ?_, fun _ => rfl, nofun⟩
    rw [idle] at has
    cases has
  by_cases starts : label = .notified
  · subst starts
    refine ⟨none, ?_, fun _ => rfl, nofun⟩
    have free : node.tasks .supervisor = none := by
      cases step with
      | notified up permit waiting => exact waiting
    refine obeys_fresh free (fun task fresh => ?_) step
    cases fresh with
    | supervisor => exact restarting_meets
  · refine ⟨follow supervisorMonitor .supervisor target label, ?_, fun none_ => absurd none_ idle, ?_⟩
    · refine obeys_step (fun task fresh => ?_) step tasks.supervisor
      cases fresh with
      | supervisor => exact absurd rfl starts
    · intro keyfile aimed
      cases label with
      | performs name effect reply =>
          simp only [follow] at aimed
          split at aimed
          · cases effect with
            | readPin =>
                right
                cases step with
                | performs running answered =>
                    have read : reply = readPin node.shared.pin := answered
                    rw [read] at aimed
                    exact aimed
            | _ => exact Or.inl aimed
          · exact Or.inl aimed
      | _ => exact Or.inl aimed

/-- A boot that goes on leaves the supervisor without an aim. -/
theorem unaimed_of_boot (tasks : KeyTasks deriveKeyfileContent asked target known node) {task : Running}
    (booting : node.tasks .boot = some task) : target = none := by
  apply tasks.waiting
  by_contra busy
  obtain ⟨other, running⟩ := Option.ne_none_iff_exists'.1 busy
  have up := tasks.staged.others .supervisor other nofun running
  rw [tasks.staged.boot task booting] at up
  cases up

theorem pinned_keyStep (tasks : KeyTasks deriveKeyfileContent asked target known node)
    (step : NodeStep deriveKeyfileContent node label next) {keyfile : String}
    (pinned : pinKeyfile node.shared.pin = some keyfile) :
    pinKeyfile next.shared.pin = pinKeyfile node.shared.pin ∨
      ∃ request, asked = some request ∧ request.isKeyPass ∧ node.tasks .rotation ≠ none ∧
        pinKeyfile next.shared.pin = some (request.passKeyfile deriveKeyfileContent) := by
  rcases pin_step step with
    same | ⟨name, pin, written, rfl, -, wrote⟩ | ⟨name, password, fallbackKey, written, rfl, -, wrote⟩
  · exact Or.inl (congrArg pinKeyfile same)
  · cases name with
    | boot =>
        obtain ⟨boots, read, heard, obeys⟩ := tasks.boot
        obtain ⟨found, current, live, learned, carries, fetched, disjoint, rfl⟩ := obeys_allows step obeys
        have volume : pinKeyfile node.shared.pin = some current := by
          rw [pinKeyfile, read _ learned]
          exact carries
        rw [heard live fetched current volume] at disjoint
        cases disjoint
    | rotation =>
        obtain ⟨-, request, asks, isPass, carries⟩ := obeys_allows step tasks.rotation
        refine Or.inr ⟨request, asks, isPass, ?_, ?_⟩
        · cases step with
          | performs running answered =>
              rw [running]
              exact Option.some_ne_none _
        · rw [pinKeyfile, wrote]
          exact carries
    | resolver =>
        obtain ⟨proven, -, obeys⟩ := tasks.resolver
        exact (obeys_allows step obeys).elim
    | supervisor => exact (obeys_allows step tasks.supervisor).elim
  · left
    rw [pinKeyfile, wrote]
    simp [pinned]

theorem loaded_keyStep (tasks : KeyTasks deriveKeyfileContent asked target known node)
    (step : NodeStep deriveKeyfileContent node label next) {keyfile : String}
    (pinned : pinKeyfile node.shared.pin = some keyfile) :
    ∀ found, next.shared.loaded = some found → node.shared.loaded = some found ∨
      (pinKeyfile node.shared.pin = some found ∧ target = none) ∨ target = some found := by
  intro found loads
  rcases loaded_step step with same | gone | ⟨name, loading, reply, rfl, now⟩
  · exact Or.inl (same.symm.trans loads)
  · rw [gone] at loads
    cases loads
  · obtain rfl := Option.some.inj (now.symm.trans loads)
    right
    cases name with
    | boot =>
        left
        obtain ⟨boots, read, -, obeys⟩ := tasks.boot
        obtain ⟨pin, learned, carries⟩ := obeys_allows step obeys
        have volume := pinned
        rw [pinKeyfile, read pin learned] at volume
        rcases carries with same | none_
        · refine ⟨?_, ?_⟩
          · rw [pinned, ← volume, same]
          · cases step with
            | performs running answered => exact unaimed_of_boot tasks running
        · rw [none_] at volume
          cases volume
    | rotation => exact (obeys_allows step tasks.rotation).elim
    | resolver =>
        obtain ⟨proven, -, obeys⟩ := tasks.resolver
        exact (obeys_allows step obeys).elim
    | supervisor => exact Or.inr (obeys_allows step tasks.supervisor)

/-- What one step does to the tasks and the keyfiles of a member. -/
theorem keyTasks_step (tasks : KeyTasks deriveKeyfileContent asked target known node)
    (pinned : ∃ keyfile, pinKeyfile node.shared.pin = some keyfile)
    (heard : ∀ password live, label = .performs .boot (.discoverLiveSetKeyfile password) (some live) →
      ∀ keyfile, pinKeyfile node.shared.pin = some keyfile → keysOverlap keyfile live = true)
    (step : NodeStep deriveKeyfileContent node label next) :
    ∃ after, KeyTasks deriveKeyfileContent (label.asks asked) after
        (followJob deriveKeyfileContent asked known label) next ∧
      KeyMove deriveKeyfileContent asked target after node next := by
  obtain ⟨keyfile, pinned⟩ := pinned
  obtain ⟨after, supervisor, waiting, aimed⟩ := target_step tasks step
  have moved := pinned_keyStep tasks step pinned
  refine ⟨after, ⟨staged_step tasks.staged step, ?_, supervisor, waiting,
    job_obeys_step step tasks.rotation, ?_⟩, moved, loaded_keyStep tasks step pinned, aimed⟩
  · exact resolverSound_step (fun _ _ => trivial) (fun _ _ => trivial) step tasks.resolver
  · -- During a boot the pin stays, so what was heard still overlaps it.
    have kept : next.tasks .boot ≠ none →
        pinKeyfile next.shared.pin = pinKeyfile node.shared.pin := by
      intro busy
      rcases moved with same | ⟨request, -, -, running, -⟩
      · exact same
      · exfalso
        obtain ⟨holder, running⟩ := Option.ne_none_iff_exists'.1 running
        have up := tasks.staged.others .rotation holder nofun running
        obtain ⟨task, has⟩ := Option.ne_none_iff_exists'.1 busy
        rcases tasks_cases step has with ⟨before, -⟩ | ⟨_, _, _, -, before, -⟩ | fresh
        · rw [tasks.staged.boot _ before] at up
          cases up
        · rw [tasks.staged.boot _ before] at up
          cases up
        · cases fresh with
          | boot =>
              generalize next = target at step
              cases step with
              | boots down =>
                  rw [down] at up
                  cases up
    refine bootHeard_step tasks.staged (fun busy live overlaps keyfile same => ?_)
      (fun password live asks keyfile same => ?_) step tasks.boot
    · exact overlaps keyfile ((kept busy).symm.trans same)
    · subst asks
      refine heard password live rfl keyfile ?_
      rw [shared_step step] at same
      exact same

theorem WithinPass.step {keyfiles : List String} (within : WithinPass keyfiles target node)
    (move : KeyMove deriveKeyfileContent asked target after node next)
    (passes : ∀ request, asked = some request → node.tasks .rotation ≠ none → request.isKeyPass →
      request.passKeyfile deriveKeyfileContent ∈ keyfiles) : WithinPass keyfiles after next := by
  obtain ⟨current, listed, pinned⟩ := within.pinned
  have pin : ∀ keyfile, pinKeyfile node.shared.pin = some keyfile → keyfile ∈ keyfiles := by
    intro keyfile same
    rwa [← Option.some.inj (pinned.symm.trans same)]
  constructor
  · rcases move.pinned with same | ⟨request, asks, isPass, running, wrote⟩
    · exact ⟨current, listed, same.trans pinned⟩
    · exact ⟨_, passes request asks running isPass, wrote⟩
  · intro keyfile loads
    rcases move.loaded keyfile loads with before | ⟨carried, -⟩ | aimed
    · exact within.loaded keyfile before
    · exact pin keyfile carried
    · exact within.aimed keyfile aimed
  · intro keyfile aims
    rcases move.aimed keyfile aims with before | carried
    · exact within.aimed keyfile before
    · exact pin keyfile carried

variable {both : String}

/-- As long as only this keyfile is asked for, a settled member stays settled. -/
theorem SettledOn.step (settled : SettledOn both target node)
    (move : KeyMove deriveKeyfileContent asked target after node next)
    (passes : ∀ request, asked = some request → node.tasks .rotation ≠ none → request.isKeyPass →
      request.passKeyfile deriveKeyfileContent = both) : SettledOn both after next := by
  have pin : ∀ keyfile, pinKeyfile node.shared.pin = some keyfile → keyfile = both := by
    intro keyfile same
    exact Option.some.inj (same.symm.trans settled.pinned)
  constructor
  · rcases move.pinned with same | ⟨request, asks, isPass, running, wrote⟩
    · exact same.trans settled.pinned
    · rw [wrote, passes request asks running isPass]
  · intro keyfile loads
    rcases move.loaded keyfile loads with before | ⟨carried, -⟩ | aimed
    · exact settled.loaded keyfile before
    · exact pin keyfile carried
    · exact settled.aimed keyfile aimed
  · intro keyfile aims
    rcases move.aimed keyfile aims with before | carried
    · exact settled.aimed keyfile before
    · exact pin keyfile carried

/-- What a step adds to the keyfile that the job saw loaded last. -/
theorem loaded_followJob {keyfile : String}
    (step : NodeStep deriveKeyfileContent node label next)
    (saw : (followJob deriveKeyfileContent asked known label).loaded = some keyfile) :
    (known.loaded = some keyfile ∨ node.shared.loaded = some keyfile) ∧ label.asks asked = asked := by
  cases label with
  | starts job polls => cases saw
  | performs name effect reply =>
      refine ⟨?_, rfl⟩
      simp only [followJob, follow] at saw
      split at saw
      · cases effect with
        | loadedKeyfile =>
            right
            cases step with
            | performs running answered =>
                have read : reply = node.shared.loaded := answered
                rw [← read]
                exact saw
        | _ => exact Or.inl saw
      · exact Or.inl saw
  | _ => exact ⟨Or.inl saw, rfl⟩

theorem Preparing.step {answered : Bool} (tasks : KeyTasks deriveKeyfileContent asked target known node)
    (preparing : Preparing both asked answered target known node)
    (move : KeyMove deriveKeyfileContent asked target after node next)
    (passes : ∀ request, asked = some request → node.tasks .rotation ≠ none → request.isKeyPass →
      request.passKeyfile deriveKeyfileContent = both)
    (step : NodeStep deriveKeyfileContent node label next) :
    Preparing both (label.asks asked) (onAnswered answered label) after
      (followJob deriveKeyfileContent asked known label) next := by
  have stays : pinKeyfile node.shared.pin = some both → pinKeyfile next.shared.pin = some both := by
    intro pinned
    rcases move.pinned with same | ⟨request, asks, isPass, running, wrote⟩
    · exact same.trans pinned
    · rw [wrote, passes request asks running isPass]
  constructor
  · intro aims
    rcases move.aimed both aims with before | carried
    · exact stays (preparing.aimed before)
    · exact stays carried
  · intro loads
    have only : ∀ found, next.shared.loaded = some found → found = both :=
      fun found same => Option.some.inj (same.symm.trans loads)
    rcases move.loaded both loads with before | ⟨carried, unaimed⟩ | aims
    · exact (preparing.loaded before).step move passes
    · -- A boot loads the pin, and no supervisor runs.
      refine ⟨stays carried, only, fun found aims => ?_⟩
      rcases move.aimed found aims with earlier | same
      · rw [unaimed] at earlier
        cases earlier
      · exact Option.some.inj (same.symm.trans carried)
    · have carried := preparing.aimed aims
      refine ⟨stays carried, only, fun found later => ?_⟩
      rcases move.aimed found later with earlier | same
      · exact Option.some.inj (earlier.symm.trans aims)
      · exact Option.some.inj (same.symm.trans carried)
  · intro asks saw
    obtain ⟨loads, same⟩ := loaded_followJob step saw
    rw [same] at asks
    rcases loads with earlier | now
    · exact (preparing.saw asks earlier).step move passes
    · exact (preparing.loaded now).step move passes
  · intro answers
    unfold onAnswered at answers
    split at answers
    · rename_i request reply
      rcases Bool.or_eq_true_iff.1 answers with before | now
      · exact (preparing.answered before).step move passes
      · have prepares : request.operation = .keyPrepare := by simpa using now
        have isPass : request.isKeyPass := Or.inl prepares
        obtain ⟨asks, finished⟩ := obeys_ends step tasks.rotation
        have running : node.tasks .rotation ≠ none := by
          rw [ends_running step]
          exact nofun
        simp only [Finished, prepares, passes request asks running isPass] at finished
        exact (preparing.saw ⟨request, asks, isPass⟩ finished).step move passes
    · exact (preparing.answered answers).step move passes

end Member

/-! ### The invariant -/

variable {sha256 : List UInt8 → List UInt8} {first second : String}

/-- One member during a pass. -/
def KeyMember (sha256 : List UInt8 → List UInt8) (first second : String) (pass : Pass)
    (asked : Option Rotation) (answered : Bool) (node : Node) : Prop :=
  ∃ target known, KeyTasks (deriveKeyfileContent sha256) asked target known node ∧
    WithinPass (pass.keyfiles sha256 first second) target node ∧
    (∀ request, asked = some request → node.tasks .rotation ≠ none → request.isKeyPass →
      pass.Sends first second request) ∧
    (pass.committing = false →
      Preparing (pass.both sha256 first second) asked answered target known node)

theorem keyMember_start {node : Node} (idle : ∀ name, node.tasks name = none)
    (loaded : node.shared.loaded = some (deriveKeyfileContent sha256 first))
    (pinned : pinKeyfile node.shared.pin = some (deriveKeyfileContent sha256 first)) :
    KeyMember sha256 first second .prepare none false node := by
  have without : ∀ {name task}, node.tasks name = some task → False := by
    intro name task has
    rw [idle] at has
    cases has
  have staged : node.Staged := ⟨fun _ has => (without has).elim, fun _ _ _ has => (without has).elim⟩
  refine ⟨none, .nothing, ⟨staged, resolverSound_idle (idle _), fun _ has => (without has).elim,
    fun _ => rfl, fun _ has => (without has).elim, bootHeard_idle (idle _)⟩, ?_, nofun, fun _ => ?_⟩
  · refine ⟨⟨_, List.mem_cons_self, pinned⟩, fun keyfile same => ?_, nofun⟩
    rw [← Option.some.inj (loaded.symm.trans same)]
    exact List.mem_cons_self
  · refine ⟨nofun, fun same => ?_, nofun, nofun⟩
    -- The target of the pass is loaded only when both passwords have one key.
    have equal := loaded.symm.trans same
    exact ⟨pinned.trans equal, fun found other => Option.some.inj (other.symm.trans same), nofun⟩

theorem keyMember_node {pass : Pass} {asked : Option Rotation} {answered : Bool} {node next : Node}
    {label : Label} (holds : KeyMember sha256 first second pass asked answered node)
    (heard : ∀ password live, label = .performs .boot (.discoverLiveSetKeyfile password) (some live) →
      live ∈ pass.keyfiles sha256 first second)
    (sent : ∀ supplied request polls, label = .starts (.answer supplied request) polls →
      request.isKeyPass → pass.Sends first second request)
    (step : NodeStep (deriveKeyfileContent sha256) node label next) :
    KeyMember sha256 first second pass (label.asks asked) (onAnswered answered label) next := by
  obtain ⟨target, known, tasks, within, sends, preparing⟩ := holds
  obtain ⟨current, listed, pinned⟩ := within.pinned
  obtain ⟨after, tasks', move⟩ := keyTasks_step tasks ⟨current, pinned⟩ (fun password live asks => by
    intro keyfile same
    rw [← Option.some.inj (pinned.symm.trans same)]
    exact Pass.keysOverlap_of_mem listed (heard password live asks)) step
  refine ⟨after, _, tasks', within.step move fun request asks running isPass =>
    Pass.passKeyfile_mem (sends request asks running isPass) isPass, ?_, fun early => ?_⟩
  · intro request asks running isPass
    rcases asks_cases step asks running with ⟨supplied, polls, same⟩ | ⟨before, ran⟩
    · exact sent supplied request polls same isPass
    · exact sends request before ran isPass
  · refine (preparing early).step tasks move (fun request asks running isPass => ?_) step
    have sent := sends request asks running isPass
    rcases isPass with prepares | commits
    · exact Pass.passKeyfile_both sent prepares
    · rw [sent.2 commits] at early
      cases early

/-- A member that is settled on the target starts the next pass. -/
theorem keyMember_commits {pass : Pass} {asked : Option Rotation} {node : Node}
    (early : pass.committing = false) (holds : KeyMember sha256 first second pass asked true node) :
    KeyMember sha256 first second pass.next asked true node := by
  obtain ⟨target, known, tasks, within, sends, preparing⟩ := holds
  have settled := (preparing early).answered rfl
  have listed := @Pass.both_mem_next sha256 first second pass early
  refine ⟨target, known, tasks, ⟨⟨_, listed, settled.pinned⟩, fun keyfile loads => ?_,
    fun keyfile aims => ?_⟩, fun request asks running isPass => (sends request asks running isPass).next,
    fun again => ?_⟩
  · rw [settled.loaded keyfile loads]
    exact listed
  · rw [settled.aimed keyfile aims]
    exact listed
  · cases pass <;> cases again

/-- The way back starts with whatever the rotation left, and with none of its requests. -/
theorem keyMember_compensates {pass : Pass} {asked : Option Rotation} {answered : Bool} {node : Node}
    (forward : pass.back = false)
    (quiet : ∀ request, asked = some request → node.tasks .rotation ≠ none → ¬ request.isKeyPass)
    (holds : KeyMember sha256 first second pass asked answered node) :
    KeyMember sha256 first second (.prepareBack pass.committing) asked false node := by
  obtain ⟨target, known, tasks, within, -, -⟩ := holds
  obtain ⟨current, listed, pinned⟩ := within.pinned
  have within' : WithinPass ((Pass.prepareBack pass.committing).keyfiles sha256 first second) target
      node :=
    ⟨⟨current, Pass.keyfiles_compensated forward listed, pinned⟩,
      fun keyfile loads => Pass.keyfiles_compensated forward (within.loaded keyfile loads),
      fun keyfile aims => Pass.keyfiles_compensated forward (within.aimed keyfile aims)⟩
  -- Whoever holds the target of the way back already holds nothing else: the two keys are one.
  have settles : Pass.both sha256 first second .commitBack ∈ pass.keyfiles sha256 first second →
      SettledOn (Pass.both sha256 first second .commitBack) target node := by
    intro found
    refine ⟨?_, fun keyfile loads => ?_, fun keyfile aims => ?_⟩
    · rw [pinned, Pass.eq_both_back forward found listed]
    · exact Pass.eq_both_back forward found (within.loaded keyfile loads)
    · exact Pass.eq_both_back forward found (within.aimed keyfile aims)
  by_cases idle : node.tasks .rotation = none
  · have rotation : node.Obeys .rotation (jobMonitor (deriveKeyfileContent sha256) asked)
        (onOk (jobEnds (deriveKeyfileContent sha256) asked)) .nothing := by
      intro task has
      rw [idle] at has
      cases has
    refine ⟨target, .nothing, { tasks with rotation := rotation }, within',
      fun request _ running _ => absurd idle running, fun _ => ⟨fun aims => ?_, fun loads => ?_, ?_, ?_⟩⟩
    · exact (settles (within.aimed _ aims)).pinned
    · exact settles (within.loaded _ loads)
    · exact fun _ saw => by cases saw
    · exact nofun
  · refine ⟨target, known, tasks, within', fun request asks running isPass =>
      absurd isPass (quiet request asks running), fun _ => ⟨fun aims => ?_, fun loads => ?_, ?_, ?_⟩⟩
    · exact (settles (within.aimed _ aims)).pinned
    · exact settles (within.loaded _ loads)
    · rintro ⟨request, asks, isPass⟩ -
      exact absurd isPass (quiet request asks idle)
    · exact nofun

variable {ι : Type*} [DecidableEq ι] {s t : KeyRotation ι} {label : KeyLabel ι}

/-- Every member during the pass the set is in. -/
def KeyInvariant (sha256 : List UInt8 → List UInt8) (first second : String) (s : KeyRotation ι) : Prop :=
  ∀ member, KeyMember sha256 first second s.pass (s.asked member) (s.answered member) (s.nodes member)

/-- Every step of a key rotation keeps its invariant, whatever the members do between. -/
theorem keyInvariant_step (holds : KeyInvariant sha256 first second s)
    (step : KeyStep sha256 first second s label t) : KeyInvariant sha256 first second t := by
  intro other
  cases step with
  | @node member label node step handedOut sent =>
      by_cases same : other = member
      · subst same
        simp only [Function.update_self]
        refine keyMember_node (holds other) (fun password live asks => ?_) sent step
        obtain ⟨peer, keyfile, loads, rfl⟩ := handedOut _ _ _ asks
        obtain ⟨target, known, -, within, -⟩ := holds peer
        have listed := within.loaded keyfile loads
        rw [Pass.trim_of_mem listed]
        exact listed
      · simp only [Function.update_of_ne same]
        exact holds other
  | commits prepares all =>
      have holds := holds other
      rw [all other] at holds
      simpa [all other] using keyMember_commits prepares holds
  | compensates forward quiet =>
      exact keyMember_compensates forward (quiet other) (holds other)

/-- Any number of members, one rotation and the one back in any order of their steps: whatever two
    members have loaded shares a key. -/
theorem loaded_keyfiles_overlap (reached : (keyRotation sha256 first second).Reachable s)
    {one other : ι} {left right : String} (loadedOne : (s.nodes one).shared.loaded = some left)
    (loadedOther : (s.nodes other).shared.loaded = some right) : keysOverlap left right = true := by
  have holds : KeyInvariant sha256 first second s := by
    refine System.labelled_invariant (fun s start member => ?_) ?_ reached
    · obtain ⟨pass, each⟩ := start
      obtain ⟨unasked, unanswered, -, idle, loaded, pinned⟩ := each member
      rw [pass, unasked, unanswered]
      exact keyMember_start idle loaded pinned
    · exact fun _ _ _ holds _ step => keyInvariant_step holds step
  obtain ⟨_, _, -, within, -⟩ := holds one
  obtain ⟨_, _, -, within', -⟩ := holds other
  exact Pass.keysOverlap_of_mem (within.loaded left loadedOne) (within'.loaded right loadedOther)

/-! ### A member ahead of the other -/

/-- A member at rest, loaded and pinned with the key of `a`. -/
def keyedNode : Node :=
  { restingNode with
    shared :=
      { restingNode.shared with
        pin := .pin { password := "a", keyfile := some (deriveKeyfileContent id "a") }
        loaded := some (deriveKeyfileContent id "a") } }

def twoKeyed : KeyRotation (Fin 2) where
  nodes := fun _ => keyedNode
  asked := fun _ => none
  answered := fun _ => false
  pass := .prepare

/-- A run of the first pass led the first of two members here, and the other one is at rest. -/
def FirstAt (tasks : TaskName → Option Running) (shared : Shared) : Prop :=
  ∃ s : KeyRotation (Fin 2), (keyRotation id "a" "b").Reachable s ∧ s.pass = .prepare ∧
    (s.nodes 0).At tasks shared ∧ s.nodes 1 = keyedNode

theorem firstAt_rest : FirstAt (fun _ => none) keyedNode.shared :=
  ⟨twoKeyed, .init ⟨rfl, fun _ => ⟨rfl, rfl, rfl, fun _ => rfl, rfl, rfl⟩⟩, rfl, ⟨rfl, rfl, rfl, rfl⟩, rfl⟩

section

variable {tasks : TaskName → Option Running} {shared : Shared}

theorem FirstAt.call (here : FirstAt tasks shared) (name : TaskName) (effect : Effect)
    {rest : effect.Reply → Running} (reply : effect.Reply)
    (running : tasks name = some (.perform effect rest)) (answered : shared.answers effect reply)
    (local_ : ∀ password, effect ≠ .discoverLiveSetKeyfile password) :
    FirstAt (Function.update tasks name (some (rest reply))) (shared.after effect reply) := by
  obtain ⟨s, reached, pass, here, other⟩ := here
  obtain ⟨next, step, there⟩ := here.call name effect reply running answered
  refine ⟨_, reached.take (.node 0 _) trivial (.node step (fun _ password _ same => ?_) nofun), pass,
    by simpa using there, by simpa using other⟩
  cases same
  exact absurd rfl (local_ password)

theorem FirstAt.asks (here : FirstAt tasks shared) (free : tasks .rotation = none) (request : Rotation)
    (sent : request.isKeyPass → Pass.Sends .prepare "a" "b" request) :
    FirstAt (Function.update tasks .rotation
      (some (Job.task oldConfig (deriveKeyfileContent id) 1 (.answer (some "railway:a") request))))
      shared := by
  obtain ⟨s, reached, pass, here, other⟩ := here
  obtain ⟨next, step, there⟩ := here.asks free (.answer (some "railway:a") request) 1
  refine ⟨_, reached.take (.node 0 _) trivial (.node step nofun fun _ _ _ same isPass => ?_), pass,
    by simpa using there, by simpa using other⟩
  cases same
  rw [pass]
  exact sent isPass

theorem FirstAt.notified (here : FirstAt tasks shared) (waiting : tasks .supervisor = none)
    (permit : shared.restart = true) :
    FirstAt (Function.update tasks .supervisor (some restarting)) { shared with restart := false } := by
  obtain ⟨s, reached, pass, here, other⟩ := here
  obtain ⟨next, step, there⟩ := here.notified waiting permit
  exact ⟨_, reached.take (.node 0 _) trivial (.node step nofun nofun), pass, by simpa using there,
    by simpa using other⟩

end

def healthyStatus : RsStatus :=
  .active "rs0" 1 "PRIMARY"
    [{ id := 0, host := "mongo-1:27017", state := 1, stateStr := "PRIMARY", healthy := true,
       isSelf := true, optimeSecs := none }] (some 1)

/-- The first member loaded both keys for the first pass, and the other one still has the old key. -/
theorem loaded_keyfiles_overlap_midway : ∃ s : KeyRotation (Fin 2),
    (keyRotation id "a" "b").Reachable s ∧
    (s.nodes 0).shared.loaded = some (Pass.both id "a" "b" .prepare) ∧
    (s.nodes 1).shared.loaded = some (deriveKeyfileContent id "a") ∧
    keysOverlap (Pass.both id "a" "b" .prepare) (deriveKeyfileContent id "a") = true := by
  have asked := firstAt_rest.asks rfl (Pass.request "a" "b" .prepare .keyPrepare) fun _ => ⟨rfl, nofun⟩
  have authorized := asked.call .rotation .readPin _ rfl rfl nofun
  have proved := authorized.call .rotation (.probeLocalPassword "b") .works rfl trivial nofun
  have compared := proved.call .rotation .loadedKeyfile _ rfl rfl nofun
  have healthy := compared.call .rotation .rsStatus (.ok healthyStatus) rfl trivial nofun
  have pinned := healthy.call .rotation
    (.writePin { password := "b", keyfile := some (Pass.both id "a" "b" .prepare) }) (.ok ()) rfl trivial
    nofun
  have notified := pinned.call .rotation .notifyRestart () rfl trivial nofun
  have supervised := notified.notified rfl rfl
  have aimed := supervised.call .supervisor .readPin _ rfl rfl nofun
  have differs := aimed.call .supervisor .loadedKeyfile _ rfl rfl nofun
  have secondary := differs.call .supervisor .hello (.ok {}) rfl trivial nofun
  have handedOff := secondary.call .supervisor .hello (.ok {}) rfl trivial nofun
  have written := handedOff.call .supervisor
    (.writeKeyfileContent (Pass.both id "a" "b" .prepare)) (.ok ()) rfl trivial nofun
  have restarted := written.call .supervisor .restartMongod (.ok ()) rfl trivial nofun
  have loaded := restarted.call .supervisor (.setLoadedKeyfile (Pass.both id "a" "b" .prepare)) () rfl
    trivial nofun
  obtain ⟨s, reached, -, here, other⟩ := loaded
  have ahead : (s.nodes 0).shared.loaded = some (Pass.both id "a" "b" .prepare) := by
    rw [here.shared]
    rfl
  have behind : (s.nodes 1).shared.loaded = some (deriveKeyfileContent id "a") := by
    rw [other]
    rfl
  exact ⟨s, reached, ahead, behind, loaded_keyfiles_overlap reached ahead behind⟩

end MongoHa.Credentials
