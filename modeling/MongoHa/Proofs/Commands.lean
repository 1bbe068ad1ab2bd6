/-
Module: MongoHa.Proofs.Commands
Layer: Proofs
Purpose: Which commands each part of an iteration can issue. Telemetry comes from everywhere; besides it
  the join only adds this node, the prune round only removes members, and `rs_initiate` comes from the
  safe verdict alone.
Imports: MongoHa.Wrapper.Orchestrate
Trusted boundary: none (fully proved)
Main exports: mem_addSelfThroughPrimary, mem_roleEvents, mem_initiateEvents, mem_pruneMembers,
  mem_actOnVerdict, mem_orchestrateStep, mem_dutiesStep
Open obligations: none
-/
import MongoHa.Wrapper.Orchestrate

namespace MongoHa

/-- The command is telemetry. -/
def Command.IsSend (command : Command) : Prop :=
  ∃ event, command = .send event

variable {config : Config} {command : Command}

/-- A joiner sends events and its own addition to the config it read. -/
theorem mem_addSelfThroughPrimary {primaryHost : String} {myHasData : Bool}
    {connection : PrimaryConnection}
    (issued : command ∈ (addSelfThroughPrimary config primaryHost myHasData connection).2) :
    command.IsSend ∨ ∃ current next, connection.rsConfig = .ok current ∧
      configWithMemberAdded current config.nodeId = .ok next ∧
      command = .addSelf primaryHost next := by
  have warned : ∀ text, command ∈ (if myHasData then [Command.send text] else []) →
      command.IsSend := by
    intro text member
    cases myHasData with
    | true => exact ⟨text, List.mem_singleton.1 member⟩
    | false => cases member
  unfold addSelfThroughPrimary at issued
  split at issued
  · cases issued
  · rename_i current read
    dsimp only at issued
    split at issued
    · cases issued
    · split at issued
      · exact Or.inl (warned _ issued)
      · rename_i next built
        rcases List.mem_append.1 issued with warning | reconfig
        · exact Or.inl (warned _ warning)
        · exact Or.inr ⟨current, next, read, built, List.mem_singleton.1 reconfig⟩

/-- A role read only sends events. -/
theorem mem_roleEvents {lastRole : Option String} {role : String}
    (issued : command ∈ roleEvents config lastRole role) : command.IsSend := by
  unfold roleEvents at issued
  split at issued
  · exact ⟨_, List.mem_singleton.1 issued⟩
  · split at issued
    · exact ⟨_, List.mem_singleton.1 issued⟩
    · cases issued

/-- The outcome of an initiate only sends events. -/
theorem mem_initiateEvents {outcome : MongoResult Unit}
    (issued : command ∈ initiateEvents config outcome) : command.IsSend := by
  unfold initiateEvents at issued
  split at issued
  · exact ⟨_, List.mem_singleton.1 issued⟩
  · split at issued
    · cases issued
    · exact ⟨_, List.mem_singleton.1 issued⟩

/-- A prune round sends events and removals. -/
theorem mem_pruneMembers {now : Nat} {dwell : Nat} {gone : GoneTracker}
    {rows : List (RsMember × MemberReply)}
    (issued : command ∈ (pruneMembers now dwell gone rows).commands) :
    command.IsSend ∨ ∃ host next, command = .removeMember host next := by
  -- Along the rows; only a removal that is due adds commands of its own.
  induction rows generalizing gone with
  | nil => cases issued
  | cons row rest ih =>
      obtain ⟨m, reply⟩ := row
      unfold pruneMembers at issued
      split at issued
      · exact ih issued
      · split at issued
        · exact ih issued
        · dsimp only at issued
          split at issued
          · exact ih issued
          · split at issued
            · cases issued
            · split at issued
              · exact ih issued
              · rename_i next built
                split at issued
                · rcases List.mem_cons.1 issued with removal | told
                  · exact Or.inr ⟨m.host, next, removal⟩
                  · exact Or.inl ⟨_, List.mem_singleton.1 told⟩
                · rcases List.mem_cons.1 issued with removal | later
                  · exact Or.inr ⟨m.host, next, removal⟩
                  · exact ih later

/-- What is done about a verdict is what it says. -/
theorem mem_actOnVerdict {myHasData removed : Bool} {state : OrchestrateState} {poll : Poll}
    {verdict : Verdict}
    (issued : command ∈ (actOnVerdict config myHasData removed state poll verdict).2) :
    command.IsSend ∨ (∃ primary next, verdict = .joinExisting (some primary) ∧
        command = .addSelf primary next) ∨
      (verdict = .safeToInitiate ∧ command = .initiate config.rsName config.nodeId) := by
  cases verdict with
  | joinExisting primaryHost =>
      cases primaryHost with
      | none => cases issued
      | some primary =>
          rcases mem_addSelfThroughPrimary issued with told | added
          · exact Or.inl told
          · obtain ⟨current, next, -, -, same⟩ := added
            exact Or.inr (Or.inl ⟨primary, next, rfl, same⟩)
  | safeToInitiate =>
      simp only [actOnVerdict] at issued
      split at issued
      · cases issued
      · split at issued
        · cases issued
        · rcases List.mem_cons.1 issued with initiated | told
          · exact Or.inr (Or.inr ⟨rfl, initiated⟩)
          · exact Or.inl (mem_initiateEvents told)
  | deferTo host => cases issued
  | undecidable => cases issued

/-- A poll sends events, adds this node to a live set, or initiates one. -/
theorem mem_orchestrateStep {myHasData : Bool} {state : OrchestrateState} {poll : Poll}
    (issued : command ∈ (orchestrateStep config myHasData state poll).2.commands) :
    command.IsSend ∨ (∃ primary next, command = .addSelf primary next) ∨
      command = .initiate config.rsName config.nodeId := by
  unfold orchestrateStep at issued
  split at issued
  · cases issued
  · split at issued
    · cases issued
    · rcases mem_actOnVerdict issued with told | added | initiated
      · exact Or.inl told
      · obtain ⟨primary, next, -, same⟩ := added
        exact Or.inr (Or.inl ⟨primary, next, same⟩)
      · exact Or.inr (Or.inr initiated.2)

theorem mem_pruneRound {gone : GoneTracker} {poll : Poll}
    (issued : command ∈ (pruneRound config gone poll).commands) :
    command.IsSend ∨ ∃ host next, command = .removeMember host next := by
  unfold pruneRound at issued
  split at issued
  · exact mem_pruneMembers issued
  · cases issued

/-- Member duties report and remove; they neither initiate nor add this node. -/
theorem mem_dutiesStep {state : DutiesState} {poll : Poll}
    (issued : command ∈ (dutiesStep config state poll).2.commands) :
    command.IsSend ∨ ∃ host next, command = .removeMember host next := by
  unfold dutiesStep at issued
  split at issued
  · cases issued
  · dsimp only at issued
    split at issued
    · rcases List.mem_append.1 issued with told | round
      · exact Or.inl (mem_roleEvents told)
      · exact mem_pruneRound round
    · exact Or.inl (mem_roleEvents issued)

end MongoHa
