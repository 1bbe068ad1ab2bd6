/-
Module: MongoHa.Proofs.DurableDatabase
Layer: Proofs
Purpose: The database phase over repeated attempts and failovers. When no attempt goes on from a write
  that is not majority committed, an attempt that succeeded leaves the new password settled: every member
  that may take over holds it. The attempt's first probe asks the local data only, and the document of the
  write is dropped, so a run in which no majority confirmed it answers success and loses the password.
Imports: MongoHa.Proofs.CredentialTasks, MongoHa.Wrapper.RotatingSet
Trusted boundary: none (fully proved)
Main exports: DatabasePhase, OneRotation, ProvedCommitted, databaseSound_step, database_success_durable,
  success_lost_in_failover
Open obligations: none
-/
import MongoHa.Proofs.CredentialTasks
import MongoHa.Wrapper.RotatingSet

namespace MongoHa.Credentials

open Foundations
open Foundations.Monitor

/-- The set, the request that each member's holder of the rotation lock works on, and whether a database
    request has been answered with success. -/
structure DatabasePhase (ι : Type*) extends RotatingSet ι where
  asked : ι → Option Rotation
  succeeded : Bool

section

variable {ι : Type*} [DecidableEq ι]

def onSucceeded (succeeded : Bool) : SetLabel ι → Bool
  | .node _ (.ends .rotation (.answered request (.ok _))) =>
      succeeded || request.operation == .database
  | _ => succeeded

def DatabasePhase.Step (deriveKeyfileContent : String → String) (s : DatabasePhase ι)
    (label : SetLabel ι) (t : DatabasePhase ι) : Prop :=
  SetStep deriveKeyfileContent s.toRotatingSet label t.toRotatingSet ∧
    t.asked = label.asks s.asked ∧ t.succeeded = onSucceeded s.succeeded label

/-- Every database request is one of the same rotation. -/
def OneRotation (newPassword currentPassword : String) : SetLabel ι → Prop
  | .node _ (.starts (.answer _ request) _) => request.operation = .database →
      request.newPassword = newPassword ∧ request.currentPassword = currentPassword
  | _ => True

/-- The member works on a database request. -/
def DatabasePhase.attempts (s : DatabasePhase ι) (member : ι) : Prop :=
  ∃ request, s.asked member = some request ∧ request.operation = .database

/-- An attempt finds the new password working, or has its write carried out with a write concern error, only
    once a majority holds the new password for good. -/
def ProvedCommitted (newPassword : String) (s : DatabasePhase ι) : SetLabel ι → Prop
  | .node member (.performs .rotation (.probeLocalPassword password) probe) =>
      s.attempts member → password = newPassword → probe = .works → s.user.Settled newPassword
  | .node _ (.performs .rotation (.updateUser _ password) (.ok { writeConcernError := some _ })) =>
      password = newPassword → s.user.Settled newPassword
  | _ => True

/-- The runs from a set in which no task is under way. -/
def databasePhase (deriveKeyfileContent : String → String)
    (admits : DatabasePhase ι → SetLabel ι → Prop) : System (DatabasePhase ι) :=
  System.labelled
    (fun s => (∀ member name, (s.nodes member).tasks name = none) ∧ (∀ member, s.asked member = none) ∧
      s.succeeded = false)
    (DatabasePhase.Step deriveKeyfileContent) admits

/-- What the holder of the lock knows about the new password. -/
def AttemptSound (deriveKeyfileContent : String → String) (settled : Prop) (newPassword : String)
    (asked : Option Rotation) (node : Node) : Prop :=
  ∃ known, ((∃ request, asked = some request ∧ request.operation = .database) →
      newPassword ∈ known.proven → settled) ∧
    (known.updated = some newPassword → settled) ∧
    node.Obeys .rotation (jobMonitor deriveKeyfileContent asked)
      (onOk (jobEnds deriveKeyfileContent asked)) known

/-- What holds in every state of the database phase: the tasks follow what they learned, the database
    requests are for one password, and a success leaves it settled. -/
structure DatabaseSound (deriveKeyfileContent : String → String) (newPassword : String)
    (s : DatabasePhase ι) : Prop where
  tasks : ∀ member, TasksSound deriveKeyfileContent (fun _ => True) (s.nodes member)
  asked : ∀ member request, s.asked member = some request → request.operation = .database →
    request.newPassword = newPassword
  attempts : ∀ member, AttemptSound deriveKeyfileContent (s.user.Settled newPassword) newPassword
    (s.asked member) (s.nodes member)
  succeeded : s.succeeded = true → s.user.Settled newPassword

end

variable {ι : Type*} {deriveKeyfileContent : String → String} {newPassword currentPassword : String}
  {s t : DatabasePhase ι} {label : SetLabel ι}

theorem AttemptSound.imp {settled after : Prop} {asked : Option Rotation} {node : Node}
    (grows : settled → after)
    (sound : AttemptSound deriveKeyfileContent settled newPassword asked node) :
    AttemptSound deriveKeyfileContent after newPassword asked node := by
  obtain ⟨known, proved, updated, obeys⟩ := sound
  exact ⟨known, fun attempt member => grows (proved attempt member), fun same => grows (updated same),
    obeys⟩

theorem attemptSound_idle {settled : Prop} {asked : Option Rotation} {node : Node}
    (idle : node.tasks .rotation = none) :
    AttemptSound deriveKeyfileContent settled newPassword asked node := by
  refine ⟨.nothing, nofun, nofun, fun task has => ?_⟩
  rw [idle] at has
  cases has

/-- What a step adds to the update of the job that mongod carried out. -/
theorem updated_followJob {asked : Option Rotation} {known : JobKnown} {label : Label}
    (updated : (followJob deriveKeyfileContent asked known label).updated = some newPassword) :
    known.updated = some newPassword ∨
      ∃ username reply,
        label = .performs .rotation (.updateUser username newPassword) (.ok reply) := by
  cases label with
  | starts job polls => cases updated
  | performs name effect reply =>
      simp only [followJob, follow] at updated
      split at updated
      · rename_i own
        subst own
        cases effect with
        | updateUser username password =>
            cases reply with
            | ok written =>
                obtain rfl : password = newPassword := Option.some.inj updated
                exact Or.inr ⟨username, written, rfl⟩
            | error failure => exact Or.inl updated
        | _ => exact Or.inl updated
      · exact Or.inl updated
  | _ => exact Or.inl updated

theorem attemptSound_step {settled after : Prop} {asked : Option Rotation} {node next : Node}
    {label : Label} (grows : settled → after)
    (proves : (∃ request, asked = some request ∧ request.operation = .database) →
      label.works = some (.rotation, newPassword) → after)
    (carriesOut : ∀ username reply,
      label = .performs .rotation (.updateUser username newPassword) (.ok reply) → after)
    (step : NodeStep deriveKeyfileContent node label next)
    (sound : AttemptSound deriveKeyfileContent settled newPassword asked node) :
    AttemptSound deriveKeyfileContent after newPassword (label.asks asked) next := by
  obtain ⟨known, proved, updated, obeys⟩ := sound
  refine ⟨followJob deriveKeyfileContent asked known label, ?_, ?_, job_obeys_step step obeys⟩
  · intro attempt member
    obtain ⟨proven, same⟩ := mem_followJob member
    rw [same] at attempt
    rcases proven with earlier | now
    · exact grows (proved attempt earlier)
    · exact proves attempt now
  · intro same
    rcases updated_followJob same with earlier | ⟨username, reply, now⟩
    · exact grows (updated earlier)
    · exact carriesOut username reply now

theorem databaseSound_start (idle : ∀ member name, (s.nodes member).tasks name = none)
    (unasked : ∀ member, s.asked member = none) (unanswered : s.succeeded = false) :
    DatabaseSound deriveKeyfileContent newPassword s := by
  constructor
  · exact fun member => tasksSound_idle (idle member)
  · intro member request asked
    rw [unasked] at asked
    cases asked
  · exact fun member => attemptSound_idle (idle member _)
  · intro succeeded
    rw [unanswered] at succeeded
    cases succeeded

/-- Every `updateUser` is the rotation's. -/
theorem updateUser_newPassword (sound : DatabaseSound deriveKeyfileContent newPassword s) {member : ι}
    {name : TaskName} {username password : String} {reply : MongoResult WriteReply} {node : Node}
    (step : NodeStep deriveKeyfileContent (s.nodes member)
      (.performs name (.updateUser username password) reply) node) :
    name = .rotation ∧ password = newPassword := by
  obtain rfl := updateUser_rotation (sound.tasks member) step
  obtain ⟨known, -, -, obeys⟩ := sound.attempts member
  obtain ⟨request, asked, operation, rfl⟩ := obeys_allows step obeys
  exact ⟨rfl, sound.asked member request asked operation⟩

variable [DecidableEq ι]

theorem settled_userAfter (sound : DatabaseSound deriveKeyfileContent newPassword s) {member : ι}
    {label : Label} {node : Node} {user : Replication ι String}
    (step : NodeStep deriveKeyfileContent (s.nodes member) label node)
    (written : UserAfter member label s.user user) (settled : s.user.Settled newPassword) :
    user.Settled newPassword := by
  rcases userAfter_cases written with rfl | ⟨-, name, username, password, reply, rfl, wrote⟩
  · exact settled
  · obtain ⟨-, rfl⟩ := updateUser_newPassword sound step
    rcases wrote with ⟨-, rfl⟩ | rfl
    · exact Replication.settled_acknowledge _ _
    · exact settled.write

theorem databaseSound_node (sound : DatabaseSound deriveKeyfileContent newPassword s) {member : ι}
    {label : Label} {node : Node} {user : Replication ι String}
    (step : NodeStep deriveKeyfileContent (s.nodes member) label node)
    (written : UserAfter member label s.user user)
    (one : OneRotation newPassword currentPassword (.node member label))
    (proved : ProvedCommitted newPassword s (.node member label)) :
    DatabaseSound deriveKeyfileContent newPassword
      { nodes := Function.update s.nodes member node
        user := user
        asked := SetLabel.asks s.asked (.node member label)
        succeeded := onSucceeded s.succeeded (.node member label) } := by
  have grows : s.user.Settled newPassword → user.Settled newPassword :=
    settled_userAfter sound step written
  constructor
  · intro other
    by_cases same : other = member
    · subst same
      simp only [Function.update_self]
      exact tasksSound_step (fun _ _ => trivial) (fun _ _ _ => trivial) step (sound.tasks other)
    · simp only [Function.update_of_ne same]
      exact sound.tasks other
  · intro other request asked operation
    by_cases same : other = member
    · subst same
      simp only [SetLabel.asks, Function.update_self] at asked
      cases label with
      | starts job polls =>
          cases job with
          | answer supplied wanted =>
              obtain rfl := Option.some.inj asked
              exact (one operation).1
          | reconcile => cases asked
      | _ => exact sound.asked other request asked operation
    · simp only [SetLabel.asks, Function.update_of_ne same] at asked
      exact sound.asked other request asked operation
  · intro other
    by_cases same : other = member
    · subst same
      simp only [Function.update_self, SetLabel.asks]
      refine attemptSound_step grows (fun attempt works => ?_) (fun username reply carriedOut => ?_) step
        (sound.attempts other)
      · obtain rfl := works_cases works
        exact grows (proved attempt rfl rfl)
      · subst carriedOut
        obtain ⟨unconfirmed⟩ := reply
        cases unconfirmed with
        | none =>
            obtain ⟨-, rfl⟩ := written
            exact Replication.settled_acknowledge _ _
        | some error => exact grows (proved rfl)
    · simp only [Function.update_of_ne same, SetLabel.asks]
      exact (sound.attempts other).imp grows
  · intro succeeded
    unfold onSucceeded at succeeded
    split at succeeded
    · rename_i ended request reply same
      cases same
      rcases Bool.or_eq_true_iff.1 succeeded with before | answered
      · exact grows (sound.succeeded before)
      · have operation : request.operation = .database := by simpa using answered
        obtain ⟨known, proved, updated, obeys⟩ := sound.attempts member
        obtain ⟨asked, finished⟩ := obeys_ends step obeys
        have password := sound.asked member request asked operation
        simp only [Finished, operation, password] at finished
        rcases finished with proven | acknowledged
        · exact grows (proved ⟨request, asked, operation⟩ proven)
        · exact grows (updated acknowledged)
    · exact grows (sound.succeeded succeeded)

/-- A step of a rotation that goes on from committed writes only keeps the phase sound. -/
theorem databaseSound_step (sound : DatabaseSound deriveKeyfileContent newPassword s)
    (one : OneRotation newPassword currentPassword label) (proved : ProvedCommitted newPassword s label)
    (step : s.Step deriveKeyfileContent label t) : DatabaseSound deriveKeyfileContent newPassword t := by
  obtain ⟨⟨nodes, user⟩, asked, succeeded⟩ := t
  obtain ⟨move, rfl, rfl⟩ := step
  cases move with
  | node step truthful written => exact databaseSound_node sound step written one proved
  | replicates moves =>
      refine ⟨sound.tasks, sound.asked, fun member => ?_, fun succeeded => ?_⟩
      · exact (sound.attempts member).imp fun settled => settled.moves moves
      · exact (sound.succeeded succeeded).moves moves

/-- In every run of database requests of one rotation, among any other requests, restarts and failovers,
    in which no attempt goes on from a write that is not majority committed, found by its probe or carried
    out with a write concern error: once a request succeeded, the new password is settled, and every
    member that holds what is committed enforces it. -/
theorem database_success_durable
    (reached : (databasePhase deriveKeyfileContent fun s label =>
      OneRotation newPassword currentPassword label ∧ ProvedCommitted newPassword s label).Reachable s)
    (succeeded : s.succeeded = true) :
    s.user.Settled newPassword ∧
      ∀ member, s.user.committed ≤ s.user.applied member → s.user.value member = some newPassword := by
  have sound : DatabaseSound deriveKeyfileContent newPassword s := by
    refine System.labelled_invariant (fun _ start => ?_) ?_ reached
    · exact databaseSound_start start.1 start.2.1 start.2.2
    · exact fun _ _ _ sound admitted step => databaseSound_step sound admitted.1 admitted.2 step
  have settled := sound.succeeded succeeded
  exact ⟨settled, fun member holds => settled.value holds⟩

/-! ### Two runs on three members -/

/-- Three members at rest. -/
def threeAtRest : DatabasePhase (Fin 3) where
  nodes := fun _ => restingNode
  user := .uniform "a" 0
  asked := fun _ => none
  succeeded := false

def databaseRequest : Rotation :=
  { operation := .database, newPassword := "b", currentPassword := "a" }

/-- A run led the primary here. -/
def PrimaryAt (admits : DatabasePhase (Fin 3) → SetLabel (Fin 3) → Prop)
    (tasks : TaskName → Option Running) (user : Replication (Fin 3) String) (succeeded : Bool) : Prop :=
  ∃ s, (databasePhase id admits).Reachable s ∧ s.user = user ∧ s.succeeded = succeeded ∧
    (s.nodes 0).At tasks restingNode.shared

section

variable {admits : DatabasePhase (Fin 3) → SetLabel (Fin 3) → Prop} {user : Replication (Fin 3) String}
  {succeeded : Bool} {tasks : TaskName → Option Running}

theorem primaryAt_rest : PrimaryAt admits (fun _ => none) threeAtRest.user false :=
  ⟨threeAtRest, .init ⟨fun _ _ => rfl, fun _ => rfl, rfl⟩, rfl, rfl, at_rest⟩

theorem PrimaryAt.asks (here : PrimaryAt admits tasks user succeeded) (free : tasks .rotation = none)
    (admitted : ∀ s, admits s (.node 0 (.starts (.answer (some "railway:a") databaseRequest) 1))) :
    PrimaryAt admits
      (Function.update tasks .rotation
        (some (Job.task oldConfig id 1 (.answer (some "railway:a") databaseRequest)))) user succeeded := by
  obtain ⟨s, reached, rfl, rfl, here⟩ := here
  obtain ⟨next, step, there⟩ := here.asks free (.answer (some "railway:a") databaseRequest) 1
  exact ⟨_, reached.take (t := ⟨⟨_, _⟩, _, _⟩) _ (admitted s) ⟨.node step nofun rfl, rfl, rfl⟩, rfl, rfl,
    by simpa using there⟩

/-- The next call of the holder of the lock, one that leaves the node's files as they are. -/
theorem PrimaryAt.call (here : PrimaryAt admits tasks user succeeded) (effect : Effect)
    {rest : effect.Reply → Running} (reply : effect.Reply) (after : Replication (Fin 3) String)
    (running : tasks .rotation = some (.perform effect rest))
    (answered : restingNode.shared.answers effect reply)
    (unchanged : restingNode.shared.after effect reply = restingNode.shared)
    (truthful : ∀ name password, (Label.performs .rotation effect reply).works = some (name, password) →
      user.value 0 = some password)
    (written : UserAfter 0 (.performs .rotation effect reply) user after)
    (admitted : ∀ s, admits s (.node 0 (.performs .rotation effect reply))) :
    PrimaryAt admits (Function.update tasks .rotation (some (rest reply))) after succeeded := by
  obtain ⟨s, reached, rfl, rfl, here⟩ := here
  obtain ⟨next, step, there⟩ := here.call .rotation effect reply running answered
  rw [unchanged] at there
  exact ⟨_, reached.take (t := ⟨⟨_, _⟩, _, _⟩) _ (admitted s) ⟨.node step truthful written, rfl, rfl⟩,
    rfl, rfl, by simpa using there⟩

theorem PrimaryAt.ends (here : PrimaryAt admits tasks user succeeded) (answer : RotateAnswer)
    (ended : tasks .rotation = some (.done (.answered databaseRequest answer)))
    (admitted : ∀ s, admits s (.node 0 (.ends .rotation (.answered databaseRequest answer)))) :
    PrimaryAt admits (Function.update tasks .rotation none) user
      (onSucceeded succeeded
        (.node (0 : Fin 3) (.ends .rotation (.answered databaseRequest answer)))) := by
  obtain ⟨s, reached, rfl, rfl, here⟩ := here
  obtain ⟨next, step, there⟩ := here.ends ended
  exact ⟨_, reached.take (t := ⟨⟨_, _⟩, _, _⟩) _ (admitted s) ⟨.node step nofun rfl, rfl, rfl⟩, rfl, rfl,
    by simpa using there⟩

end

/-- An attempt that mongod acknowledges. -/
theorem database_success_durable_when_acknowledged : ∃ s, (databasePhase id fun s label =>
      OneRotation "b" "a" label ∧ ProvedCommitted "b" s label).Reachable s ∧
    s.succeeded = true ∧ ∀ member : Fin 3, s.user.committed ≤ s.user.applied member →
      s.user.value member = some "b" := by
  have start : PrimaryAt (fun s label => OneRotation "b" "a" label ∧ ProvedCommitted "b" s label) _
      threeAtRest.user false := primaryAt_rest
  have asked := start.asks rfl fun _ => ⟨fun _ => ⟨rfl, rfl⟩, trivial⟩
  have authorized := asked.call .readPin _ _ rfl rfl rfl nofun rfl fun _ => ⟨trivial, trivial⟩
  have refused := authorized.call (.probeLocalPassword "b") .accessDenied _ rfl trivial rfl nofun rfl
    fun _ => ⟨trivial, nofun⟩
  have proved := refused.call (.probeLocalPassword "a") .works _ rfl trivial rfl
    (by rintro _ _ ⟨⟩; rfl) rfl fun _ => ⟨trivial, nofun⟩
  have swapped := proved.call (.swapPassword "a") () _ rfl trivial rfl nofun rfl
    fun _ => ⟨trivial, trivial⟩
  have leads := swapped.call .hello (.ok { isWritablePrimary := true }) _ rfl trivial rfl nofun rfl
    fun _ => ⟨trivial, trivial⟩
  have updated := leads.call (.updateUser "" "b") (.ok {}) _ rfl trivial rfl nofun ⟨rfl, rfl⟩
    fun _ => ⟨trivial, trivial⟩
  have swappedAgain := updated.call (.swapPassword "b") () _ rfl trivial rfl nofun rfl
    fun _ => ⟨trivial, trivial⟩
  have leadsStill := swappedAgain.call .hello (.ok { isWritablePrimary := true }) _ rfl trivial rfl nofun
    rfl fun _ => ⟨trivial, trivial⟩
  have answered := leadsStill.ends (.ok { leader := true }) rfl fun _ => ⟨trivial, trivial⟩
  obtain ⟨s, reached, -, succeeded, -⟩ := answered
  exact ⟨s, reached, succeeded, (database_success_durable reached succeeded).2⟩

/-- The first attempt's write stands on the primary alone when its call fails. The repeated request finds
    the new password working, answers success, and a failover brings the old one back. -/
theorem success_lost_in_failover : ∃ s t label,
    (databasePhase id fun _ => OneRotation "b" "a").Reachable s ∧ s.succeeded = true ∧
      s.Step id label t ∧ t.user.value t.user.primary = some "a" ∧ t.user.primary = (1 : Fin 3) := by
  have start : PrimaryAt (fun _ => OneRotation "b" "a") _ threeAtRest.user false := primaryAt_rest
  have asked := start.asks rfl fun _ _ => ⟨rfl, rfl⟩
  have authorized := asked.call .readPin _ _ rfl rfl rfl nofun rfl fun _ => trivial
  have refused := authorized.call (.probeLocalPassword "b") .accessDenied _ rfl trivial rfl nofun rfl
    fun _ => trivial
  have proved := refused.call (.probeLocalPassword "a") .works _ rfl trivial rfl
    (by rintro _ _ ⟨⟩; rfl) rfl fun _ => trivial
  have swapped := proved.call (.swapPassword "a") () _ rfl trivial rfl nofun rfl fun _ => trivial
  have leads := swapped.call .hello (.ok { isWritablePrimary := true }) _ rfl trivial rfl nofun rfl
    fun _ => trivial
  have unacknowledged := leads.call (.updateUser "" "b") (.error default) _ rfl trivial rfl nofun
    (Or.inr ⟨rfl, rfl⟩) fun _ => trivial
  have failed := unacknowledged.ends .unavailable rfl fun _ => trivial
  -- The same request again.
  have repeated := failed.asks rfl fun _ _ => ⟨rfl, rfl⟩
  have readAgain := repeated.call .readPin _ _ rfl rfl rfl nofun rfl fun _ => trivial
  have found := readAgain.call (.probeLocalPassword "b") .works _ rfl trivial rfl
    (by rintro _ _ ⟨⟩; rfl) rfl fun _ => trivial
  have swappedAgain := found.call (.swapPassword "b") () _ rfl trivial rfl nofun rfl fun _ => trivial
  have leadsStill := swappedAgain.call .hello (.ok { isWritablePrimary := true }) _ rfl trivial rfl nofun
    rfl fun _ => trivial
  have answered := leadsStill.ends (.ok { leader := true }) rfl fun _ => trivial
  obtain ⟨s, reached, user, succeeded, -⟩ := answered
  have lagging : s.user.committed ≤ s.user.applied 1 := by
    rw [user]
    exact Nat.le_refl 0
  refine ⟨s, ⟨⟨_, _⟩, _, _⟩, .replicates _, reached, succeeded,
    ⟨.replicates (.failover lagging), rfl, rfl⟩, ?_, rfl⟩
  have behind : s.user.value 1 = some "a" := by
    rw [user]
    rfl
  exact Eq.trans (@Replication.failover_value _ _ s.user 1 lagging) behind

end MongoHa.Credentials
