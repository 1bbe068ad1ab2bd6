/-
Module: MongoHa.Proofs.NoLockout
Layer: Proofs
Purpose: The members of a set through one rotation of the root password and the compensating one. The runs
  whose steps are all `Covered` refine the abstract rotation, so whatever a member's mongod enforces is the
  pin's password, the new one of the rotation file or the environment's. A compensating prepare that comes
  before the member phase overwrites the only place the member had the enforced password from.
Imports: MongoHa.Proofs.CredentialTasks, MongoHa.Spec.PasswordRotation, MongoHa.Wrapper.RotatingSet
Trusted boundary: none (fully proved)
Main exports: Node.tried, TriedMove, triedMove, PasswordRotation, PasswordStep, Ordered, Covered,
  password_refines_rotating, enforced_password_tried, compensated_member_locked_out
Open obligations: none
-/
import MongoHa.Proofs.CredentialTasks
import MongoHa.Spec.PasswordRotation
import MongoHa.Wrapper.RotatingSet

namespace MongoHa.Credentials

open Foundations
open Foundations.Monitor

/-! ### What one member tries -/

/-- The passwords the wrapper of a node tries by itself. -/
def Node.tried (node : Node) : Spec.Tried String where
  pin := pinPassword node
  pending := node.shared.pending.map Rotation.newPassword
  env := node.config.mongoRootPassword

/-- A rotation file was written. -/
def Label.prepares : Label → Bool
  | .performs _ (.savePending _) written => replaced written
  | _ => false

/-- What one step may do to what a node tries. -/
inductive TriedMove (holds : String → Prop) (node next : Node) : Label → Prop where
  | keeps {label : Label} (same : next.tried = node.tried) (unprepared : label.prepares = false) :
      TriedMove holds node next label
  | pins {label : Label} {p : String}
      (writes : label.pinWrite = some (.rotation, p) ∨ label.pinWrite = some (.resolver, p))
      (worked : holds p) (same : next.tried = { node.tried with pin := some p }) :
      TriedMove holds node next label
  | prepares {request : Rotation} {written : Except WriteFailure Unit}
      (done : replaced written = true)
      (same : next.tried = { node.tried with pending := some request.newPassword }) :
      TriedMove holds node next (.performs .rotation (.savePending request) written)
  | removes {name : TaskName} (same : next.tried = { node.tried with pending := none }) :
      TriedMove holds node next (.performs name .removePending .removed)
  | boots {config : Config} (same : next.tried = { node.tried with env := config.mongoRootPassword }) :
      TriedMove holds node next (.boots config)

section Tried

variable {deriveKeyfileContent : String → String} {holds : String → Prop} {node next : Node}
  {label : Label}

/-- The pin and the rotation file decide what a node tries, with the environment of its boot. -/
theorem tried_congr (pin : next.shared.pin = node.shared.pin)
    (pending : next.shared.pending = node.shared.pending) (config : next.config = node.config) :
    next.tried = node.tried := by
  rw [Node.tried, Node.tried, pinPassword, pinPassword, pin, pending, config]

theorem savePending_rotation (sound : TasksSound deriveKeyfileContent holds node) {name : TaskName}
    {request : Rotation} {reply : Except WriteFailure Unit}
    (step : NodeStep deriveKeyfileContent node (.performs name (.savePending request) reply) next) :
    name = .rotation :=
  rotation_of_performs sound (fun _ => id) (fun _ => id) (fun _ => id) step

/-- A call that writes the pin. -/
theorem triedMove_pin (sound : TasksSound deriveKeyfileContent holds node) {name : TaskName}
    {effect : Effect} {reply : effect.Reply}
    (step : NodeStep deriveKeyfileContent node (.performs name effect reply) next)
    (unprepared : (Label.performs name effect reply).prepares = false)
    (pending : next.shared.pending = node.shared.pending) :
    TriedMove holds node next (.performs name effect reply) := by
  have config : next.config = node.config := by
    rcases config_step step with ⟨_, same, _⟩ | ⟨-, same⟩
    · cases same
    · exact same
  have tried : next.tried = { node.tried with pin := pinPassword next } := by
    rw [Node.tried, Node.tried, pending, config]
  cases pinned : readPin next.shared.pin with
  | none =>
      rcases pin_step step with same | ⟨_, _, _, _, -, wrote⟩ | ⟨_, _, _, _, _, -, wrote⟩
      · exact .keeps (tried_congr same pending config) unprepared
      · rw [pinned] at wrote
        cases wrote
      · rw [pinned] at wrote
        cases wrote
  | some pin =>
      have now : pinPassword next = some pin.password := by rw [pinPassword, pinned]; rfl
      rcases pin_password_cases sound.supervisor sound.boot step pinned with same | writes | writes
      · refine .keeps (tried.trans ?_) unprepared
        rw [now, ← same]
        rfl
      · obtain ⟨asked, known, proven, obeys⟩ := sound.rotation
        exact .pins (Or.inl writes) (proven _ (job_pinWrite obeys step writes).1) (by rw [tried, now])
      · obtain ⟨proven, held, obeys⟩ := sound.resolver
        exact .pins (Or.inr writes) (held _ (resolver_pinWrite obeys step writes)) (by rw [tried, now])

/-- A step that leaves the pin, the rotation file and the environment as they are. -/
theorem triedMove_keeps (running : ∀ config, label ≠ .boots config) (unprepared : label.prepares = false)
    (step : NodeStep deriveKeyfileContent node label next)
    (pin : (label.onShared node.shared).pin = node.shared.pin)
    (pending : (label.onShared node.shared).pending = node.shared.pending) :
    TriedMove holds node next label := by
  have shared := shared_step step
  refine .keeps (tried_congr (by rw [shared, pin]) (by rw [shared, pending]) ?_) unprepared
  rcases config_step step with ⟨config, same, _⟩ | ⟨-, same⟩
  · exact absurd same (running config)
  · exact same

/-- What a step does to the passwords a node tries is a move of the rotation. -/
theorem triedMove (sound : TasksSound deriveKeyfileContent holds node)
    (step : NodeStep deriveKeyfileContent node label next) : TriedMove holds node next label := by
  have shared := shared_step step
  cases label with
  | boots config =>
      refine .boots ?_
      rcases config_step step with ⟨_, same, configured⟩ | ⟨running, _⟩
      · cases same
        rw [Node.tried, Node.tried, pinPassword, pinPassword, shared, configured]
        rfl
      · exact absurd rfl (running config)
  | performs name effect reply =>
      have config : next.config = node.config := by
        rcases config_step step with ⟨_, same, _⟩ | ⟨-, same⟩
        · cases same
        · exact same
      have running : ∀ config, Label.performs name effect reply ≠ .boots config :=
        fun _ same => by cases same
      cases effect with
      | writePin pin => exact triedMove_pin sound step rfl (by rw [shared]; rfl)
      | writePasswordPin password fallbackKey =>
          exact triedMove_pin sound step rfl (by rw [shared]; rfl)
      | savePending request =>
          obtain rfl := savePending_rotation sound step
          cases done : replaced reply with
          | true =>
              refine .prepares done ?_
              rw [Node.tried, Node.tried, pinPassword, pinPassword, shared, config]
              simp [Label.onShared, Shared.after, done]
          | false =>
              have same : (Label.performs .rotation (.savePending request) reply).onShared node.shared =
                  node.shared := by
                simp [Label.onShared, Shared.after, done]
              exact triedMove_keeps running done step (by rw [same]) (by rw [same])
      | removePending =>
          cases reply with
          | removed =>
              refine .removes ?_
              rw [Node.tried, Node.tried, pinPassword, pinPassword, shared, config]
              rfl
          | notFound => exact triedMove_keeps running rfl step rfl rfl
          | failed text => exact triedMove_keeps running rfl step rfl rfl
      | _ => exact triedMove_keeps running rfl step rfl rfl
  | ends name ending =>
      rcases onShared_cases (.ends name ending) node.shared with ⟨_, _, _, same⟩ | ⟨pin, pending, -⟩
      · cases same
      · exact triedMove_keeps (fun _ same => by cases same) rfl step pin pending
  | _ => exact triedMove_keeps (fun _ same => by cases same) rfl step rfl rfl

end Tried

/-! ### The set -/

/-- The set, the request that the holder of each member's rotation lock works on, whether the rotation
    under way was written to the member's volume, and whether that is the one back. -/
structure PasswordRotation (ι : Type*) extends RotatingSet ι where
  asked : ι → Option Rotation
  prepared : ι → Bool
  back : Bool

/-- A step of the set, or the client turning back. -/
inductive RotationLabel (ι : Type*) where
  | set (label : SetLabel ι)
  /-- The rotation is abandoned for the one back. -/
  | turns

section

variable {ι : Type*} [DecidableEq ι]

def onPrepared (prepared : ι → Bool) : SetLabel ι → ι → Bool
  | .node member label => Function.update prepared member (prepared member || label.prepares)
  | .replicates _ => prepared

/-- One step of the set while its password is rotated. -/
inductive PasswordStep (deriveKeyfileContent : String → String) :
    PasswordRotation ι → RotationLabel ι → PasswordRotation ι → Prop where
  | set {s : PasswordRotation ι} {label : SetLabel ι} {t : RotatingSet ι}
      (step : SetStep deriveKeyfileContent s.toRotatingSet label t) :
      PasswordStep deriveKeyfileContent s (.set label)
        { t with
          asked := label.asks s.asked
          prepared := onPrepared s.prepared label
          back := s.back }
  | turns {s : PasswordRotation ι} (forward : s.back = false) :
      PasswordStep deriveKeyfileContent s .turns { s with back := true, prepared := fun _ => false }

/-- A rotation file or a stored password is asked for by the rotation under way only, the password once
    the rotation file reached every member; any other request may come at any time. Replication loses
    nothing. -/
def Ordered (first second : String) (s : PasswordRotation ι) : RotationLabel ι → Prop
  | .set (.node _ (.starts (.answer _ request) _)) =>
      (request.operation = .prepare ∨ request.operation = .database →
        request.newPassword = Spec.target first second s.back ∧
          request.currentPassword = Spec.target first second (!s.back)) ∧
      (request.operation = .database → ∀ member, s.prepared member = true)
  | .set (.replicates user) => user.history = s.user.history
  | _ => True

/-- What keeps a member within reach of its own wrapper: the pin changes to the password that is enforced,
    unless the wrapper tries that one anyway; a compensating prepare comes to a member that tries the
    password it comes from anyway, or never gets it; a verify ends the rotation on a member that has
    nothing else left to replicate; the environment is edited where the volume covers the rest; and no
    prepare or database request of the abandoned rotation is under way when the one back begins. -/
def Covered (first second : String) (s : PasswordRotation ι) : RotationLabel ι → Prop
  | .set (.node member label) =>
      (∀ p, label.pinWrite = some (.rotation, p) ∨ label.pinWrite = some (.resolver, p) →
        ∀ v, s.user.value member = some v → v = p ∨ (s.nodes member).tried.Covers v) ∧
      (label.prepares = true → s.back = true → (s.nodes member).tried.pin = some second ∨
        (s.nodes member).tried.env = second ∨ s.user.Awaits member (· = first)) ∧
      (∀ name, label = .performs name .removePending .removed →
        s.user.Awaits member (· = Spec.target first second s.back) ∧
          ((s.nodes member).tried.pin = some (Spec.target first second s.back) ∨
            (s.nodes member).tried.env = Spec.target first second s.back)) ∧
      (∀ config, label = .boots config →
        config.mongoRootPassword = (s.nodes member).tried.env ∨ s.user.Awaits member fun v =>
          (s.nodes member).tried.pin = some v ∨ (s.nodes member).tried.pending = some v)
  | .set (.replicates _) => True
  | .turns => ∀ member request, s.asked member = some request →
      (s.nodes member).tasks .rotation ≠ none →
      request.operation ≠ .prepare ∧ request.operation ≠ .database

/-- The runs from members that all hold and are pinned with the first password. -/
def passwordRotation (deriveKeyfileContent : String → String) (first : String)
    (admits : PasswordRotation ι → RotationLabel ι → Prop) : System (PasswordRotation ι) :=
  System.labelled
    (fun s => s.back = false ∧ (∀ v ∈ s.user.history, v = first) ∧ ∀ member,
      (∀ name, (s.nodes member).tasks name = none) ∧ s.asked member = none ∧
        s.prepared member = false ∧ pinPassword (s.nodes member) = some first)
    (PasswordStep deriveKeyfileContent) admits

/-- The rotation without tasks and requests. -/
def PasswordRotation.view (s : PasswordRotation ι) : Spec.Rotating ι String where
  user := s.user
  tried member := (s.nodes member).tried
  prepared := s.prepared
  back := s.back

/-- The tasks of the members proved only passwords that were in force, and work on requests of the
    rotation under way. -/
structure PasswordSound (deriveKeyfileContent : String → String) (first second : String)
    (s : PasswordRotation ι) : Prop where
  tasks : ∀ member, TasksSound deriveKeyfileContent (s.user.Applied member) (s.nodes member)
  rotation : ∀ member, ∃ known, (s.nodes member).Obeys .rotation
    (jobMonitor deriveKeyfileContent (s.asked member))
    (onOk (jobEnds deriveKeyfileContent (s.asked member))) known
  asked : ∀ member request, s.asked member = some request → (s.nodes member).tasks .rotation ≠ none →
    (request.operation = .prepare ∨ request.operation = .database →
      request.newPassword = Spec.target first second s.back) ∧
    (request.operation = .database → ∀ member, s.prepared member = true)

end

section

variable {ι : Type*} {deriveKeyfileContent : String → String} {first second : String}
  {s t : PasswordRotation ι} {label : RotationLabel ι}

/-- An `updateUser` is the rotation's, once every member is prepared. -/
theorem updateUser_target (sound : PasswordSound deriveKeyfileContent first second s) {member : ι}
    {name : TaskName} {username password : String} {reply : MongoResult WriteReply} {node : Node}
    (step : NodeStep deriveKeyfileContent (s.nodes member)
      (.performs name (.updateUser username password) reply) node) :
    password = Spec.target first second s.back ∧ ∀ member, s.prepared member = true := by
  obtain rfl := updateUser_rotation (sound.tasks member) step
  obtain ⟨known, obeys⟩ := sound.rotation member
  obtain ⟨request, asks, operation, rfl⟩ := obeys_allows step obeys
  have running : (s.nodes member).tasks .rotation ≠ none := by
    cases step with
    | performs running answered =>
        rw [running]
        exact nofun
  obtain ⟨same, all⟩ := sound.asked member request asks running
  exact ⟨same (Or.inr operation), all operation⟩

theorem passwordSound_start (idle : ∀ member name, (s.nodes member).tasks name = none)
    (unasked : ∀ member, s.asked member = none) :
    PasswordSound deriveKeyfileContent first second s := by
  refine ⟨fun member => tasksSound_idle (idle member), fun member => ⟨.nothing, fun task has => ?_⟩,
    fun member request asks => ?_⟩
  · rw [idle] at has
    cases has
  · rw [unasked] at asks
    cases asks

variable [DecidableEq ι]

theorem extends_userAfter {member : ι} {label : Label} {user after : Replication ι String}
    (written : UserAfter member label user after) : user.Extends after := by
  rcases userAfter_cases written with rfl | ⟨-, _, _, _, _, -, ⟨-, rfl⟩ | rfl⟩
  · exact ⟨fun _ => Nat.le_refl _, fun _ _ found => found⟩
  · exact Replication.extends_acknowledge _ _
  · exact Replication.extends_write _ _

theorem passwordSound_node (sound : PasswordSound deriveKeyfileContent first second s) {member : ι}
    {label : Label} {node : Node} {user : Replication ι String}
    (ordered : Ordered first second s (.set (.node member label)))
    (step : NodeStep deriveKeyfileContent (s.nodes member) label node)
    (truthful : ∀ name password, label.works = some (name, password) →
      s.user.value member = some password)
    (written : UserAfter member label s.user user) :
    PasswordSound deriveKeyfileContent first second
      { nodes := Function.update s.nodes member node
        user := user
        asked := SetLabel.asks s.asked (.node member label)
        prepared := onPrepared s.prepared (.node member label)
        back := s.back } := by
  have more := extends_userAfter written
  have prepared : (∀ other, s.prepared other = true) →
      ∀ other, onPrepared s.prepared (.node member label) other = true := by
    intro all other
    by_cases same : other = member
    · subst same
      simp [onPrepared, all other]
    · simp [onPrepared, Function.update_of_ne same, all other]
  refine ⟨fun other => ?_, fun other => ?_, fun other request asks running => ?_⟩
  · by_cases same : other = member
    · subst same
      simp only [Function.update_self]
      refine tasksSound_step (fun _ applied => applied.extends more) (fun _ _ works => ?_) step
        (sound.tasks other)
      exact (Replication.Applied.of_value (truthful _ _ works)).extends more
    · simp only [Function.update_of_ne same]
      exact (sound.tasks other).imp fun _ applied => applied.extends more
  · by_cases same : other = member
    · subst same
      obtain ⟨known, obeys⟩ := sound.rotation other
      simp only [Function.update_self, SetLabel.asks]
      exact ⟨_, job_obeys_step step obeys⟩
    · simp only [Function.update_of_ne same, SetLabel.asks]
      exact sound.rotation other
  · by_cases same : other = member
    · subst same
      simp only [Function.update_self, SetLabel.asks] at asks running
      rcases asks_cases step asks running with ⟨supplied, polls, rfl⟩ | ⟨before, ran⟩
      · exact ⟨fun operation => (ordered.1 operation).1, fun operation => prepared (ordered.2 operation)⟩
      · obtain ⟨target, all⟩ := sound.asked other request before ran
        exact ⟨target, fun operation => prepared (all operation)⟩
    · simp only [Function.update_of_ne same, SetLabel.asks] at asks running
      obtain ⟨target, all⟩ := sound.asked other request asks running
      exact ⟨target, fun operation => prepared (all operation)⟩

theorem passwordSound_step (sound : PasswordSound deriveKeyfileContent first second s)
    (ordered : Ordered first second s label) (covered : Covered first second s label)
    (step : PasswordStep deriveKeyfileContent s label t) :
    PasswordSound deriveKeyfileContent first second t := by
  cases step with
  | set step =>
      cases step with
      | node step truthful written => exact passwordSound_node sound ordered step truthful written
      | replicates moves =>
          have more := moves.extends ordered
          exact ⟨fun member => (sound.tasks member).imp fun _ applied => applied.extends more,
            sound.rotation, sound.asked⟩
  | turns forward =>
      refine ⟨sound.tasks, sound.rotation, fun member request asks running => ?_⟩
      obtain ⟨notPrepare, notDatabase⟩ := covered member request asks running
      exact ⟨fun operation => (operation.elim notPrepare notDatabase).elim,
        fun operation => absurd operation notDatabase⟩

/-! ### The refinement -/

/-- What a step of one member leaves of the abstract rotation. -/
theorem view_node {member : ι} {label : Label} {node : Node} {user : Replication ι String} :
    PasswordRotation.view
      { nodes := Function.update s.nodes member node
        user := user
        asked := SetLabel.asks s.asked (.node member label)
        prepared := onPrepared s.prepared (.node member label)
        back := s.back } =
      { s.view.setTried member node.tried with
        user := user
        prepared := Function.update s.prepared member (s.prepared member || label.prepares) } := by
  have tried : (fun other => (Function.update s.nodes member node other).tried) =
      Function.update (fun other => (s.nodes other).tried) member node.tried :=
    Function.comp_update Node.tried s.nodes member node
  simp only [PasswordRotation.view, Spec.Rotating.setTried, onPrepared, tried]

/-- A step that writes no rotation file. -/
theorem view_unprepared {member : ι} {label : Label} {node : Node} {user : Replication ι String}
    (unprepared : label.prepares = false) :
    PasswordRotation.view
      { nodes := Function.update s.nodes member node
        user := user
        asked := SetLabel.asks s.asked (.node member label)
        prepared := onPrepared s.prepared (.node member label)
        back := s.back } =
      { s.view.setTried member node.tried with user := user } := by
  rw [view_node, unprepared, Bool.or_false, Function.update_eq_self]
  rfl

theorem user_kept {member : ι} {label : Label} {user after : Replication ι String}
    (written : UserAfter member label user after)
    (other : ∀ name username password reply,
      label ≠ .performs name (.updateUser username password) reply) : after = user := by
  rcases userAfter_cases written with same | ⟨-, _, _, _, _, rfl, _⟩
  · exact same
  · exact absurd rfl (other _ _ _ _)

theorem simulate_node (sound : PasswordSound deriveKeyfileContent first second s) {member : ι}
    {label : Label} {node : Node} {user : Replication ι String}
    (covered : Covered first second s (.set (.node member label)))
    (step : NodeStep deriveKeyfileContent (s.nodes member) label node)
    (written : UserAfter member label s.user user) {t : PasswordRotation ι}
    (after : t =
      { nodes := Function.update s.nodes member node
        user := user
        asked := SetLabel.asks s.asked (.node member label)
        prepared := onPrepared s.prepared (.node member label)
        back := s.back }) :
    Spec.Step first second s.view t.view ∨ t.view = s.view := by
  obtain ⟨current, safe, settled, edits⟩ := covered
  cases triedMove (sound.tasks member) step with
  | keeps same unprepared =>
      have view : t.view = { s.view with user := user } := by
        rw [after, view_unprepared unprepared, same]
        have unchanged : s.view.setTried member (s.nodes member).tried = s.view := by
          simp [Spec.Rotating.setTried, PasswordRotation.view]
        rw [unchanged]
      rcases userAfter_cases written with rfl | ⟨-, name, username, password, reply, rfl, wrote⟩
      · exact Or.inr view
      · obtain ⟨rfl, all⟩ := updateUser_target sound step
        rw [view]
        exact Or.inl (.writes all (wrote.symm.imp_right fun acknowledged => acknowledged.2))
  | @pins _ p writes worked same =>
      have kept : user = s.user := by
        refine user_kept written fun _ _ _ _ calls => ?_
        subst calls
        rcases writes with writes | writes <;> cases writes
      have unprepared : label.prepares = false := by
        unfold Label.pinWrite at writes
        split at writes
        · rfl
        · rfl
        · rcases writes with writes | writes <;> cases writes
      left
      rw [after, view_unprepared unprepared, same, kept]
      exact .pins worked (current p writes)
  | @prepares request reply done same =>
      have target : request.newPassword = Spec.target first second s.back := by
        obtain ⟨known, obeys⟩ := sound.rotation member
        obtain ⟨asks, operation⟩ := obeys_allows step obeys
        have running : (s.nodes member).tasks .rotation ≠ none := by
          cases step with
          | performs running answered =>
              rw [running]
              exact Option.some_ne_none _
        exact (sound.asked member request asks running).1 (Or.inl operation)
      left
      rw [after, view_node, same, target, user_kept written fun _ _ _ _ calls => by cases calls]
      have marked : (s.prepared member || (Label.performs .rotation (.savePending request) reply).prepares)
          = true := by
        simp [Label.prepares, done]
      rw [marked]
      exact .prepares (safe done)
  | @removes name same =>
      obtain ⟨awaits, held⟩ := settled name rfl
      left
      rw [after, view_unprepared rfl, same, user_kept written fun _ _ _ _ calls => by cases calls]
      exact .removes awaits held
  | @boots config same =>
      rw [after, view_unprepared rfl, same, user_kept written fun _ _ _ _ calls => by cases calls]
      rcases edits config rfl with unchanged | awaits
      · right
        rw [unchanged]
        simp [Spec.Rotating.setTried, PasswordRotation.view]
      · exact Or.inl (.edits awaits)

theorem passwordSound_of_reachable
    (reached : (passwordRotation deriveKeyfileContent first fun s label =>
      Ordered first second s label ∧ Covered first second s label).Reachable s) :
    PasswordSound deriveKeyfileContent first second s := by
  apply System.labelled_invariant _ _ reached
  · exact fun s start => passwordSound_start (fun member => (start.2.2 member).1)
      fun member => (start.2.2 member).2.1
  · exact fun s label t sound admitted step => passwordSound_step sound admitted.1 admitted.2 step

/-- The members' tasks refine the rotation without tasks. -/
theorem password_refines_rotating :
    System.Refines
      (passwordRotation deriveKeyfileContent first fun s label =>
        Ordered first second s label ∧ Covered first second s label)
      (Spec.rotating first second : System (Spec.Rotating ι String)) PasswordRotation.view where
  start s start :=
    ⟨start.1, fun member => (start.2.2 member).2.2.1, start.2.1, fun member => (start.2.2 member).2.2.2⟩
  simulate s t reached move := by
    have sound := passwordSound_of_reachable reached
    obtain ⟨label, ⟨ordered, covered⟩, step⟩ := move
    cases step with
    | set step =>
        cases step with
        | node step truthful written => exact simulate_node sound covered step written rfl
        | replicates moves => exact Or.inl (.replicates moves ordered)
    | turns forward => exact Or.inl (.turns forward)

/-- Any number of members, one rotation and the one back, with crashes, repeats and any replication delay:
    in every run whose steps are covered, the password that a member's mongod enforces is the pin's, the
    new one of the rotation file or the environment's. -/
theorem enforced_password_tried
    (reached : (passwordRotation deriveKeyfileContent first fun s label =>
      Ordered first second s label ∧ Covered first second s label).Reachable s)
    {member : ι} {password : String} (enforced : s.user.value member = some password) :
    pinPassword (s.nodes member) = some password ∨
      (s.nodes member).shared.pending.map Rotation.newPassword = some password ∨
      (s.nodes member).config.mongoRootPassword = password :=
  Spec.tried_of_reachable (password_refines_rotating.reachable reached) enforced

end

/-! ### Two runs on one member -/

/-- A set of one member at rest. -/
def aloneAtRest : PasswordRotation (Fin 1) where
  nodes := fun _ => restingNode
  user := .uniform "a" 0
  asked := fun _ => none
  prepared := fun _ => false
  back := false

/-- A run led the member here. -/
def AloneAt (admits : PasswordRotation (Fin 1) → RotationLabel (Fin 1) → Prop)
    (tasks : TaskName → Option Running) (shared : Shared) (user : Replication (Fin 1) String)
    (prepared back : Bool) : Prop :=
  ∃ s, (passwordRotation id "a" admits).Reachable s ∧ s.user = user ∧ s.prepared 0 = prepared ∧
    s.back = back ∧ (s.nodes 0).At tasks shared

section

variable {admits : PasswordRotation (Fin 1) → RotationLabel (Fin 1) → Prop}
  {tasks : TaskName → Option Running} {shared : Shared} {user : Replication (Fin 1) String}
  {prepared back : Bool}

theorem aloneAt_rest : AloneAt admits (fun _ => none) restingNode.shared aloneAtRest.user false false := by
  refine ⟨aloneAtRest, .init ⟨rfl, fun v member => ?_, fun _ => ⟨fun _ => rfl, rfl, rfl, rfl⟩⟩, rfl, rfl,
    rfl, at_rest⟩
  exact List.mem_singleton.1 member

theorem AloneAt.weaken {more : PasswordRotation (Fin 1) → RotationLabel (Fin 1) → Prop}
    (weaker : ∀ s label, admits s label → more s label)
    (here : AloneAt admits tasks shared user prepared back) :
    AloneAt more tasks shared user prepared back := by
  obtain ⟨s, reached, there⟩ := here
  exact ⟨s, reached.weaken weaker, there⟩

theorem AloneAt.asks (here : AloneAt admits tasks shared user prepared back)
    (request : Rotation) (free : tasks .rotation = none)
    (admitted : ∀ s, s.prepared 0 = prepared → s.back = back →
      admits s (.set (.node 0 (.starts (.answer (some "railway:a") request) 1)))) :
    AloneAt admits
      (Function.update tasks .rotation
        (some (Job.task oldConfig id 1 (.answer (some "railway:a") request)))) shared user prepared
      back := by
  obtain ⟨s, reached, rfl, marked, direction, here⟩ := here
  obtain ⟨next, step, there⟩ := here.asks free (.answer (some "railway:a") request) 1
  have taken := reached.take _ (admitted s marked direction) (.set (.node step nofun rfl))
  refine ⟨_, taken, rfl, ?_, direction, by simpa using there⟩
  simpa [onPrepared, Label.prepares] using marked

theorem AloneAt.call (here : AloneAt admits tasks shared user prepared back) (effect : Effect)
    {rest : effect.Reply → Running} (reply : effect.Reply) (after : Replication (Fin 1) String)
    (running : tasks .rotation = some (.perform effect rest)) (answered : shared.answers effect reply)
    (truthful : ∀ name password, (Label.performs .rotation effect reply).works = some (name, password) →
      user.value 0 = some password)
    (written : UserAfter 0 (.performs .rotation effect reply) user after)
    (admitted : ∀ s, s.back = back → admits s (.set (.node 0 (.performs .rotation effect reply)))) :
    AloneAt admits (Function.update tasks .rotation (some (rest reply))) (shared.after effect reply) after
      (prepared || (Label.performs .rotation effect reply).prepares) back := by
  obtain ⟨s, reached, rfl, marked, direction, here⟩ := here
  obtain ⟨next, step, there⟩ := here.call .rotation effect reply running answered
  have taken := reached.take _ (admitted s direction) (.set (.node step truthful written))
  refine ⟨_, taken, rfl, ?_, direction, by simpa using there⟩
  simp [onPrepared, marked]

theorem AloneAt.ends (here : AloneAt admits tasks shared user prepared back) (ending : Ending)
    (ended : tasks .rotation = some (.done ending))
    (admitted : ∀ s, s.back = back → admits s (.set (.node 0 (.ends .rotation ending)))) :
    AloneAt admits (Function.update tasks .rotation none) shared user prepared back := by
  obtain ⟨s, reached, rfl, marked, direction, here⟩ := here
  obtain ⟨next, step, there⟩ := here.ends ended
  have taken := reached.take _ (admitted s direction) (.set (.node step nofun rfl))
  refine ⟨_, taken, rfl, ?_, direction, by simpa using there⟩
  simpa [onPrepared, Label.prepares] using marked

theorem AloneAt.turns (here : AloneAt admits tasks shared user prepared false)
    (admitted : ∀ s, admits s .turns) : AloneAt admits tasks shared user false true := by
  obtain ⟨s, reached, rfl, -, direction, here⟩ := here
  exact ⟨_, reached.take _ (admitted s) (.turns direction), rfl, rfl, rfl, here⟩

end

/-- Before the way back, a step that writes no pin and removes nothing is covered. -/
theorem covered_forward {s : PasswordRotation (Fin 1)} {label : Label} (forward : s.back = false)
    (unpinned : label.pinWrite = none) (kept : ∀ name, label ≠ .performs name .removePending .removed)
    (running : ∀ config, label ≠ .boots config) : Covered "a" "b" s (.set (.node 0 label)) := by
  refine ⟨fun p writes => ?_, fun _ back => ?_, fun name same => absurd same (kept name),
    fun config same => absurd same (running config)⟩
  · rw [unpinned] at writes
    rcases writes with writes | writes <;> cases writes
  · rw [forward] at back
    cases back

/-- The same for a step that is neither a call nor a boot. -/
theorem covered_silent {s : PasswordRotation (Fin 1)} {label : Label} (forward : s.back = false)
    (unpinned : label.pinWrite = none) (silent : label.caller = none)
    (running : label.newConfig = none) : Covered "a" "b" s (.set (.node 0 label)) :=
  covered_forward forward unpinned (fun _ => caller_none silent _ _) (newConfig_none running)

def changeRequest (operation : Operation) : Rotation :=
  { operation := operation, newPassword := "b", currentPassword := "a" }

/-- The same rotation back. -/
def backRequest (operation : Operation) : Rotation :=
  { operation := operation, newPassword := "a", currentPassword := "b" }

/-- The database phase changed the stored password, and the member has it from the rotation file only. -/
theorem aloneAt_stored : ∃ tasks user,
    AloneAt (fun s label => Ordered "a" "b" s label ∧ Covered "a" "b" s label) tasks
      { restingNode.shared with pending := some (changeRequest .prepare) } user true false ∧
    tasks .rotation = none ∧ user.value 0 = some "b" := by
  have start : AloneAt (fun s label => Ordered "a" "b" s label ∧ Covered "a" "b" s label) _ _
      aloneAtRest.user false false := aloneAt_rest
  have quiet : ∀ (effect : Effect) (reply : effect.Reply),
      (Label.performs .rotation effect reply).pinWrite = none →
      (∀ name, Label.performs .rotation effect reply ≠ .performs name .removePending .removed) →
      ∀ s : PasswordRotation (Fin 1), s.back = false →
        Ordered "a" "b" s (.set (.node 0 (.performs .rotation effect reply))) ∧
          Covered "a" "b" s (.set (.node 0 (.performs .rotation effect reply))) :=
    fun _ _ unpinned kept _ forward =>
      ⟨trivial, covered_forward forward unpinned kept (newConfig_none rfl)⟩
  have prepares := start.asks (changeRequest .prepare) rfl fun s _ forward =>
    ⟨⟨fun _ => by rw [forward]; exact ⟨rfl, rfl⟩, nofun⟩, covered_silent forward rfl rfl rfl⟩
  have authorized := prepares.call .readPin _ _ rfl rfl nofun rfl (quiet _ _ rfl nofun)
  have saved := authorized.call (.savePending (changeRequest .prepare)) (.ok ()) _ rfl trivial nofun rfl
    (quiet _ _ rfl nofun)
  have prepared := saved.ends (.answered (changeRequest .prepare) (.ok { leader := false })) rfl
    fun s forward => ⟨trivial, covered_silent forward rfl rfl rfl⟩
  have asks := prepared.asks (changeRequest .database) rfl fun s marked forward =>
    ⟨⟨fun _ => by rw [forward]; exact ⟨rfl, rfl⟩, fun _ member => by
      rw [Fin.fin_one_eq_zero member]; exact marked⟩, covered_silent forward rfl rfl rfl⟩
  have authorizedAgain := asks.call .readPin _ _ rfl rfl nofun rfl (quiet _ _ rfl nofun)
  have refused := authorizedAgain.call (.probeLocalPassword "b") .accessDenied _ rfl trivial nofun rfl
    (quiet _ _ rfl nofun)
  have proved := refused.call (.probeLocalPassword "a") .works _ rfl trivial
    (by rintro _ _ ⟨⟩; rfl) rfl (quiet _ _ rfl nofun)
  have swapped := proved.call (.swapPassword "a") () _ rfl trivial nofun rfl (quiet _ _ rfl nofun)
  have leads := swapped.call .hello (.ok { isWritablePrimary := true }) _ rfl trivial nofun rfl
    (quiet _ _ rfl nofun)
  have updated := leads.call (.updateUser "" "b") (.ok {}) _ rfl trivial nofun ⟨rfl, rfl⟩
    (quiet _ _ rfl nofun)
  have swappedAgain := updated.call (.swapPassword "b") () _ rfl trivial nofun rfl (quiet _ _ rfl nofun)
  have leadsStill := swappedAgain.call .hello (.ok { isWritablePrimary := true }) _ rfl trivial nofun rfl
    (quiet _ _ rfl nofun)
  have stored := leadsStill.ends (.answered (changeRequest .database) (.ok { leader := true })) rfl
    fun s forward => ⟨trivial, covered_silent forward rfl rfl rfl⟩
  exact ⟨_, _, stored, rfl, rfl⟩

/-- Before the member phase the member follows the rotation file. -/
theorem enforced_password_tried_after_database : ∃ s : PasswordRotation (Fin 1),
    (passwordRotation id "a" fun s label =>
      Ordered "a" "b" s label ∧ Covered "a" "b" s label).Reachable s ∧
    s.user.value 0 = some "b" ∧ pinPassword (s.nodes 0) = some "a" ∧
    (pinPassword (s.nodes 0) = some "b" ∨
      (s.nodes 0).shared.pending.map Rotation.newPassword = some "b" ∨
      (s.nodes 0).config.mongoRootPassword = "b") := by
  obtain ⟨tasks, user, ⟨s, reached, same, -, -, here⟩, -, value⟩ := aloneAt_stored
  have enforced : s.user.value 0 = some "b" := by rw [same, value]
  refine ⟨s, reached, enforced, ?_, enforced_password_tried reached enforced⟩
  rw [pinPassword, here.shared]
  rfl

/-- The rotation is abandoned before its member phase. The compensating prepare puts the old password in
    the place of the new one, which the member enforces and has nowhere else. -/
theorem compensated_member_locked_out : ∃ s : PasswordRotation (Fin 1),
    (passwordRotation id "a" (Ordered "a" "b")).Reachable s ∧ s.user.value 0 = some "b" ∧
    (s.nodes 0).tried = { pin := some "a", pending := some "a", env := "a" } := by
  obtain ⟨tasks, user, stored, free, value⟩ := aloneAt_stored
  have abandoned : AloneAt (Ordered "a" "b") tasks
      { restingNode.shared with pending := some (changeRequest .prepare) } user false true :=
    (stored.weaken fun _ _ admitted => admitted.1).turns fun _ => trivial
  have asks := abandoned.asks (backRequest .prepare) free fun s _ back =>
    ⟨fun _ => by rw [back]; exact ⟨rfl, rfl⟩, nofun⟩
  have authorized := asks.call .readPin _ _ rfl rfl nofun rfl fun _ _ => trivial
  have saved := authorized.call (.savePending (backRequest .prepare)) (.ok ()) _ rfl trivial nofun rfl
    fun _ _ => trivial
  obtain ⟨s, reached, same, -, -, here⟩ := saved
  refine ⟨s, reached, by rw [same, value], ?_⟩
  rw [Node.tried, pinPassword, here.shared, here.config]
  rfl

end MongoHa.Credentials
