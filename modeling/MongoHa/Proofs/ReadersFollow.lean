/-
Module: MongoHa.Proofs.ReadersFollow
Layer: Proofs
Purpose: Where the pin and the pending rotation are read. The switchover guard and `Mongo::admin` resolve
  the data directory from the environment alone, while the tasks that write there take the dbpath of the
  arguments over it: the readers follow the writers exactly when the arguments name no other directory
  than the environment does.
Imports: MongoHa.Proofs.CallerCredential, MongoHa.Wrapper.CredentialFiles, MongoHa.Wrapper.Passthrough
Trusted boundary: none (fully proved)
Main exports: OneProcess, ReadersFollow, readers_follow_iff, guard_misses_rotation
Open obligations: none
-/
import MongoHa.Proofs.CallerCredential
import MongoHa.Wrapper.CredentialFiles
import MongoHa.Wrapper.Passthrough

namespace MongoHa.Credentials

open Foundations
open Foundations.RustStr

section

variable {δ : Type*} [DecidableEq δ]

/-- The labels of a process that is not started anew. -/
def OneProcess (labels : List Label) : Prop :=
  ∀ label ∈ labels, ∀ config, label ≠ .boots config

/-- A process keeps the configuration it was started with. -/
theorem config_run {deriveKeyfileContent : String → String} {node t : Node} {labels : List Label}
    (ran : System.Run (NodeStep deriveKeyfileContent) node labels t) (one : OneProcess labels) :
    t.config = node.config := by
  induction ran with
  | nil => rfl
  | @snoc labels label before after ran taken ih =>
      have earlier := ih fun other member => one other (List.mem_append_left _ member)
      rcases config_step taken with ⟨config, booted, -⟩ | ⟨-, kept⟩
      · exact absurd booted (one label (by simp) config)
      · rw [kept, earlier]

/-- Where the two readers of a process look, and what they read there in every run of its tasks: `main` is
    the configuration that the writers share. -/
structure ReadersFollow (deriveKeyfileContent : String → String) (directory : String → δ)
    (env : Environment) (main : Config) : Prop where
  guard : directory (dataDirFromEnv env) = directory main.dataDir
  admin : ∃ config, Config.fromEnv env = .ok config ∧ directory config.dataDir = directory main.dataDir
  /-- After every run, and so after every rotation, the guard follows the pin that was written. -/
  live : ∀ (node t : Node) (labels : List Label), node.config = main → OneProcess labels →
    System.Run (NodeStep deriveKeyfileContent) node labels t →
    ∀ (others : δ → CredentialFiles) (expected : Credential),
      requiredCredential expected env (fun dir => (t.filesAt directory others dir).pin) =
        liveCredential expected (env "MONGO_INITDB_ROOT_PASSWORD") (pinPassword t)
  /-- And an admin command follows the pending rotation. -/
  pending : ∀ (node t : Node) (labels : List Label), node.config = main → OneProcess labels →
    System.Run (NodeStep deriveKeyfileContent) node labels t →
    ∀ (others : δ → CredentialFiles) (probe : String → PasswordProbe) (password request : String),
      t.shared.pending.map Rotation.newPassword = some request → probe request = .works →
      adminPassword "127.0.0.1" env (t.filesAt directory others) probe password = request

theorem passthroughConfig_dataDir {config : Config} {args : List String} :
    (passthroughConfig config args).dataDir = (passthroughDbpath args).getD config.dataDir := rfl

theorem filesAt_dataDir {node : Node} {directory : String → δ} {dataDir : String}
    (same : directory dataDir = directory node.config.dataDir) (others : δ → CredentialFiles) :
    node.filesAt directory others dataDir =
      { pin := node.shared.pin, pending := node.shared.pending } :=
  if_pos same

/-- The readers follow the writers exactly when no dbpath among the arguments names another directory than
    the one the environment names. -/
theorem readers_follow_iff {deriveKeyfileContent : String → String} {directory : String → δ}
    {env : Environment} {config : Config} {args : List String}
    (loaded : Config.fromEnv env = .ok config) :
    ReadersFollow deriveKeyfileContent directory env (passthroughConfig config args) ↔
      ∀ dbpath, passthroughDbpath args = some dbpath →
        directory dbpath = directory (dataDirFromEnv env) := by
  obtain ⟨-, -, -, fromEnvironment⟩ := Config.fromEnv_credentials loaded
  constructor
  · intro follow dbpath named
    have same := follow.guard
    rw [passthroughConfig_dataDir, named, Option.getD_some] at same
    exact same.symm
  · intro condition
    have same : directory (dataDirFromEnv env) =
        directory (passthroughConfig config args).dataDir := by
      rw [passthroughConfig_dataDir]
      cases named : passthroughDbpath args with
      | none => rw [Option.getD_none, fromEnvironment]
      | some dbpath => rw [Option.getD_some, condition dbpath named]
    refine ⟨same, ⟨config, loaded, by rw [fromEnvironment, same]⟩, ?_, ?_⟩
    · intro node t labels started one ran others expected
      rw [← started, ← config_run ran one] at same
      rw [requiredCredential, filesAt_dataDir same]
      rfl
    · intro node t labels started one ran others probe password request staged works
      rw [← started, ← config_run ran one, ← fromEnvironment] at same
      rw [adminPassword, if_pos rfl, loaded]
      dsimp only
      rw [filesAt_dataDir same, pendingPassword, staged]
      dsimp only
      by_cases current : password = request
      · rw [if_neg (fun both => both.1 current), current]
      · rw [if_pos ⟨current, works⟩]

end

/-- The `--dbpath` repeats what the environment says. -/
theorem readers_follow_same_dbpath :
    ReadersFollow id id (passwordsEnvironment "pw" "pw")
      (passthroughConfig (passwordsConfig "pw" "pw") ["--dbpath", "/data/db"]) :=
  (readers_follow_iff rfl).2 fun dbpath named => by
    have read : passthroughDbpath ["--dbpath", "/data/db"] = some "/data/db" := by decide
    rw [read, Option.some.injEq] at named
    exact named ▸ rfl

/-! ### A dbpath of its own -/

/-- The node whose start command moves the data elsewhere, before it is asked for the member phase. -/
def movedNode : Node where
  shared :=
    { pin := .pin { password := "pw", keyfile := none }, pending := none, loaded := none
      restart := false }
  stage := .up
  config := passthroughConfig (passwordsConfig "pw" "pw") ["--dbpath", "/mnt/mongo"]
  credentials := { password := "pw", keyfile := none, envDrifted := false }
  tasks := fun _ => none

def memberPhase : Rotation :=
  { operation := .member, newPassword := "rotated", currentPassword := "pw" }

/-- The whole phase, answered with success. -/
def memberLabels : List Label :=
  [.starts (.answer (some "railway:pw") memberPhase) 0,
    .performs .rotation .readPin (some { password := "pw", keyfile := none }),
    .performs .rotation (.probeLocalPassword "rotated") .works,
    .performs .rotation (.swapPassword "rotated") (),
    .performs .rotation .loadedKeyfile none,
    .performs .rotation (.writePasswordPin "rotated" none) (.ok ()),
    .performs .rotation .hello (.ok {}),
    .ends .rotation (.answered memberPhase (.ok { leader := false }))]

theorem memberPhase_run :
    ∃ t, System.Run (NodeStep id) movedNode memberLabels t ∧ t.config = movedNode.config ∧
      t.shared.pin = .pin { password := "rotated", keyfile := none } := by
  have started := System.Run.nil.snoc (@NodeStep.starts id movedNode
    (.answer (some "railway:pw") memberPhase) 0 rfl rfl)
  have read := started.snoc (@NodeStep.performs id _ .rotation .readPin _
    (some { password := "pw", keyfile := none }) rfl rfl)
  have probed := read.snoc (@NodeStep.performs id _ .rotation (.probeLocalPassword "rotated") _ .works
    rfl trivial)
  have swapped := probed.snoc (@NodeStep.performs id _ .rotation (.swapPassword "rotated") _ ()
    rfl trivial)
  have loaded := swapped.snoc (@NodeStep.performs id _ .rotation .loadedKeyfile _ none rfl rfl)
  have written := loaded.snoc (@NodeStep.performs id _ .rotation (.writePasswordPin "rotated" none) _
    (.ok ()) rfl trivial)
  have greeted := written.snoc (@NodeStep.performs id _ .rotation .hello _ (.ok {}) rfl trivial)
  exact ⟨_, greeted.snoc (@NodeStep.ends id _ .rotation _ rfl), rfl, rfl⟩

/-- The member phase succeeds and pins the new password under `/mnt/mongo`; the guard still reads
    `/data/db` and keeps asking for the old one. -/
theorem guard_misses_rotation :
    let env := passwordsEnvironment "pw" "pw"
    let expected : Credential := { username := "railway", password := "pw" }
    let empty : CredentialFiles := { pin := .absent, pending := none }
    Config.fromEnv env = .ok (passwordsConfig "pw" "pw") ∧
      (∃ t, System.Run (NodeStep id) movedNode memberLabels t ∧
        pinPassword t = some "rotated" ∧
        liveCredential expected (some "pw") (pinPassword t) =
          { username := "railway", password := "rotated" } ∧
        requiredCredential expected env (fun dir => (t.filesAt id (fun _ => empty) dir).pin) =
          expected) ∧
      ¬ ReadersFollow id id env
        (passthroughConfig (passwordsConfig "pw" "pw") ["--dbpath", "/mnt/mongo"]) := by
  intro env expected empty
  have loaded : Config.fromEnv (passwordsEnvironment "pw" "pw") = .ok (passwordsConfig "pw" "pw") := rfl
  refine ⟨loaded, ?_, ?_⟩
  · obtain ⟨t, ran, configured, pinned⟩ := memberPhase_run
    have elsewhere : id (dataDirFromEnv env) ≠ id t.config.dataDir := by
      rw [configured]
      decide
    have there : pinPassword t = some "rotated" := by rw [pinPassword, pinned]; rfl
    refine ⟨t, ran, there, ?_, ?_⟩
    · rw [there]
      decide
    · rw [requiredCredential, Node.filesAt, if_neg elsewhere]
      rfl
  · intro follow
    exact absurd follow.guard (by decide)

end MongoHa.Credentials
