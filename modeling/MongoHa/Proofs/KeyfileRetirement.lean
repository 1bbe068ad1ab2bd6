/-
Module: MongoHa.Proofs.KeyfileRetirement
Layer: Proofs
Purpose: What a revert leaves on the volume. A standalone boot resolves no keyfile of its own, and every
  password write keeps the keyfile it finds, so no sequence of standalone boots changes the keyfile of the
  pin; the marker goes with the first removal that succeeds. `keyfile_retired_iff` says for which volumes
  the replay is therefore over once a reverted boot has proven its password.
Imports: MongoHa.Proofs.OplogReplay
Trusted boundary: none (fully proved)
Main exports: BootPhase.boot, Reverting, reverting_of_run, keyfile_retired_iff,
  keyfile_retired_marker_only, revert_keeps_keyfile
Open obligations: none
-/
import MongoHa.Proofs.OplogReplay

namespace MongoHa

open Foundations

/-- The standalone boot under way in a phase. -/
def BootPhase.boot : BootPhase → Option StandaloneBoot
  | .saReplaying boot | .saClearing boot | .saSpawning boot | .saRunning boot => some boot
  | _ => none

/-- The boot of a phase replayed, or is about to. -/
def BootPhase.replays : BootPhase → Prop
  | .saReplaying _ => True
  | .saClearing boot | .saSpawning boot | .saRunning boot => boot.replayed = true
  | _ => False

theorem replays_of_background {phase : BootPhase} {boot : StandaloneBoot}
    (running : phase.background = some boot) : phase.replays ↔ boot.replayed = true := by
  rcases background_cases running with rfl | rfl
  · rfl
  · rfl

theorem boot_of_background {phase : BootPhase} {boot : StandaloneBoot}
    (running : phase.background = some boot) : phase.boot = some boot := by
  rcases background_cases running with rfl | rfl
  · rfl
  · rfl

theorem background_withBoot {phase : BootPhase} {boot next : StandaloneBoot}
    (running : phase.background = some boot) : (phase.withBoot next).background = some next := by
  rcases background_cases running with rfl | rfl
  · rfl
  · rfl

theorem not_isHa_of_background {phase : BootPhase} {boot : StandaloneBoot}
    (running : phase.background = some boot) : ¬ phase.isHa := by
  rcases background_cases running with rfl | rfl
  · exact id
  · exact id

section Entry

variable {deriveKeyfileContent : String → String} {volume : Volume} {envPassword : String}

theorem entry_not_isHa {boot : StandaloneBoot} : ¬ (standaloneEntry volume boot).isHa := by
  rcases standaloneEntry_cases volume boot with ⟨entered, _⟩ | ⟨entered, _⟩ | ⟨entered, _, _⟩
  all_goals
    rw [entered]
    exact id

theorem entry_noKeyfile {boot : StandaloneBoot}
    (entered : (standaloneEntry volume
      (standaloneBoot deriveKeyfileContent volume envPassword)).boot = some boot) :
    boot.credentials.keyfile = none := by
  have resolved := resolveBootCredentials_standalone deriveKeyfileContent (readPin volume.pin)
    envPassword
  rcases standaloneEntry_cases volume (standaloneBoot deriveKeyfileContent volume envPassword) with
    ⟨phase, _⟩ | ⟨phase, _⟩ | ⟨phase, _, _⟩
  all_goals
    rw [phase] at entered
    cases entered
    exact resolved

theorem entry_replays (replays : (standaloneEntry volume
    (standaloneBoot deriveKeyfileContent volume envPassword)).replays) : volume.hasData = true := by
  rcases standaloneEntry_cases volume (standaloneBoot deriveKeyfileContent volume envPassword) with
    ⟨phase, _⟩ | ⟨_, present⟩ | ⟨_, present, _⟩
  · rw [phase] at replays
    cases replays
  · exact present
  · exact present

end Entry

/-- What standalone boots keep of the volume `first` they started on, with the labels so far. -/
structure Reverting (first : Volume) (labels : List BootLabel) (s : BootState) : Prop where
  standalone : ¬ s.phase.isHa
  noKeyfile : ∀ boot, s.phase.boot = some boot → boot.credentials.keyfile = none
  keyfile : pinKeyfile s.volume.pin = pinKeyfile first.pin
  marker : s.volume.marker = true ↔ first.marker = true ∧ .clear true ∉ labels
  replaysData : s.phase.replays → s.volume.hasData = true
  revertedData : s.reverted = true → s.volume.hasData = true

variable {deriveKeyfileContent : String → String} {first : Volume} {labels : List BootLabel}
  {s t : BootState}

theorem Reverting.step {label : BootLabel} (kept : Reverting first labels s)
    (standalone : label.isHa = false) (taken : BootStep deriveKeyfileContent s label t) :
    Reverting first (labels ++ [label]) t := by
  have present := hasData_kept taken
  have replaysData : s.phase.replays → t.volume.hasData = true := present ∘ kept.replaysData
  have revertedData : s.reverted = true → t.volume.hasData = true := present ∘ kept.revertedData
  cases taken with
  | bootHa down => cases standalone
  | mark marking => cases standalone
  | spawnHa spawning => cases standalone
  | replSetOpens entrypoint visible => cases standalone
  | haPin ha => cases standalone
  | bootStandalone down =>
      exact {
        standalone := entry_not_isHa
        noKeyfile := fun _ entered => entry_noKeyfile entered
        keyfile := kept.keyfile
        marker := by simpa using kept.marker
        replaysData := entry_replays
        revertedData := revertedData }
  | @replaySucceeds boot run outcome replaying ended =>
      exact {
        standalone := id
        noKeyfile := by
          intro next entered
          cases entered
          exact kept.noKeyfile boot (by rw [replaying]; rfl)
        keyfile := kept.keyfile
        marker := by simpa using kept.marker
        replaysData := fun _ => replaysData (by rw [replaying]; trivial)
        revertedData := revertedData }
  | replayFails replaying ended =>
      exact {
        standalone := id
        noKeyfile := nofun
        keyfile := kept.keyfile
        marker := by simpa using kept.marker
        replaysData := False.elim
        revertedData := revertedData }
  | @clear boot removed clearing =>
      exact {
        standalone := id
        noKeyfile := by
          intro next entered
          cases entered
          exact kept.noKeyfile boot (by rw [clearing]; rfl)
        keyfile := kept.keyfile
        marker := by
          cases removed with
          | true => simp [clearReplsetMarker]
          | false => simpa [clearReplsetMarker] using kept.marker
        replaysData := fun replayed => replaysData (by rw [clearing]; exact replayed)
        revertedData := revertedData }
  | spawnStandalone spawning =>
      exact {
        standalone := id
        noKeyfile := by
          intro boot entered
          cases entered
          exact kept.noKeyfile _ (by rw [spawning]; rfl)
        keyfile := kept.keyfile
        marker := by simpa using kept.marker
        replaysData := fun replayed => replaysData (by rw [spawning]; exact replayed)
        revertedData := revertedData }
  | @resolve boot resolver poll background resolving =>
      have noKeyfile := kept.noKeyfile boot (boot_of_background background)
      have running := @background_withBoot _ _
        { boot with
          resolver := (resolverRound boot.credentials boot.envPassword resolver s.volume.pin
            poll).next } background
      exact {
        standalone := not_isHa_of_background running
        noKeyfile := by
          intro next entered
          cases (boot_of_background running).symm.trans entered
          exact noKeyfile
        keyfile := (resolverRound_keyfile noKeyfile _ _ _ _).trans kept.keyfile
        marker := by simpa using kept.marker
        replaysData := fun replays =>
          replaysData ((replays_of_background background).2 ((replays_of_background running).1 replays))
        revertedData := by
          intro reverted
          rcases Bool.or_eq_true_iff.1 reverted with before | now
          · exact revertedData before
          · obtain ⟨replayed, _⟩ := Bool.and_eq_true_iff.1 now
            exact replaysData ((replays_of_background background).2 replayed) }
  | rotateMember background =>
      exact {
        standalone := kept.standalone
        noKeyfile := kept.noKeyfile
        keyfile := (writePasswordPin_keyfile _ _ _).trans kept.keyfile
        marker := by simpa using kept.marker
        replaysData := replaysData
        revertedData := revertedData }
  | mongodWrites up visible =>
      exact {
        standalone := kept.standalone
        noKeyfile := kept.noKeyfile
        keyfile := kept.keyfile
        marker := by simpa using kept.marker
        replaysData := replaysData
        revertedData := revertedData }
  | stop =>
      exact {
        standalone := id
        noKeyfile := nofun
        keyfile := kept.keyfile
        marker := by simpa using kept.marker
        replaysData := False.elim
        revertedData := revertedData }

/-- Along standalone boots the record of a reverted volume says what they did. -/
theorem reverting_of_run (down : s.phase = .down) (unreverted : s.reverted = false)
    (ran : System.Run (BootStep deriveKeyfileContent) s labels t)
    (standalone : ∀ label ∈ labels, label.isHa = false) : Reverting s.volume labels t := by
  induction ran with
  | nil =>
      refine ⟨?_, ?_, rfl, by simp, ?_, ?_⟩
      · rw [down]
        exact id
      · rw [down]
        exact nofun
      · rw [down]
        exact False.elim
      · rw [unreverted]
        exact nofun
  | snoc ran taken ih =>
      have earlier := ih (fun label member => standalone label (List.mem_append_left _ member))
      exact earlier.step (standalone _ (by simp)) taken

/-- After a revert has replayed and its resolver has settled the pin, the pin carries no keyfile and no
    later standalone boot replays exactly if the pin carried none when the standalone boots began, and
    there was no marker or its removal succeeded. -/
theorem keyfile_retired_iff (down : s.phase = .down) (unreverted : s.reverted = false)
    (ran : System.Run (BootStep deriveKeyfileContent) s labels t)
    (standalone : ∀ label ∈ labels, label.isHa = false) (reverted : t.reverted = true) :
    pinKeyfile t.volume.pin = none ∧ t.volume.replayNeeded = false ↔
      pinKeyfile s.volume.pin = none ∧ (s.volume.marker = false ∨ .clear true ∈ labels) := by
  have kept := reverting_of_run down unreverted ran standalone
  have present := kept.revertedData reverted
  have needed : t.volume.replayNeeded = true ↔
      t.volume.marker = true ∨ (pinKeyfile t.volume.pin).isSome = true := by
    rw [Volume.replayNeeded, replayNeeded_iff]
    simp [present]
  rw [← Bool.not_eq_true, needed, kept.keyfile, kept.marker]
  cases keyfile : pinKeyfile s.volume.pin with
  | some pinned => simp
  | none =>
      cases marker : s.volume.marker with
      | false => simp
      | true => simp

/-! ### Two reverts of a crashed member, with and without a keyfile in its pin -/

/-- mongod accepts the password the boot runs with. -/
def provingPoll : ResolverPoll :=
  { initServerRunning := false
    pendingPassword := none
    pendingProbe := .notReady "not asked"
    activeProbe := .works
    activeWrite := none
    envProbe := .works
    envWrite := none }

def revertLabels : List BootLabel :=
  [.bootStandalone, .replayEnds cleanRecovery, .clear true, .spawnStandalone, .resolve]

/-- The boot that reverts the crashed member, once it has replayed. -/
def revertBoot (pin : PinFile) : StandaloneBoot :=
  { standaloneBoot id (crashedHa pin).volume "secret" with replayed := true }

def revertRound (pin : PinFile) : ResolverRound :=
  resolverRound (revertBoot pin).credentials "secret" (.start (revertBoot pin).credentials) pin
    provingPoll

/-- The reverted node after the first iteration of its resolver. -/
def revertedNode (pin : PinFile) : BootState :=
  { volume := { files := datasetFiles, marker := false, pin := (revertRound pin).file }
    phase := .saRunning { revertBoot pin with resolver := (revertRound pin).next }
    dirty := false
    reverted := (revertRound pin).settled }

theorem revert_run (pin : PinFile) :
    System.Run (BootStep id) (crashedHa pin) revertLabels (revertedNode pin) := by
  have booted := System.Run.nil.snoc (@BootStep.bootStandalone id (crashedHa pin) "secret" rfl)
  have replayed := booted.snoc (.replaySucceeds rfl cleanRecovery_replays)
  have cleared := replayed.snoc (@BootStep.clear _ _ _ true rfl)
  have spawned := cleared.snoc (.spawnStandalone rfl)
  exact spawned.snoc (@BootStep.resolve _ _ (revertBoot pin).withResolver _ provingPoll rfl rfl)

/-- A member that crashed before its first pin write: the marker alone asks for the replay. -/
theorem keyfile_retired_marker_only :
    pinKeyfile (revertedNode .absent).volume.pin = none ∧
      (revertedNode .absent).volume.replayNeeded = false :=
  (keyfile_retired_iff rfl rfl (revert_run .absent) (by decide) (by decide)).2
    ⟨rfl, Or.inr (by simp [revertLabels])⟩

/-- A pin as the resolver of an HA boot writes it. -/
def memberPin : PinFile :=
  .pin { password := "secret", keyfile := some "keyfile" }

/-- The pin of a member carries its keyfile through the revert, and the next standalone boot replays
    again. -/
theorem revert_keeps_keyfile :
    (markedBoots id emptyVolume).Reachable (crashedHa memberPin) ∧
    System.Run (BootStep id) (crashedHa memberPin) revertLabels (revertedNode memberPin) ∧
    (revertedNode memberPin).reverted = true ∧
    pinKeyfile (revertedNode memberPin).volume.pin ≠ none ∧
    (revertedNode memberPin).volume.replayNeeded = true ∧
    ∃ u boot, System.Run (BootStep id) (crashedHa memberPin)
      (revertLabels ++ [.stop] ++ [.bootStandalone]) u ∧ u.phase = .saReplaying boot := by
  refine ⟨crashedHa_reachable memberPin, revert_run memberPin, by decide, by decide, by decide, ?_⟩
  have stopped := (revert_run memberPin).snoc .stop
  have again := stopped.snoc (@BootStep.bootStandalone _ _ "secret" rfl)
  exact ⟨_, _, again, rfl⟩

end MongoHa
