/-
Module: MongoHa.Proofs.OplogReplay
Layer: Proofs
Purpose: No standalone mongod opens data whose oplog was not replayed. The record that carries this over
  crashes is the marker: while a volume is dirty it holds a visible dataset and the marker, so every
  standalone boot on it goes through the recovery boot, and only a recovery boot that ended well leads to
  the removal of the marker. A container may stop between any two steps.
Imports: MongoHa.Foundations.Machine, MongoHa.Wrapper.Boot
Trusted boundary: none (fully proved)
Main exports: MarkerWrites, markedBoots, DirtyRecorded, dirtyRecorded_of_reachable,
  standalone_opens_replayed, standalone_opens_replayed_after_crash
Open obligations: none
-/
import MongoHa.Foundations.Machine
import MongoHa.Wrapper.Boot

namespace MongoHa

open Foundations

/-- The marker write of an HA boot succeeds. -/
def MarkerWrites : BootState → BootLabel → Prop
  | _, .mark written => written = true
  | _, _ => True

/-- Every sequence of boots on a volume in which the marker writes succeed. -/
def markedBoots (deriveKeyfileContent : String → String) (volume : Volume) : System BootState :=
  System.labelled (· = .start volume) (BootStep deriveKeyfileContent) MarkerWrites

/-- The HA phases after the marker write. -/
def BootPhase.pastMark : BootPhase → Prop
  | .haSpawning | .haEntrypoint | .haRunning => True
  | _ => False

/-- The standalone phases after the recovery boot, or those of a boot that needed none. -/
def BootPhase.pastReplay : BootPhase → Prop
  | .saClearing _ | .saSpawning _ | .saRunning _ => True
  | _ => False

/-- What the volume and the phase say about the hidden state of the data. -/
structure DirtyRecorded (s : BootState) : Prop where
  marked : s.dirty = true → s.volume.marker = true
  visible : s.dirty = true → s.volume.hasData = true
  haMarked : s.phase.pastMark → s.volume.marker = true
  replayed : s.phase.pastReplay → s.dirty = false

theorem replayNeeded_of_marker {volume : Volume} (present : volume.hasData = true)
    (marked : volume.marker = true) : volume.replayNeeded = true :=
  replayNeeded_iff.2 ⟨present, Or.inl marked⟩

variable {deriveKeyfileContent : String → String} {s t : BootState}

/-- A standalone boot on a dirty volume enters the recovery boot. -/
theorem DirtyRecorded.clean_of_pastReplay (recorded : DirtyRecorded s) {boot : StandaloneBoot}
    (past : (standaloneEntry s.volume boot).pastReplay) : s.dirty = false := by
  cases dirty : s.dirty with
  | false => rfl
  | true =>
      have present := recorded.visible dirty
      have needed := replayNeeded_of_marker present (recorded.marked dirty)
      rcases standaloneEntry_cases s.volume boot with
        ⟨_, noData⟩ | ⟨entered, _⟩ | ⟨_, _, skipped⟩
      · rw [present] at noData
        cases noData
      · rw [entered] at past
        exact past.elim
      · rw [needed] at skipped
        cases skipped

theorem standaloneEntry_not_pastMark {volume : Volume} {boot : StandaloneBoot}
    (past : (standaloneEntry volume boot).pastMark) : False := by
  rcases standaloneEntry_cases volume boot with ⟨entered, _⟩ | ⟨entered, _⟩ | ⟨entered, _, _⟩
  all_goals
    rw [entered] at past
    exact past

theorem DirtyRecorded.step {label : BootLabel} (recorded : DirtyRecorded s)
    (admitted : MarkerWrites s label) (taken : BootStep deriveKeyfileContent s label t) :
    DirtyRecorded t := by
  have kept := hasData_kept taken
  cases taken with
  | bootHa down => exact ⟨recorded.marked, recorded.visible, False.elim, False.elim⟩
  | @mark written marking =>
      have written : markReplsetBoot s.volume.marker written = true := by
        simp only [MarkerWrites] at admitted
        simp [markReplsetBoot, admitted]
      exact ⟨fun _ => written, fun dirty => recorded.visible dirty, fun _ => written, False.elim⟩
  | spawnHa spawning =>
      have marked := recorded.haMarked (by rw [spawning]; trivial)
      exact ⟨fun _ => marked, recorded.visible, fun _ => marked, False.elim⟩
  | replSetOpens entrypoint visible =>
      have marked := recorded.haMarked (by rw [entrypoint]; trivial)
      exact ⟨fun _ => marked, fun _ => visible, fun _ => marked, False.elim⟩
  | haPin ha => exact ⟨recorded.marked, recorded.visible, recorded.haMarked, recorded.replayed⟩
  | bootStandalone down =>
      exact ⟨recorded.marked, recorded.visible, fun past => (standaloneEntry_not_pastMark past).elim,
        recorded.clean_of_pastReplay⟩
  | replaySucceeds replaying ended =>
      exact ⟨nofun, nofun, False.elim, fun _ => rfl⟩
  | replayFails replaying ended =>
      exact ⟨recorded.marked, recorded.visible, False.elim, False.elim⟩
  | clear clearing =>
      -- The marker goes, but only from a volume that is clean.
      have clean := recorded.replayed (by rw [clearing]; trivial)
      refine ⟨?_, ?_, False.elim, fun _ => clean⟩
      · intro dirty
        exact absurd (dirty.symm.trans clean) (by decide)
      · intro dirty
        exact absurd (dirty.symm.trans clean) (by decide)
  | spawnStandalone spawning =>
      have clean := recorded.replayed (by rw [spawning]; trivial)
      exact ⟨recorded.marked, recorded.visible, False.elim, fun _ => clean⟩
  | resolve background resolving =>
      rcases background_cases background with phase | phase
      all_goals
        have clean := recorded.replayed (by rw [phase]; trivial)
        refine ⟨recorded.marked, recorded.visible, ?_, fun _ => clean⟩
        intro past
        rw [phase] at past
        exact past.elim
  | rotateMember background =>
      exact ⟨recorded.marked, recorded.visible, recorded.haMarked, recorded.replayed⟩
  | mongodWrites up visible =>
      exact ⟨recorded.marked, fun dirty => visible (recorded.visible dirty), recorded.haMarked,
        recorded.replayed⟩
  | stop => exact ⟨recorded.marked, recorded.visible, False.elim, False.elim⟩

/-- Unreplayed writes are recorded by the marker over all boots whose marker writes succeed. -/
theorem dirtyRecorded_of_reachable {volume : Volume}
    (reached : (markedBoots deriveKeyfileContent volume).Reachable s) : DirtyRecorded s := by
  apply System.labelled_invariant _ _ reached
  · intro start first
    rw [first]
    exact ⟨nofun, nofun, False.elim, False.elim⟩
  · intro before label after recorded admitted taken
    exact recorded.step admitted taken

/-- Whatever ends or interrupts a recovery boot, the marker is still there. -/
theorem marker_kept_by_recovery {boot : StandaloneBoot} {label : BootLabel}
    (replaying : s.phase = .saReplaying boot) (taken : BootStep deriveKeyfileContent s label t) :
    t.volume.marker = s.volume.marker := by
  cases taken with
  | mark marking =>
      rw [replaying] at marking
      cases marking
  | clear clearing =>
      rw [replaying] at clearing
      cases clearing
  | _ => rfl

theorem replayEnds_error {run : RecoveryRun} {failure : String}
    (failed : replayOplogAsStandalone run = some (.error failure))
    (taken : BootStep deriveKeyfileContent s (.replayEnds run) t) : t = { s with phase := .down } := by
  cases taken with
  | replaySucceeds replaying ended =>
      rw [failed] at ended
      cases ended
  | replayFails replaying ended => rfl

/-- In every sequence of boots and crashes the standalone mongod is spawned on replayed data only, the
    marker is removed from replayed data only, and a recovery boot that fails leaves the volume as it is. -/
theorem standalone_opens_replayed {volume : Volume}
    (reached : (markedBoots deriveKeyfileContent volume).Reachable s) :
    (∀ u, BootStep deriveKeyfileContent s .spawnStandalone u → s.dirty = false) ∧
    (∀ removed u, BootStep deriveKeyfileContent s (.clear removed) u → s.dirty = false) ∧
    (∀ boot label u, s.phase = .saReplaying boot → BootStep deriveKeyfileContent s label u →
      u.volume.marker = s.volume.marker) ∧
    (∀ run failure u, replayOplogAsStandalone run = some (.error failure) →
      BootStep deriveKeyfileContent s (.replayEnds run) u → u = { s with phase := .down }) := by
  have recorded := dirtyRecorded_of_reachable reached
  refine ⟨?_, ?_, ?_, ?_⟩
  · intro u taken
    cases taken with
    | spawnStandalone spawning => exact recorded.replayed (by rw [spawning]; trivial)
  · intro removed u taken
    cases taken with
    | clear clearing => exact recorded.replayed (by rw [clearing]; trivial)
  · intro boot label u replaying taken
    exact marker_kept_by_recovery replaying taken
  · intro run failure u failed taken
    exact replayEnds_error failed taken

/-! ### An HA life that crashes, then a revert -/

def emptyVolume : Volume :=
  { files := [], marker := false, pin := .absent }

/-- A recovery mongod that comes up and exits with its checkpoint taken. -/
def cleanRecovery : RecoveryRun :=
  { spawn := .ok ()
    stdoutPiped := true
    polls := [{ exit := .running, answersPing := true }]
    lines := []
    pidKnown := true
    signal := .ok ()
    shutdownPolls := [{ exit := .exited (some 0), elapsed := 0 }] }

theorem cleanRecovery_replays : replayOplogAsStandalone cleanRecovery = some (.ok .replayed) := rfl

/-- The volume after an HA life that pinned `pin` and crashed. -/
def crashedHa (pin : PinFile) : BootState :=
  { volume := { files := datasetFiles, marker := true, pin := pin }
    phase := .down
    dirty := true
    reverted := false }

theorem crashedHa_reachable (pin : PinFile) :
    (markedBoots id emptyVolume).Reachable (crashedHa pin) := by
  have fresh : (markedBoots id emptyVolume).Reachable (.start emptyVolume) := .init rfl
  have booted := fresh.take .bootHa trivial (.bootHa rfl)
  have marked := booted.take (.mark true) rfl (.mark rfl)
  have spawned := marked.take .spawnHa trivial (.spawnHa rfl)
  have opened := spawned.take .replSetOpens trivial
    (@BootStep.replSetOpens _ _ datasetFiles rfl (by decide))
  have pinned := opened.take .haPin trivial (@BootStep.haPin _ _ pin trivial)
  exact pinned.take .stop trivial .stop

/-- A replica-set life that ended in a crash is replayed before the standalone mongod opens the volume. -/
theorem standalone_opens_replayed_after_crash :
    ∃ s, (markedBoots id emptyVolume).Reachable s ∧ (∃ u, BootStep id s .spawnStandalone u) ∧
      s.dirty = false := by
  have booted := (crashedHa_reachable .absent).take .bootStandalone trivial
    (@BootStep.bootStandalone _ _ "secret" rfl)
  have replayed := booted.take (.replayEnds cleanRecovery) trivial
    (.replaySucceeds rfl cleanRecovery_replays)
  have cleared := replayed.take (.clear true) trivial (.clear rfl)
  exact ⟨_, cleared, ⟨_, .spawnStandalone rfl⟩,
    (standalone_opens_replayed cleared).1 _ (.spawnStandalone rfl)⟩

end MongoHa
