/-
Module: MongoHa.Proofs.ResolverIteration
Layer: Proofs
Purpose: The two models of the resolver agree. An iteration is a program over its calls where other tasks
  may come between, and one function of its replies where none can: run by itself, the program does what
  the function says.
Imports: MongoHa.Wrapper.Credentials
Trusted boundary: none (fully proved)
Main exports: Alone, Volume, Alone.answer, Alone.followed, Alone.poll, Alone.resolverTask_run
Open obligations: none
-/
import MongoHa.Wrapper.Credentials

namespace MongoHa.Credentials

open Foundations

/-- The replies to an iteration of the resolver that no other task comes between. -/
structure Alone where
  initServerRunning : Bool
  pending : Option Rotation
  probe : String → PasswordProbe
  write : String → Option WriteFailure
  /-- The replies to the calls an iteration does not make. -/
  other : (effect : Effect) → effect.Reply

/-- The volume's pin, and what the resolver did to the node so far. -/
structure Volume where
  file : PinFile
  commands : List ResolverCommand

/-- What a part of an iteration leaves. -/
def Volume.after (volume : Volume) (part : ResolverPart) : Volume :=
  { file := part.file, commands := volume.commands ++ part.commands }

namespace Alone

/-- What an iteration is answered, and the volume after the call, with no other task in between. -/
def answer (alone : Alone) : (effect : Effect) → Volume → effect.Reply × Volume
  | .initServerRunning, volume => (alone.initServerRunning, volume)
  | .readPending, volume => (alone.pending, volume)
  | .probeLocalPassword password, volume => (alone.probe password, volume)
  | .swapPassword password, volume =>
      ((), { volume with commands := volume.commands ++ [.swapPassword password] })
  | .send event, volume => ((), { volume with commands := volume.commands ++ [.send event] })
  | .readPin, volume => (MongoHa.readPin volume.file, volume)
  | .writePasswordPin password fallbackKey, volume =>
      let (written, file) :=
        MongoHa.writePasswordPin volume.file password fallbackKey (alone.write password)
      (written, { volume with file := file })
  | effect, volume => (alone.other effect, volume)

/-- The password the resolver follows once it looked at the pending rotation. -/
def followed (alone : Alone) (active : String) : String :=
  match alone.pending with
  | some request => if alone.probe request.newPassword = .works then request.newPassword else active
  | none => active

/-- The same replies, one field for each use. -/
def poll (alone : Alone) (envPassword active : String) : ResolverPoll :=
  { initServerRunning := alone.initServerRunning
    pendingPassword := alone.pending.map Rotation.newPassword
    pendingProbe := (alone.pending.map fun request => alone.probe request.newPassword).getD .works
    activeProbe := alone.probe (alone.followed active)
    activeWrite := alone.write (alone.followed active)
    envProbe := alone.probe envPassword
    envWrite := alone.write envPassword }

variable (alone : Alone) (boot : BootCredentials) (envPassword : String) (resolver : Resolver)
  (volume : Volume)

theorem reportDriftOnce_run (event : TelemetryEvent) :
    (reportDriftOnce resolver event).run alone.answer volume =
      let part := reportDrift resolver volume.file event
      (.ok part.resolver, volume.after part) := by
  unfold reportDriftOnce reportDrift
  split
  · simp [Volume.after, Program.run]
  · simp [Volume.after, Program.run, perform, Program.call, answer]

theorem pendingPart_run :
    (pendingPart resolver).run alone.answer volume =
      let part := adoptPending resolver volume.file (alone.poll envPassword resolver.active)
      (.ok part.resolver, volume.after part) := by
  unfold pendingPart adoptPending poll
  cases pending : alone.pending with
  | none => simp [Volume.after, Program.run, perform, Program.call, answer, pending]
  | some request =>
      by_cases same : request.newPassword = resolver.active
      · simp [Volume.after, Program.run, perform, Program.call, answer, pending, same]
      · by_cases works : alone.probe request.newPassword = .works
        · simp [Volume.after, Program.run, perform, Program.call, answer, pending, same, works]
        · simp [Volume.after, Program.run, perform, Program.call, answer, pending, same, works]

theorem adoptPending_active :
    (adoptPending resolver volume.file (alone.poll envPassword resolver.active)).resolver.active =
      alone.followed resolver.active := by
  unfold adoptPending poll followed
  cases alone.pending with
  | none => rfl
  | some request =>
      by_cases same : request.newPassword = resolver.active
      · simp [same]
      · by_cases works : alone.probe request.newPassword = .works
        · simp [same, works]
        · simp [same, works]

theorem activePart_run {active : String} (follows : resolver.active = alone.followed active) :
    (activePart boot resolver).run alone.answer volume =
      let part := proveActive boot resolver volume.file (alone.poll envPassword active)
      (.ok part.resolver, volume.after part) := by
  unfold activePart proveActive
  by_cases proven : resolver.proven = true
  · simp [Volume.after, Program.run, proven]
  · have probed : (alone.poll envPassword active).activeProbe = alone.probe resolver.active := by
      rw [follows]; rfl
    have written : (alone.poll envPassword active).activeWrite = alone.write resolver.active := by
      rw [follows]; rfl
    rw [probed, written]
    cases probe : alone.probe resolver.active with
    | works =>
        by_cases found : MongoHa.readPin volume.file =
            some { password := resolver.active, keyfile := boot.keyfile }
        · simp [Volume.after, Program.run, perform, Program.call, answer, proven, probe, found]
        · simp [Volume.after, Program.run, perform, Program.call, answer, proven, probe, found]
    | accessDenied =>
        simpa [Volume.after, Program.run, perform, Program.call, answer, proven, probe] using
          reportDriftOnce_run alone resolver volume noKnownPasswordWorks
    | notReady reason => simp [Volume.after, Program.run, perform, Program.call, answer, proven, probe]

theorem envPart_run (active : String) :
    (envPart boot envPassword resolver).run alone.answer volume =
      let part := adoptEnvironment boot envPassword resolver volume.file (alone.poll envPassword active)
      (.ok (if envPassword = resolver.active ∧ resolver.proven = true then none else some part.resolver),
        volume.after part) := by
  unfold envPart adoptEnvironment
  have probed : (alone.poll envPassword active).envProbe = alone.probe envPassword := rfl
  have written : (alone.poll envPassword active).envWrite = alone.write envPassword := rfl
  rw [probed, written]
  by_cases same : envPassword = resolver.active
  · by_cases proven : resolver.proven = true
    · simp [Volume.after, Program.run, same, proven]
    · simp [Volume.after, Program.run, same, proven]
  · cases probe : alone.probe envPassword with
    | works => simp [Volume.after, Program.run, perform, Program.call, answer, same, probe]
    | accessDenied =>
        have reported := reportDriftOnce_run alone resolver volume envPasswordDrifted
        simp [perform, Program.call, Program.run, answer, same, probe, Program.run_bind, reported]
    | notReady reason => simp [Volume.after, Program.run, perform, Program.call, answer, same, probe]

/-- An iteration that no other task comes between is `resolverRound`. -/
theorem resolverTask_run :
    (resolverTask boot envPassword resolver).run alone.answer volume =
      let round := resolverRound boot envPassword resolver volume.file
        (alone.poll envPassword resolver.active)
      (.ok round.next, { file := round.file, commands := volume.commands ++ round.commands }) := by
  unfold resolverTask resolverRound
  by_cases running : alone.initServerRunning = true
  · simp [Program.run, perform, Program.call, answer, poll, running]
  · have idle : (alone.poll envPassword resolver.active).initServerRunning = false := by
      simpa [poll] using running
    have follows := adoptPending_active alone envPassword resolver volume
    simp [perform, Program.call, Program.run, answer, running, idle, Program.run_bind,
      pendingPart_run alone envPassword, activePart_run alone boot envPassword _ _ follows,
      envPart_run alone boot envPassword _ _ resolver.active, Volume.after]

end Alone

end MongoHa.Credentials
