/-
Module: MongoHa.Proofs.TruthfulPin
Layer: Proofs
Purpose: The pin a finished resolver leaves. In every run that returns, the pin on the volume carries the
  password that was last proved exactly when the write of the proof that settled it took effect, or the pin
  carried that password before: a failed write is logged, and the resolver counts the proof all the same.
Imports: MongoHa.Foundations.Machine, MongoHa.Wrapper.AuthPin
Trusted boundary: none (fully proved)
Main exports: PinFile.Carries, SettlingProof, SettlingProof.Took, ResolverState, resolverStep, Truthful,
  truthful_return_iff, failed_write_returns
Open obligations: none
-/
import MongoHa.Foundations.Machine
import MongoHa.Wrapper.AuthPin

namespace MongoHa

open Foundations

/-! ### Proofs of a password -/

/-- The file is a pin with this password. -/
def PinFile.Carries (file : PinFile) (password : String) : Prop :=
  (readPin file).map AuthPin.password = some password

/-- A pin write that fails before the rename leaves the file as it was. -/
def replaces : Option WriteFailure → Bool
  | none => true
  | some .syncingDirectory => true
  | some _ => false

theorem carries_writePasswordPin {file : PinFile} {password : String} {fallbackKey : Option String}
    {failure : Option WriteFailure} :
    (writePasswordPin file password fallbackKey failure).2.Carries password ↔
      replaces failure = true ∨ file.Carries password := by
  have written : (PinFile.pin { password := password, keyfile :=
      ((readPin file).bind AuthPin.keyfile).or fallbackKey }).Carries password := rfl
  cases failure with
  | none => exact ⟨fun _ => Or.inl rfl, fun _ => written⟩
  | some step =>
      cases step with
      | syncingDirectory => exact ⟨fun _ => Or.inl rfl, fun _ => written⟩
      | _ => simp [writePasswordPin, writePin, replaces]

/-- A probe that settled a password: the file it found, and how the pin write after it goes. -/
structure SettlingProof where
  password : String
  before : PinFile
  write : Option WriteFailure
deriving Repr, DecidableEq

/-- The write took effect, or the pin said so already. -/
def SettlingProof.Took (proof : SettlingProof) : Prop :=
  replaces proof.write = true ∨ proof.before.Carries proof.password

/-- The pending password that a probe proved. -/
def pendingProved (resolver : Resolver) (poll : ResolverPoll) : Option String :=
  poll.pendingPassword.filter fun pending => pending ≠ resolver.active ∧ poll.pendingProbe = .works

def activeProof (resolver : Resolver) (file : PinFile) (poll : ResolverPoll) :
    Option SettlingProof :=
  if resolver.proven = false ∧ poll.activeProbe = .works then
    some { password := resolver.active, before := file, write := poll.activeWrite }
  else none

def envProof (envPassword : String) (resolver : Resolver) (file : PinFile) (poll : ResolverPoll) :
    Option SettlingProof :=
  if envPassword ≠ resolver.active ∧ poll.envProbe = .works then
    some { password := envPassword, before := file, write := poll.envWrite }
  else none

/-! ### Runs of the resolver -/

/-- The resolver, none once it returned, the pin's file, and what the run proved so far: the last password
    that a probe proved, and the last proof that settled one. -/
structure ResolverState where
  next : Option Resolver
  file : PinFile
  proved : Option String
  settled : Option SettlingProof
deriving Repr, DecidableEq

/-- An iteration of the resolver on the file it left before. -/
def resolverStep (boot : BootCredentials) (envPassword : String) (s : ResolverState)
    (poll : ResolverPoll) : ResolverState :=
  match s.next with
  | none => s
  | some resolver =>
      let round := resolverRound boot envPassword resolver s.file poll
      if poll.initServerRunning then { s with next := round.next, file := round.file }
      else
        let pending := adoptPending resolver s.file poll
        let active := proveActive boot pending.resolver pending.file poll
        let activeProof := activeProof pending.resolver pending.file poll
        let envProof := envProof envPassword active.resolver active.file poll
        { next := round.next
          file := round.file
          proved :=
            (envProof.map SettlingProof.password).or ((activeProof.map SettlingProof.password).or
              ((pendingProved resolver poll).or s.proved))
          settled := envProof.or (activeProof.or s.settled) }

def resolverStart (boot : BootCredentials) (file : PinFile) : ResolverState :=
  { next := some (Resolver.start boot), file := file, proved := none, settled := none }

/-- The file is a pin with the password that was last proved. -/
def Truthful (s : ResolverState) : Prop :=
  ∃ password, s.proved = some password ∧ s.file.Carries password

variable {boot : BootCredentials} {envPassword : String} {resolver : Resolver} {file : PinFile}
  {poll : ResolverPoll} {s : ResolverState}

/-! ### What the parts of an iteration leave -/

/-- A password that was adopted is not proven yet. -/
theorem adoptPending_spec :
    (∃ pending, pendingProved resolver poll = some pending ∧
        (adoptPending resolver file poll).resolver.proven = false) ∨
      (pendingProved resolver poll = none ∧ (adoptPending resolver file poll).resolver = resolver) := by
  unfold adoptPending pendingProved
  cases poll.pendingPassword with
  | none => exact Or.inr ⟨rfl, rfl⟩
  | some pending =>
      by_cases adopts : pending ≠ resolver.active ∧ poll.pendingProbe = .works
      · exact Or.inl ⟨pending, by simp [adopts], by simp [adopts]⟩
      · refine Or.inr ⟨by simpa [Option.filter] using adopts, ?_⟩
        simp only [adopts, ↓reduceIte]

theorem reportDrift_resolver (event : TelemetryEvent) :
    (reportDrift resolver file event).resolver.active = resolver.active ∧
      (reportDrift resolver file event).resolver.proven = resolver.proven := by
  unfold reportDrift
  split
  · exact ⟨rfl, rfl⟩
  · exact ⟨rfl, rfl⟩

/-- The part settles its password, or leaves the progress and the file as they were. -/
def PartSpec (resolver : Resolver) (file : PinFile) (part : ResolverPart) :
    Option SettlingProof → Prop
  | some proof => part.resolver.proven = true ∧ part.resolver.active = proof.password ∧
      (part.file.Carries proof.password ↔ proof.Took)
  | none => part.resolver.proven = resolver.proven ∧ part.resolver.active = resolver.active ∧
      part.file = file

theorem proveActive_spec : PartSpec resolver file (proveActive boot resolver file poll)
    (activeProof resolver file poll) := by
  unfold proveActive activeProof
  cases proven : resolver.proven with
  | true => simp [PartSpec, proven]
  | false =>
      cases probed : poll.activeProbe with
      | works =>
          simp only [true_and, ↓reduceIte, Bool.false_eq_true]
          split
          · exact ⟨rfl, rfl, carries_writePasswordPin⟩
          · rename_i same
            have carries : file.Carries resolver.active := by
              rw [ne_eq, not_not] at same
              rw [PinFile.Carries, same]
              rfl
            exact ⟨rfl, rfl, fun _ => Or.inr carries, fun _ => carries⟩
      | accessDenied =>
          obtain ⟨active, kept⟩ := @reportDrift_resolver resolver file noKnownPasswordWorks
          simpa [PartSpec, reportDrift_file, active, proven] using kept
      | notReady reason => simp [PartSpec, proven]

theorem adoptEnvironment_spec :
    PartSpec resolver file (adoptEnvironment boot envPassword resolver file poll)
      (envProof envPassword resolver file poll) := by
  unfold adoptEnvironment envProof
  by_cases same : envPassword = resolver.active
  · simp [PartSpec, same]
  · cases probed : poll.envProbe with
    | works =>
        simp only [same, not_false_eq_true, ne_eq, and_self, ↓reduceIte]
        exact ⟨rfl, rfl, carries_writePasswordPin⟩
    | accessDenied =>
        obtain ⟨active, kept⟩ := @reportDrift_resolver resolver file envPasswordDrifted
        simpa [PartSpec, same, reportDrift_file, active] using kept
    | notReady reason => simp [PartSpec, same]

/-! ### What a run keeps -/

/-- The last proof settled this password, which is the last one proved, and the file carries it exactly
    when its write took effect. -/
def SettledOn (settled : Option SettlingProof) (proved : Option String) (file : PinFile)
    (password : String) : Prop :=
  proved = some password ∧ ∃ proof, settled = some proof ∧ (file.Carries password ↔ proof.Took)

/-- A proven resolver settled its password, and so did one that returned. -/
def Kept (s : ResolverState) : Prop :=
  match s.next with
  | some resolver => resolver.proven = true → SettledOn s.settled s.proved s.file resolver.active
  | none => ∃ password, SettledOn s.settled s.proved s.file password

theorem PartSpec.settledOn {part : ResolverPart} {proof settled : Option SettlingProof}
    {proved : Option String} (spec : PartSpec resolver file part proof)
    (kept : resolver.proven = true → SettledOn settled proved file resolver.active)
    (proven : part.resolver.proven = true) :
    SettledOn (proof.or settled) ((proof.map SettlingProof.password).or proved) part.file
      part.resolver.active := by
  cases proof with
  | some proof =>
      obtain ⟨-, active, carries⟩ := spec
      rw [active]
      exact ⟨rfl, proof, rfl, carries⟩
  | none =>
      obtain ⟨same, active, unchanged⟩ := spec
      rw [active, unchanged]
      exact kept (same.symm.trans proven)

theorem kept_step (kept : Kept s) : Kept (resolverStep boot envPassword s poll) := by
  unfold resolverStep
  cases running : s.next with
  | none => simpa only [running] using kept
  | some resolver =>
      rw [Kept, running] at kept
      dsimp only
      split
      · rename_i waits
        simpa only [Kept, resolverRound, waits, ↓reduceIte] using kept
      · rename_i ready
        have pending : (adoptPending resolver s.file poll).resolver.proven = true →
            SettledOn s.settled ((pendingProved resolver poll).or s.proved)
              (adoptPending resolver s.file poll).file
              (adoptPending resolver s.file poll).resolver.active := by
          rw [adoptPending_file]
          rcases @adoptPending_spec resolver s.file poll with ⟨pending, -, unproven⟩ | ⟨none, same⟩
          · intro proven
            rw [unproven] at proven
            cases proven
          · rw [same, none]
            exact kept
        have active := (@proveActive_spec boot _ _ poll).settledOn pending
        have env := (@adoptEnvironment_spec boot envPassword _ _ poll).settledOn active
        simp only [Kept, resolverRound, ready, Bool.false_eq_true, ↓reduceIte]
        split
        · rename_i next
          split at next
          · cases next
          · cases next
            exact env
        · rename_i next
          split at next
          · rename_i done
            refine ⟨_, env ?_⟩
            have nothing := @adoptEnvironment_spec boot envPassword
              (proveActive boot (adoptPending resolver s.file poll).resolver
                (adoptPending resolver s.file poll).file poll).resolver
              (proveActive boot (adoptPending resolver s.file poll).resolver
                (adoptPending resolver s.file poll).file poll).file poll
            rw [envProof, if_neg (by simp [done.1])] at nothing
            exact nothing.1.trans done.2
          · cases next

theorem kept_run (kept : Kept s) (polls : List ResolverPoll) :
    Kept (finalState (resolverStep boot envPassword) s polls) := by
  apply finalState_invariant kept
  intro entry _ kept
  exact kept_step kept

/-- A run that returns leaves a pin with the password that was last proved exactly when the write after
    that proof took effect, or the pin carried the password already. -/
theorem truthful_return_iff (boot : BootCredentials) (envPassword : String) (file : PinFile)
    (polls : List ResolverPoll) :
    let final := finalState (resolverStep boot envPassword) (resolverStart boot file) polls
    (final.next = none → Truthful final) ↔
      (final.next = none → ∀ proof, final.settled = some proof → proof.Took) := by
  intro final
  have start : Kept (resolverStart boot file) := by
    intro proven
    cases proven
  have kept : Kept final := kept_run start polls
  rw [Kept] at kept
  constructor
  · intro truthful returned proof settled
    rw [returned] at kept
    obtain ⟨password, proved, last, settledLast, carries⟩ := kept
    obtain ⟨other, provedOther, carried⟩ := truthful returned
    rw [settled] at settledLast
    rw [proved] at provedOther
    cases settledLast
    cases provedOther
    exact carries.1 carried
  · intro took returned
    rw [returned] at kept
    obtain ⟨password, proved, last, settled, carries⟩ := kept
    exact ⟨password, proved, carries.2 (took returned last settled)⟩

/-- A fresh volume, the password of the environment proved, and a volume that is full. -/
def fullVolumePoll : ResolverPoll :=
  { initServerRunning := false, pendingPassword := none, pendingProbe := .notReady ""
    activeProbe := .works, activeWrite := some .writing
    envProbe := .notReady "", envWrite := none }

/-- The write fails, and the resolver returns with no pin on the volume. -/
theorem failed_write_returns :
    let boot : BootCredentials := { password := "secret", keyfile := none, envDrifted := false }
    let final := finalState (resolverStep boot "secret") (resolverStart boot .absent) [fullVolumePoll]
    final.next = none ∧ readPin final.file = none ∧ ¬ Truthful final := by
  refine ⟨by decide, by decide, fun truthful => ?_⟩
  obtain ⟨password, -, carried⟩ := truthful
  cases carried

end MongoHa
