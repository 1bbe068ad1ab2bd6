/-
Module: MongoHa.Proofs.SignalDerivation
Layer: Proofs
Purpose: The signals of one poll, read from its inputs. With windows of whole seconds `signals_exact` says
  of every row and of the window which signal they raise, with the lag of the two optimes as it is, and
  `signals_monotone` that a poll which is worse in every respect raises every incident again.
Imports: MongoHa.Wrapper.ReplicationMonitor
Trusted boundary: none (fully proved)
Main exports: FallsOff, StuckRow, WindowLow, SignalsExact, Worse, derive_signals_exact_and_monotone
Open obligations: none
-/
import MongoHa.Wrapper.ReplicationMonitor

namespace MongoHa

/-! ### What raises a signal -/

/-- A reachable secondary whose lag has eaten three quarters of the window. Times are in seconds. -/
structure FallsOff (windowSecs : Option Nat) (oplogSizeBounded : Bool)
    (primaryOptimeSecs : Option UInt32) (m : MemberObservation) (lag window : Nat) : Prop where
  notSelf : m.isSelf = false
  healthy : m.healthy = true
  secondary : m.stateStr = "SECONDARY"
  known : windowSecs = some window
  bounded : oplogSizeBounded = true
  behind : ∃ primarySecs memberSecs, primaryOptimeSecs = some primarySecs ∧
    m.optimeSecs = some memberSecs ∧ memberSecs.toNat < primarySecs.toNat ∧
    memberSecs.toNat + lag = primarySecs.toNat
  eaten : 3 * window ≤ 4 * lag

/-- Another member that has been catching up for at least 900 s. -/
structure StuckRow (m : MemberObservation) : Prop where
  notSelf : m.isSelf = false
  catchingUp : m.stateStr = recovering ∨ m.stateStr = startup2
  dwelt : Duration.fromSecs 900 ≤ m.dwell

/-- The window is known, bounded by the oplog's size, and below an hour. -/
structure WindowLow (windowSecs : Option Nat) (oplogSizeBounded : Bool) (window : Nat) : Prop where
  known : windowSecs = some window
  bounded : oplogSizeBounded = true
  low : window < 3600

/-- The signals of a poll with this window in seconds. -/
def pollSignals (windowSecs : Option Nat) (oplogSizeBounded : Bool)
    (primaryOptimeSecs : Option UInt32) (members : List MemberObservation) : List ReplicationSignal :=
  deriveSignals (windowSecs.map Duration.fromSecs) oplogSizeBounded primaryOptimeSecs members

section

variable {windowSecs : Option Nat} {oplogSizeBounded : Bool} {primaryOptimeSecs : Option UInt32}

/-- What the loop body sees of the window. -/
def boundedWindow (windowSecs : Option Nat) (oplogSizeBounded : Bool) : Option Duration :=
  (windowSecs.map Duration.fromSecs).filter fun _ => oplogSizeBounded

theorem boundedWindow_eq_some {window : Duration} :
    boundedWindow windowSecs oplogSizeBounded = some window ↔
      ∃ secs, windowSecs = some secs ∧ oplogSizeBounded = true ∧ window = .fromSecs secs := by
  rw [boundedWindow, Option.filter_eq_some_iff, Option.map_eq_some_iff]
  constructor
  · rintro ⟨⟨secs, known, rfl⟩, bounded⟩
    exact ⟨secs, known, bounded, rfl⟩
  · rintro ⟨secs, known, bounded, rfl⟩
    exact ⟨⟨secs, known, rfl⟩, bounded⟩

/-- In whole seconds the threshold is three quarters exactly. -/
theorem warnAt_le_iff {window lag : Nat} :
    warnAt (.fromSecs window) ≤ Duration.fromSecs lag ↔ 3 * window ≤ 4 * lag := by
  change window * 1000000000 * 3 / 4 ≤ lag * 1000000000 ↔ 3 * window ≤ 4 * lag
  omega

/-- The difference of two optimes does not wrap where the member is behind. -/
theorem toNat_sub_of_behind {primarySecs memberSecs : UInt32} (behind : memberSecs < primarySecs) :
    memberSecs.toNat + (primarySecs - memberSecs).toNat = primarySecs.toNat := by
  have bound := UInt32.lt_iff_toNat_lt.1 behind
  rw [UInt32.toNat_sub_of_le _ _ (UInt32.le_iff_toNat_le.2 bound.le)]
  omega

/-- All that the loop body can do with a row. -/
theorem mem_memberSignals {oplogWindow : Option Duration} {m : MemberObservation}
    {signal : ReplicationSignal} :
    signal ∈ memberSignals oplogWindow primaryOptimeSecs m ↔
      m.isSelf = false ∧
        (((m.stateStr = recovering ∨ m.stateStr = startup2) ∧ stuckStateDwell ≤ m.dwell ∧
            signal = .stuckInState m.host m.stateStr m.dwell) ∨
          ∃ window primarySecs memberSecs, (m.healthy = true ∧ m.stateStr = "SECONDARY") ∧
            oplogWindow = some window ∧ primaryOptimeSecs = some primarySecs ∧
            m.optimeSecs = some memberSecs ∧ memberSecs < primarySecs ∧
            warnAt window ≤ Duration.fromSecs (primarySecs - memberSecs).toNat ∧
            signal = .fallingOffOplog m.host (.fromSecs (primarySecs - memberSecs).toNat) window) := by
  rw [memberSignals]
  by_cases own : m.isSelf = true
  · simp [own]
  · rw [if_neg own, List.mem_append]
    simp only [Bool.not_eq_true] at own
    rw [and_iff_right own]
    apply or_congr
    · split
      · rename_i stuck
        simp [stuck]
      · rename_i free
        rw [not_and] at free
        constructor
        · intro member
          cases member
        · rintro ⟨catchingUp, dwelt, -⟩
          exact absurd dwelt (free catchingUp)
    · have replicates : (m.healthy && m.stateStr == "SECONDARY") = true ↔
          m.healthy = true ∧ m.stateStr = "SECONDARY" := by simp
      rw [← replicates]
      cases (m.healthy && m.stateStr == "SECONDARY") with
      | false => simp
      | true =>
          cases oplogWindow with
          | none => simp
          | some window =>
              cases primaryOptimeSecs with
              | none => simp
              | some primarySecs =>
                  cases m.optimeSecs with
                  | none => simp
                  | some memberSecs =>
                      by_cases behind : memberSecs < primarySecs
                      · by_cases eaten :
                          warnAt window ≤ Duration.fromSecs (primarySecs - memberSecs).toNat
                        · simp [behind, eaten]
                        · simp [behind, eaten]
                      · simp [behind]

/-- All that a poll can report. -/
theorem mem_pollSignals {members : List MemberObservation} {signal : ReplicationSignal} :
    signal ∈ pollSignals windowSecs oplogSizeBounded primaryOptimeSecs members ↔
      (∃ window, WindowLow windowSecs oplogSizeBounded window ∧
        signal = .oplogWindowLow (.fromSecs window)) ∨
      ∃ m ∈ members, signal ∈ memberSignals (boundedWindow windowSecs oplogSizeBounded)
        primaryOptimeSecs m := by
  have seen : (windowSecs.map Duration.fromSecs).filter (fun _ => oplogSizeBounded) =
      boundedWindow windowSecs oplogSizeBounded := rfl
  rw [pollSignals, deriveSignals, seen, List.mem_append, List.mem_flatMap]
  apply or_congr_left
  cases held : boundedWindow windowSecs oplogSizeBounded with
  | none =>
      simp only [List.not_mem_nil, false_iff]
      rintro ⟨window, low, -⟩
      rw [boundedWindow_eq_some.2 ⟨window, low.known, low.bounded, rfl⟩] at held
      cases held
  | some window =>
      obtain ⟨secs, known, bounded, rfl⟩ := boundedWindow_eq_some.1 held
      have floor : Duration.fromSecs secs < oplogWindowFloor ↔ secs < 3600 := by
        change secs * 1000000000 < 3600 * 1000000000 ↔ secs < 3600
        omega
      dsimp only
      constructor
      · intro member
        split at member
        · rename_i low
          exact ⟨secs, ⟨known, bounded, floor.1 low⟩, List.mem_singleton.1 member⟩
        · cases member
      · rintro ⟨other, low, rfl⟩
        have same := low.known
        rw [known, Option.some.injEq] at same
        subst same
        rw [if_pos (floor.2 low.low)]
        exact List.mem_singleton.2 rfl

end

/-! ### Exactness -/

/-- Every kind of signal is reported for exactly the rows, and the window, that raise it. -/
structure SignalsExact (windowSecs : Option Nat) (oplogSizeBounded : Bool)
    (primaryOptimeSecs : Option UInt32) (members : List MemberObservation) : Prop where
  fallingOff : ∀ host lag window,
    .fallingOffOplog host lag window ∈
        pollSignals windowSecs oplogSizeBounded primaryOptimeSecs members ↔
      ∃ m ∈ members, ∃ lagSecs secs, host = m.host ∧ lag = .fromSecs lagSecs ∧
        window = .fromSecs secs ∧ FallsOff windowSecs oplogSizeBounded primaryOptimeSecs m lagSecs secs
  stuck : ∀ host state stuckFor,
    .stuckInState host state stuckFor ∈
        pollSignals windowSecs oplogSizeBounded primaryOptimeSecs members ↔
      ∃ m ∈ members, host = m.host ∧ state = m.stateStr ∧ stuckFor = m.dwell ∧ StuckRow m
  windowLow : ∀ window,
    .oplogWindowLow window ∈ pollSignals windowSecs oplogSizeBounded primaryOptimeSecs members ↔
      ∃ secs, window = .fromSecs secs ∧ WindowLow windowSecs oplogSizeBounded secs
  /-- No row hides another one: each is reported by itself, in order. -/
  rows : pollSignals windowSecs oplogSizeBounded primaryOptimeSecs members =
    pollSignals windowSecs oplogSizeBounded primaryOptimeSecs [] ++
      members.flatMap (memberSignals (boundedWindow windowSecs oplogSizeBounded) primaryOptimeSecs)

theorem signals_exact (windowSecs : Option Nat) (oplogSizeBounded : Bool)
    (primaryOptimeSecs : Option UInt32) (members : List MemberObservation) :
    SignalsExact windowSecs oplogSizeBounded primaryOptimeSecs members where
  fallingOff := by
    intro host lag window
    rw [mem_pollSignals]
    simp only [reduceCtorEq, and_false, exists_false, false_or, mem_memberSignals,
      ReplicationSignal.fallingOffOplog.injEq]
    refine exists_congr fun m => and_congr_right fun _ => ?_
    constructor
    · rintro ⟨notSelf, held, primarySecs, memberSecs, ⟨healthy, secondary⟩, known, primary, optime,
        behind, eaten, rfl, rfl, rfl⟩
      obtain ⟨secs, windowKnown, bounded, rfl⟩ := boundedWindow_eq_some.1 known
      refine ⟨(primarySecs - memberSecs).toNat, secs, rfl, rfl, rfl, notSelf, healthy, secondary,
        windowKnown, bounded, ?_, warnAt_le_iff.1 eaten⟩
      exact ⟨primarySecs, memberSecs, primary, optime, UInt32.lt_iff_toNat_lt.1 behind,
        toNat_sub_of_behind behind⟩
    · rintro ⟨lagSecs, secs, rfl, rfl, rfl, falls⟩
      obtain ⟨primarySecs, memberSecs, primary, optime, less, sum⟩ := falls.behind
      have behind : memberSecs < primarySecs := UInt32.lt_iff_toNat_lt.2 less
      have lag : (primarySecs - memberSecs).toNat = lagSecs := by
        have := toNat_sub_of_behind behind
        omega
      refine ⟨falls.notSelf, _, primarySecs, memberSecs, ⟨falls.healthy, falls.secondary⟩,
        boundedWindow_eq_some.2 ⟨secs, falls.known, falls.bounded, rfl⟩, primary, optime, behind, ?_,
        rfl, by rw [lag], rfl⟩
      rw [lag]
      exact warnAt_le_iff.2 falls.eaten
  stuck := by
    intro host state stuckFor
    rw [mem_pollSignals]
    simp only [reduceCtorEq, and_false, exists_false, false_or, mem_memberSignals, or_false,
      ReplicationSignal.stuckInState.injEq]
    refine exists_congr fun m => and_congr_right fun _ => ?_
    constructor
    · rintro ⟨notSelf, catchingUp, dwelt, rfl, rfl, rfl⟩
      exact ⟨rfl, rfl, rfl, notSelf, catchingUp, dwelt⟩
    · rintro ⟨rfl, rfl, rfl, stuck⟩
      exact ⟨stuck.notSelf, stuck.catchingUp, stuck.dwelt, rfl, rfl, rfl⟩
  windowLow := by
    intro window
    rw [mem_pollSignals]
    simp only [mem_memberSignals, reduceCtorEq, and_false, exists_false, or_false,
      ReplicationSignal.oplogWindowLow.injEq]
    exact exists_congr fun secs => and_comm
  rows := by
    simp [pollSignals, deriveSignals, boundedWindow]

/-! ### Monotonicity -/

/-- The row is no better off: its optime is no higher and its dwell no shorter. -/
structure WorseRow (m later : MemberObservation) : Prop where
  host : later.host = m.host
  stateStr : later.stateStr = m.stateStr
  isSelf : later.isSelf = m.isSelf
  healthy : later.healthy = m.healthy
  optime : Option.Rel (fun earlier lower => lower ≤ earlier) m.optimeSecs later.optimeSecs
  dwell : m.dwell ≤ later.dwell

/-- Row by row no better off, with the primary no lower and the window no wider. -/
structure Worse (windowSecs laterWindow : Option Nat) (primaryOptimeSecs laterPrimary : Option UInt32)
    (members laterMembers : List MemberObservation) : Prop where
  window : Option.Rel (fun wider narrower => narrower ≤ wider) windowSecs laterWindow
  primary : Option.Rel (fun lower higher => lower ≤ higher) primaryOptimeSecs laterPrimary
  members : List.Forall₂ WorseRow members laterMembers

theorem StuckRow.worse {m later : MemberObservation} (stuck : StuckRow m) (worse : WorseRow m later) :
    StuckRow later where
  notSelf := worse.isSelf.trans stuck.notSelf
  catchingUp := by
    rw [worse.stateStr]
    exact stuck.catchingUp
  dwelt := le_trans stuck.dwelt worse.dwell

theorem WindowLow.worse {windowSecs laterWindow : Option Nat} {oplogSizeBounded : Bool} {window : Nat}
    (low : WindowLow windowSecs oplogSizeBounded window)
    (narrower : Option.Rel (fun wider narrower => narrower ≤ wider) windowSecs laterWindow) :
    ∃ later, WindowLow laterWindow oplogSizeBounded later := by
  obtain ⟨known, bounded, below⟩ := low
  subst known
  cases narrower with
  | some less => exact ⟨_, rfl, bounded, lt_of_le_of_lt less below⟩

/-- A lag that grows against a window that shrinks. -/
theorem FallsOff.worse {windowSecs laterWindow : Option Nat} {oplogSizeBounded : Bool}
    {primaryOptimeSecs laterPrimary : Option UInt32} {m later : MemberObservation} {lag window : Nat}
    (falls : FallsOff windowSecs oplogSizeBounded primaryOptimeSecs m lag window)
    (narrower : Option.Rel (fun wider narrower => narrower ≤ wider) windowSecs laterWindow)
    (higher : Option.Rel (fun lower higher => lower ≤ higher) primaryOptimeSecs laterPrimary)
    (worse : WorseRow m later) :
    ∃ laterLag laterSecs, FallsOff laterWindow oplogSizeBounded laterPrimary later laterLag laterSecs := by
  obtain ⟨primarySecs, memberSecs, rfl, optime, less, sum⟩ := falls.behind
  have known := falls.known
  subst known
  have lower := worse.optime
  rw [optime] at lower
  cases laterOptime : later.optimeSecs with
  | none =>
      rw [laterOptime] at lower
      cases lower
  | some laterMember =>
      rw [laterOptime] at lower
      cases lower with
      | some memberLess =>
          cases higher with
          | @some _ laterPrimarySecs primaryMore =>
              cases narrower with
              | @some _ laterSecs windowLess =>
                  have memberBound := UInt32.le_iff_toNat_le.1 memberLess
                  have primaryBound := UInt32.le_iff_toNat_le.1 primaryMore
                  have eaten := falls.eaten
                  refine ⟨laterPrimarySecs.toNat - laterMember.toNat, laterSecs,
                    worse.isSelf.trans falls.notSelf, worse.healthy.trans falls.healthy,
                    worse.stateStr.trans falls.secondary, rfl, falls.bounded,
                    ⟨laterPrimarySecs, laterMember, rfl, laterOptime, by omega, by omega⟩, by omega⟩

/-- A poll that is no better in any respect raises every incident again. -/
def SignalsMonotone (windowSecs : Option Nat) (oplogSizeBounded : Bool)
    (primaryOptimeSecs : Option UInt32) (members : List MemberObservation) : Prop :=
  ∀ laterWindow laterPrimary laterMembers,
    Worse windowSecs laterWindow primaryOptimeSecs laterPrimary members laterMembers →
    ∀ signal ∈ pollSignals windowSecs oplogSizeBounded primaryOptimeSecs members,
      ∃ later ∈ pollSignals laterWindow oplogSizeBounded laterPrimary laterMembers,
        later.dedupeKey = signal.dedupeKey

theorem signals_monotone (windowSecs : Option Nat) (oplogSizeBounded : Bool)
    (primaryOptimeSecs : Option UInt32) (members : List MemberObservation) :
    SignalsMonotone windowSecs oplogSizeBounded primaryOptimeSecs members := by
  intro laterWindow laterPrimary laterMembers worse signal reported
  have now := signals_exact windowSecs oplogSizeBounded primaryOptimeSecs members
  have then_ := signals_exact laterWindow oplogSizeBounded laterPrimary laterMembers
  have laterRow : ∀ m ∈ members, ∃ later ∈ laterMembers, WorseRow m later := by
    intro m member
    obtain ⟨i, inBounds, rfl⟩ := List.getElem_of_mem member
    have laterBounds := worse.members.length_eq ▸ inBounds
    exact ⟨laterMembers[i], List.getElem_mem laterBounds, worse.members.get inBounds laterBounds⟩
  cases signal with
  | stuckInState host state stuckFor =>
      obtain ⟨m, member, rfl, -, -, stuck⟩ := (now.stuck _ _ _).1 reported
      obtain ⟨later, laterMember, row⟩ := laterRow m member
      refine ⟨.stuckInState later.host later.stateStr later.dwell,
        (then_.stuck _ _ _).2 ⟨later, laterMember, rfl, rfl, rfl, stuck.worse row⟩, ?_⟩
      rw [ReplicationSignal.dedupeKey, ReplicationSignal.dedupeKey, row.host]
  | fallingOffOplog host lag window =>
      obtain ⟨m, member, lagSecs, secs, rfl, rfl, rfl, falls⟩ := (now.fallingOff _ _ _).1 reported
      obtain ⟨later, laterMember, row⟩ := laterRow m member
      obtain ⟨laterLag, laterSecs, laterFalls⟩ := falls.worse worse.window worse.primary row
      refine ⟨.fallingOffOplog later.host (.fromSecs laterLag) (.fromSecs laterSecs),
        (then_.fallingOff _ _ _).2 ⟨later, laterMember, laterLag, laterSecs, rfl, rfl, rfl, laterFalls⟩,
        ?_⟩
      rw [ReplicationSignal.dedupeKey, ReplicationSignal.dedupeKey, row.host]
  | oplogWindowLow window =>
      obtain ⟨secs, rfl, low⟩ := (now.windowLow _).1 reported
      obtain ⟨laterSecs, laterLow⟩ := low.worse worse.window
      refine ⟨.oplogWindowLow (.fromSecs laterSecs), (then_.windowLow _).2 ⟨laterSecs, rfl, laterLow⟩,
        ?_⟩
      rw [ReplicationSignal.dedupeKey, ReplicationSignal.dedupeKey]

/-- For every window, bound, optime and member list, each signal of a poll is there exactly under its own
    condition, and worse inputs never take one back. -/
theorem derive_signals_exact_and_monotone (windowSecs : Option Nat) (oplogSizeBounded : Bool)
    (primaryOptimeSecs : Option UInt32) (members : List MemberObservation) :
    SignalsExact windowSecs oplogSizeBounded primaryOptimeSecs members ∧
      SignalsMonotone windowSecs oplogSizeBounded primaryOptimeSecs members :=
  ⟨signals_exact windowSecs oplogSizeBounded primaryOptimeSecs members,
    signals_monotone windowSecs oplogSizeBounded primaryOptimeSecs members⟩

end MongoHa
