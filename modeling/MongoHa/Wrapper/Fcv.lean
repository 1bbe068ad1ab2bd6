/-
Module: MongoHa.Wrapper.Fcv
Layer: Wrapper
Purpose: `fcv.rs`: the series a version string names, the decision whether to raise mongod's
  `featureCompatibilityVersion` to the running series, the reads of one round, the raise with its read
  back, and the loop body of `reconcile`. Quoted strings in the texts are printed as `Debug` prints ASCII.
Imports: Mathlib.Data.List.TakeWhile, MongoHa.Wrapper.Orchestrate
Trusted boundary: human-reviewed spec
Main exports: Fcv, Fcv.Series, Fcv.parseSeries, Fcv.seriesOf, Fcv.Role, Fcv.MemberSeries, Fcv.Decision,
  Fcv.decide, Fcv.RoundReads, Fcv.round, Fcv.raise, Fcv.reconcileStep
Open obligations: none
-/
import Mathlib.Data.List.TakeWhile
import MongoHa.Wrapper.Orchestrate

namespace MongoHa

open Foundations.RustStr

/-- `featureCompatibilityVersion` as `getParameter` reports it: what the data files are at and, while a
    `setFeatureCompatibilityVersion` is in flight, what they are moving to. -/
structure Fcv where
  version : String
  target : Option String
deriving Repr, DecidableEq, Inhabited

namespace Fcv

/-! ### Series -/

/-- A `major.minor` series. -/
structure Series where
  major : UInt32
  minor : UInt32
deriving Repr, DecidableEq, Inhabited

namespace Series

instance : LT Series where
  lt left right := left.major < right.major ∨ left.major = right.major ∧ left.minor < right.minor

instance : LE Series where
  le left right := left.major < right.major ∨ left.major = right.major ∧ left.minor ≤ right.minor

instance (left right : Series) : Decidable (left < right) :=
  inferInstanceAs (Decidable (_ ∨ _))

instance (left right : Series) : Decidable (left ≤ right) :=
  inferInstanceAs (Decidable (_ ∨ _))

variable {left right : Series}

theorem lt_iff : left < right ↔
    left.major < right.major ∨ left.major = right.major ∧ left.minor < right.minor := Iff.rfl

theorem le_iff : left ≤ right ↔
    left.major < right.major ∨ left.major = right.major ∧ left.minor ≤ right.minor := Iff.rfl

theorem not_lt : ¬ left < right ↔ right ≤ left := by
  simp only [lt_iff, le_iff, UInt32.lt_iff_toNat_lt, UInt32.le_iff_toNat_le, ← UInt32.toNat_inj]
  omega

/-- Two series are equal, or one is below the other. -/
theorem lt_iff_ne_not_lt : left < right ↔ left ≠ right ∧ ¬ right < left := by
  obtain ⟨major, minor⟩ := left
  obtain ⟨otherMajor, otherMinor⟩ := right
  simp only [lt_iff, ne_eq, mk.injEq, UInt32.lt_iff_toNat_lt, ← UInt32.toNat_inj]
  omega

/-- `major.minor`, which is also the FCV value that names the series. -/
def text (series : Series) : String :=
  toString series.major.toNat ++ "." ++ toString series.minor.toNat

end Series

/-- `"8.3.1"` and `"8.3"` are of the series 8.3. -/
def parseSeries (version : String) : Option Series :=
  match split '.' (trim version) with
  | major :: minor :: _ => do
      let major ← parseU32 major
      let minor ← parseU32 (String.ofList (minor.toList.takeWhile Char.isDigit))
      some { major := major, minor := minor }
  | _ => none

/-- `series_of`. -/
def seriesOf (version : String) : Option String :=
  (parseSeries version).map Series.text

/-- The text of a series parses back to it. -/
theorem parseSeries_text (series : Series) : parseSeries series.text = some series := by
  have digits : ∀ n : Nat, ∀ c ∈ (toString n).toList, c.isDigit = true :=
    fun _ _ member => isDigit_of_mem_toString member
  have spelled : series.text.toList =
      (toString series.major.toNat).toList ++ '.' :: (toString series.minor.toNat).toList := by
    simp [Series.text]
  have solid : trim series.text = series.text := by
    apply trim_eq_self
    intro c member
    rw [spelled] at member
    rcases List.mem_append.1 member with major | minor
    · exact isWhitespace_of_isDigit (digits _ c major)
    · rcases List.mem_cons.1 minor with rfl | minor
      · decide
      · exact isWhitespace_of_isDigit (digits _ c minor)
  have undotted : ∀ n : Nat, '.' ∉ (toString n).toList := by
    intro n member
    exact absurd (digits n '.' member) (by decide)
  have pieces : split '.' series.text =
      [toString series.major.toNat, toString series.minor.toNat] := by
    rw [split, spelled, List.splitOn_append_cons_self, List.splitOn_eq_singleton (undotted _),
      List.splitOn_eq_singleton (undotted _), List.map_append, List.map_singleton, List.map_singleton,
      String.ofList_toList, String.ofList_toList, List.singleton_append]
  have whole : (toString series.minor.toNat).toList.takeWhile Char.isDigit =
      (toString series.minor.toNat).toList :=
    List.takeWhile_eq_self_iff.2 fun c member => digits _ c member
  unfold parseSeries
  rw [solid, pieces]
  simp only [whole, String.ofList_toList, parseU32_toString, Option.bind_eq_bind, Option.bind_some]

example : seriesOf " 8.3.1-rc0 " = some "8.3" := by decide
example : parseSeries "8.10" = some { major := 8, minor := 10 } := by decide
example : parseSeries "8" = none := by decide

/-! ### The decision -/

/-- What this node's mongod is, for the decision. -/
inductive Role where
  | standalone
  | primary
  | notPrimary
deriving Repr, DecidableEq, Inhabited

/-- Another member of the set as the primary sees it; no series when it did not answer with one. -/
structure MemberSeries where
  host : String
  healthy : Bool
  series : Option String
deriving Repr, DecidableEq, Inhabited

/-- What a reconcile round does. -/
inductive Decision where
  | upToDate
  | raise (series : String)
  | wait (reason : String)
  | refuse (reason : String)
deriving Repr, DecidableEq, Inhabited

/-- `Debug` of a string. -/
def debug (s : String) : String :=
  let quoted (c : Char) : String :=
    match c with
    | '"' => "\\\""
    | '\\' => "\\\\"
    | '\n' => "\\n"
    | '\r' => "\\r"
    | '\t' => "\\t"
    | c => String.singleton c
  "\"" ++ String.join (s.toList.map quoted) ++ "\""

/-- The decision of a primary whose FCV lags: every other member is healthy and on the running series, or
    past it, before a raise. -/
def decidePrimary (running : Series) (members : List MemberSeries) : Decision :=
  match members.find? fun m => !m.healthy with
  | some m => .wait ("member " ++ m.host ++ " is not healthy; a raise would strand it")
  | none =>
      match members.find? fun m => m.series.isNone with
      | some m => .wait ("member " ++ m.host ++ " did not report its binary version")
      | none =>
          match members.find? fun m => (m.series.bind parseSeries).all (· < running) with
          | some m =>
              .wait ("member " ++ m.host ++ " runs " ++ m.series.getD "?" ++ " while this node runs " ++
                running.text ++ "; a rolling upgrade is in progress")
          | none => .raise running.text

/-- `decide`: what a reconcile round does about the FCV it read. -/
def decide (running : String) (fcv : Fcv) (role : Role) (members : List MemberSeries) : Decision :=
  match parseSeries running with
  | none => .refuse ("running version " ++ debug running ++ " has no major.minor")
  | some runningSeries =>
      match parseSeries fcv.version with
      | none =>
          .refuse ("featureCompatibilityVersion " ++ debug fcv.version ++ " has no major.minor")
      | some current =>
          match fcv.target with
          | some target =>
              .wait ("an FCV transition to " ++ target ++ " is in flight (currently " ++
                fcv.version ++ ")")
          | none =>
              if current = runningSeries then .upToDate
              else if runningSeries < current then
                .refuse ("featureCompatibilityVersion " ++ fcv.version ++
                  " is above the running series " ++ runningSeries.text)
              else
                match role with
                | .standalone => .raise runningSeries.text
                | .notPrimary =>
                    .wait ("FCV " ++ fcv.version ++ " lags the running " ++ runningSeries.text ++
                      "; only the primary raises it")
                | .primary => decidePrimary runningSeries members

/-! ### A round -/

/-- The replies of the local mongod and of the members that one round may read. -/
structure RoundReads where
  /-- The version of `buildInfo`. -/
  buildInfo : MongoResult String
  fcv : MongoResult Fcv
  hello : MongoResult Hello
  status : MongoResult RsStatus
  /-- The series a member answered over a direct connection, by its host. -/
  peerSeries : String → Option String

def buildInfoSeries (buildInfo : MongoResult String) : MongoResult String := do
  let version ← buildInfo
  match seriesOf version with
  | some series => pure series
  | none =>
      throw { code := none, text := "buildInfo version " ++ debug version ++ " has no major.minor" }

/-- A member that is not healthy is not asked. -/
def memberSeries (peerSeries : String → Option String) (m : RsMember) : MemberSeries :=
  { host := m.host, healthy := m.healthy, series := if m.healthy then peerSeries m.host else none }

/-- One read of the facts and the decision they imply. -/
def round (config : Config) (reads : RoundReads) : MongoResult Decision := do
  let running ← buildInfoSeries reads.buildInfo
  let fcv ← reads.fcv
  if !config.rsEnabled then pure (decide running fcv .standalone [])
  else
    let hello ← reads.hello
    if !hello.isWritablePrimary then pure (decide running fcv .notPrimary [])
    else
      match ← reads.status with
      | .active _ _ _ members _ =>
          let others := members.filter fun m => !m.isSelf
          pure (decide running fcv .primary (others.map (memberSeries reads.peerSeries)))
      | _ => pure (.wait "this node reports primary but holds no replica set status yet")

/-- The read back after `setFeatureCompatibilityVersion`: only the asked series without a target counts. -/
def raise (series : String) (after : MongoResult Fcv) : MongoResult Unit := do
  let after ← after
  let target := match after.target with
    | some target => "Some(" ++ debug target ++ ")"
    | none => "None"
  if after.version = series ∧ after.target = none then pure ()
  else
    throw
      { code := none
        text := "featureCompatibilityVersion reads " ++ after.version ++ " (target " ++ target ++
          ") after asking for " ++ series }

/-! ### The loop -/

def waitInterval : Duration := .fromSecs 30

def defaultRecheck : Duration := .fromSecs 600

def recheckInterval (env : Environment) : Duration :=
  ((((env "FCV_RECHECK_SECONDS").bind fun value => parseU64 (trim value)).filter (0 < ·)).map
    Duration.fromSecs).getD defaultRecheck

/-- The reason and the error that were reported last. -/
structure Reported where
  lastReason : String
  lastError : String
deriving Repr, DecidableEq, Inhabited

/-- What one iteration of `reconcile` leaves: it may ask mongod for a series and send an event. -/
structure Reconciled where
  reported : Reported
  asks : Option String
  events : List TelemetryEvent
  sleep : Duration
deriving Repr, DecidableEq

/-- An error is reported once, until another one comes or the FCV is up to date. -/
def report (reported : Reported) (context error : String) : Reported × List TelemetryEvent :=
  if reported.lastError = error then (reported, [])
  else ({ reported with lastError := error }, [.componentError "fcv" error ("fcv-" ++ context)])

/-- The iteration that found this decision. `after` is what a raise reads back. -/
def reconcileStep (env : Environment) (reported : Reported) (after : MongoResult Fcv) :
    MongoResult Decision → Reconciled
  | .ok .upToDate =>
      { reported := { lastReason := "", lastError := "" }, asks := none, events := [],
        sleep := recheckInterval env }
  | .ok (.raise series) =>
      match raise series after with
      | .ok () =>
          { reported := { lastReason := "", lastError := "" }, asks := some series, events := [],
            sleep := recheckInterval env }
      | .error failure =>
          let (reported, events) := report reported "raise" failure.text
          { reported, asks := some series, events, sleep := waitInterval }
  | .ok (.wait reason) =>
      { reported := { reported with lastReason := reason }, asks := none, events := [],
        sleep := waitInterval }
  | .ok (.refuse reason) =>
      let (reported, events) := report reported "decide" reason
      { reported, asks := none, events, sleep := recheckInterval env }
  | .error failure =>
      let (reported, events) := report reported "read" failure.text
      { reported, asks := none, events, sleep := waitInterval }

/-- An iteration asks mongod for a series exactly when the decision is to raise to it. -/
theorem asks_reconcileStep {env : Environment} {reported : Reported} {after : MongoResult Fcv}
    {decision : MongoResult Decision} {series : String} :
    (reconcileStep env reported after decision).asks = some series ↔
      decision = .ok (.raise series) := by
  unfold reconcileStep
  split
  · simp
  · split <;> simp
  · simp
  · simp
  · simp

end Fcv

end MongoHa
