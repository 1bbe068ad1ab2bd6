/-
Module: MongoHa.Proofs.FcvRaise
Layer: Proofs
Purpose: When the FCV is raised. The decision is a raise exactly when the versions parse, nothing is in
  flight, the FCV is behind and the set lets this node raise; then it names the running series.
Imports: MongoHa.Wrapper.Fcv
Trusted boundary: none (fully proved)
Main exports: decidePrimary_raise_iff, decide_raise_iff, raise_exact
Open obligations: none
-/
import MongoHa.Wrapper.Fcv

namespace MongoHa.Fcv

/-- A member that a raise to this series does not strand. -/
def MemberSeries.Follows (m : MemberSeries) (running : Series) : Prop :=
  m.healthy = true ∧ ∃ series, m.series.bind parseSeries = some series ∧ running ≤ series

/-- A primary raises exactly when every other member follows. -/
theorem decidePrimary_raise_iff {running : Series} {members : List MemberSeries} {series : String} :
    decidePrimary running members = .raise series ↔
      (∀ m ∈ members, m.Follows running) ∧ series = running.text := by
  unfold decidePrimary
  split
  · rename_i m found
    have listed := List.mem_of_find?_eq_some found
    have unhealthy := List.find?_some found
    constructor
    · intro raises
      cases raises
    · rintro ⟨follows, -⟩
      rw [(follows m listed).1] at unhealthy
      cases unhealthy
  · rename_i healthy
    split
    · rename_i m found
      have listed := List.mem_of_find?_eq_some found
      have silent : m.series = none := by simpa using List.find?_some found
      constructor
      · intro raises
        cases raises
      · rintro ⟨follows, -⟩
        obtain ⟨series, parsed, -⟩ := (follows m listed).2
        rw [silent] at parsed
        cases parsed
    · split
      · rename_i m found
        have listed := List.mem_of_find?_eq_some found
        have behind := List.find?_some found
        constructor
        · intro raises
          cases raises
        · rintro ⟨follows, -⟩
          obtain ⟨series, parsed, current⟩ := (follows m listed).2
          rw [parsed] at behind
          simp only [Option.all_some, decide_eq_true_eq] at behind
          exact absurd behind (Series.not_lt.2 current)
      · rename_i current
        constructor
        · intro raises
          cases raises
          refine ⟨fun m listed => ⟨?_, ?_⟩, rfl⟩
          · simpa using List.find?_eq_none.1 healthy m listed
          · have ahead := List.find?_eq_none.1 current m listed
            cases parsed : m.series.bind parseSeries with
            | none => simp [parsed] at ahead
            | some series =>
                rw [parsed] at ahead
                simp only [Option.all_some, decide_eq_true_eq] at ahead
                exact ⟨series, rfl, Series.not_lt.1 ahead⟩
        · rintro ⟨-, rfl⟩
          rfl

/-- Whether the set lets this node raise to the running series. -/
def MayRaise (running : Series) (role : Role) (members : List MemberSeries) : Prop :=
  role = .standalone ∨ role = .primary ∧ ∀ m ∈ members, m.Follows running

/-- A round raises exactly when the FCV is behind, carries no target, and every member follows. -/
theorem decide_raise_iff {running : String} {fcv : Fcv} {role : Role} {members : List MemberSeries}
    {series : String} :
    decide running fcv role members = .raise series ↔
      ∃ runningSeries current, parseSeries running = some runningSeries ∧
        parseSeries fcv.version = some current ∧ fcv.target = none ∧ current < runningSeries ∧
        MayRaise runningSeries role members ∧ series = runningSeries.text := by
  unfold decide
  cases ran : parseSeries running with
  | none => simp
  | some runningSeries =>
      cases at_ : parseSeries fcv.version with
      | none => simp
      | some current =>
          cases fcv.target with
          | some target => simp
          | none =>
              have behind_iff : current < runningSeries ↔
                  current ≠ runningSeries ∧ ¬ runningSeries < current := Series.lt_iff_ne_not_lt
              simp only [Option.some.injEq, exists_and_left, exists_eq_left', true_and, behind_iff]
              by_cases same : current = runningSeries
              · simp [same]
              · by_cases above : runningSeries < current
                · simp [same, above]
                · cases role with
                  | standalone => simp [same, above, MayRaise, eq_comm]
                  | notPrimary => simp [same, above, MayRaise]
                  | primary => simp [same, above, MayRaise, decidePrimary_raise_iff]

/-- The FCV is raised exactly when both versions parse, no transition is in flight, it is behind the
    running series, and the node is a standalone or a primary whose members all are healthy and on that
    series or past it; and the raise names the running series. -/
theorem raise_exact (running : String) (fcv : Fcv) (role : Role) (members : List MemberSeries) :
    ((∃ series, decide running fcv role members = .raise series) ↔
      ∃ runningSeries current, parseSeries running = some runningSeries ∧
        parseSeries fcv.version = some current ∧ fcv.target = none ∧ current < runningSeries ∧
        (role = .standalone ∨ role = .primary ∧ ∀ m ∈ members, m.healthy = true ∧
          ∃ series, m.series.bind parseSeries = some series ∧ runningSeries ≤ series)) ∧
    ∀ series, decide running fcv role members = .raise series →
      ∃ runningSeries, parseSeries running = some runningSeries ∧
        parseSeries series = some runningSeries := by
  constructor
  · constructor
    · rintro ⟨series, raises⟩
      obtain ⟨runningSeries, current, ran, at_, free, behind, may, -⟩ := decide_raise_iff.1 raises
      exact ⟨runningSeries, current, ran, at_, free, behind, may⟩
    · rintro ⟨runningSeries, current, ran, at_, free, behind, may⟩
      exact ⟨runningSeries.text,
        decide_raise_iff.2 ⟨runningSeries, current, ran, at_, free, behind, may, rfl⟩⟩
  · intro series raises
    obtain ⟨runningSeries, -, ran, -, -, -, -, rfl⟩ := decide_raise_iff.1 raises
    exact ⟨runningSeries, ran, parseSeries_text runningSeries⟩

end MongoHa.Fcv
