/-
Module: MongoHa.Foundations.HeldSince
Layer: Foundations
Purpose: The clock that measures how long a condition has held without contradiction. It is fed events:
  `hold t` (the condition was seen to hold at `t`), `keep` (nothing was learnt) and `reset` (it was seen
  not to hold). It keeps the time of the first `hold` after the last `reset`. `foldl_advance_eq_some_iff`
  reads a clock back as a split of its event list, `foldl_advance_longEnough_iff` says when it has run for
  long enough, and `heldSince_split` reads back a clock that is one component of a machine: the run splits
  at the step that set it, and no later step reset it.
  Where inputs carry increasing times, `heldSince_interval` states the same over an interval of time.
  `starts` counts how often the clock is set, and `starts_le_one_iff` and `starts_map_le_one_iff` read
  the count off the event list.
Imports: Mathlib.Algebra.Ring.Nat, Mathlib.Data.List.Induction, Mathlib.Order.Basic,
  MongoHa.Foundations.Machine
Trusted boundary: none (fully proved)
Main exports: Event, advance, foldl_advance_eq_some_iff, foldl_advance_longEnough_iff, starts,
  starts_map_le_one_iff, starts_trace, heldSince_split, Timed, heldSince_interval, heldSince_from,
  heldSince_dwell
Open obligations: none
-/
import Mathlib.Algebra.Ring.Nat
import Mathlib.Data.List.Induction
import Mathlib.Order.Basic
import MongoHa.Foundations.Machine

namespace Foundations.HeldSince

variable {τ : Type*}

/-- One thing an observer learns about the watched condition. -/
inductive Event (τ : Type*) where
  | hold (at_ : τ)
  | keep
  | reset
deriving DecidableEq, Repr

/-- The clock after one event. A running clock is not moved by a further `hold`. -/
def advance : Option τ → Event τ → Option τ
  | none, .hold t => some t
  | some since, .hold _ => some since
  | clock, .keep => clock
  | _, .reset => none

@[simp] theorem advance_keep (clock : Option τ) : advance clock .keep = clock := by
  cases clock <;> rfl

@[simp] theorem advance_reset (clock : Option τ) : advance clock .reset = none := by
  cases clock <;> rfl

@[simp] theorem advance_hold_none (t : τ) : advance none (.hold t) = some t := rfl

@[simp] theorem advance_hold_some (since t : τ) : advance (some since) (.hold t) = some since := rfl

/-- A clock reads `t` exactly when it already did and was never reset, or when some `hold t` met it
    stopped and no `reset` followed. -/
theorem foldl_advance_eq_some_iff {clock : Option τ} {events : List (Event τ)} {t : τ} :
    events.foldl advance clock = some t ↔
      (clock = some t ∧ .reset ∉ events) ∨
      ∃ before after, events = before ++ .hold t :: after ∧
        before.foldl advance clock = none ∧ .reset ∉ after := by
  induction events generalizing clock with
  | nil => simp
  | cons event rest ih =>
      rw [List.foldl_cons, ih]
      constructor
      · rintro (⟨advanced, kept⟩ | ⟨before, after, split, stopped, kept⟩)
        · cases event with
          | hold seen =>
              cases clock with
              | none =>
                  obtain rfl : seen = t := by simpa using advanced
                  exact Or.inr ⟨[], rest, rfl, rfl, kept⟩
              | some since => exact Or.inl ⟨advanced, by simpa using kept⟩
          | keep => exact Or.inl ⟨by simpa using advanced, by simpa using kept⟩
          | reset => simp at advanced
        · exact Or.inr ⟨event :: before, after, by simp [split], by simpa using stopped, kept⟩
      · rintro (⟨rfl, kept⟩ | ⟨before, after, split, stopped, kept⟩)
        · rw [List.mem_cons, not_or] at kept
          refine Or.inl ⟨?_, kept.2⟩
          cases event with
          | hold seen => rfl
          | keep => rfl
          | reset => exact absurd rfl kept.1
        · cases before with
          | nil =>
              obtain ⟨rfl, rfl⟩ : event = .hold t ∧ rest = after := by simpa using split
              simp only [List.foldl_nil] at stopped
              exact Or.inl ⟨by simp [stopped], kept⟩
          | cons first before =>
              obtain ⟨rfl, restEq⟩ : event = first ∧ rest = before ++ .hold t :: after := by
                simpa using split
              exact Or.inr ⟨before, after, restEq, by simpa using stopped, kept⟩

/-- A clock fed by entries whose holds do not go back in time has run for long enough exactly when some
    entry held long enough ago and no later one reset it. Further holds do not move the clock, so the entry
    need not be the one that set it. -/
theorem foldl_advance_longEnough_iff [Preorder τ] {ι : Type*} {event : ι → Event τ} {entries : List ι}
    {longEnough : τ → Prop} (earlierToo : ∀ s t, s ≤ t → longEnough t → longEnough s)
    (ordered : entries.Pairwise fun earlier later =>
      ∀ s, event earlier = .hold s → ∀ t, event later = .hold t → s ≤ t) :
    (∃ since, (entries.map event).foldl advance none = some since ∧ longEnough since) ↔
      ∃ before entry after t, entries = before ++ entry :: after ∧ event entry = .hold t ∧
        longEnough t ∧ ∀ later ∈ after, event later ≠ .reset := by
  constructor
  · rintro ⟨since, running, old⟩
    rcases foldl_advance_eq_some_iff.1 running with ⟨started, -⟩ | ⟨early, late, split, -, kept⟩
    · cases started
    · obtain ⟨before, rest, rfl, -, restEvents⟩ := List.map_eq_append_iff.1 split
      obtain ⟨entry, after, rfl, held, afterEvents⟩ := List.map_eq_cons_iff.1 restEvents
      refine ⟨before, entry, after, since, rfl, held, old, ?_⟩
      intro later member isReset
      rw [← afterEvents] at kept
      exact kept (List.mem_map.2 ⟨later, member, isReset⟩)
  · rintro ⟨before, entry, after, t, rfl, held, old, kept⟩
    obtain ⟨-, -, across⟩ := List.pairwise_append.1 ordered
    have unbroken : .reset ∉ after.map event := by
      intro member
      obtain ⟨later, listed, isReset⟩ := List.mem_map.1 member
      exact kept later listed isReset
    have run : ((before ++ entry :: after).map event).foldl advance none =
        (after.map event).foldl advance
          (advance ((before.map event).foldl advance none) (.hold t)) := by
      rw [List.map_append, List.map_cons, List.foldl_append, List.foldl_cons, held]
    rw [run]
    cases clock : (before.map event).foldl advance none with
    | none => exact ⟨t, foldl_advance_eq_some_iff.2 (Or.inl ⟨rfl, unbroken⟩), old⟩
    | some since =>
        refine ⟨since, foldl_advance_eq_some_iff.2 (Or.inl ⟨rfl, unbroken⟩), ?_⟩
        -- The entry met a running clock: an earlier hold set it.
        rcases foldl_advance_eq_some_iff.1 clock with ⟨started, -⟩ | ⟨early, late, split, -, -⟩
        · cases started
        · have member : .hold since ∈ before.map event := by simp [split]
          obtain ⟨first, listed, set⟩ := List.mem_map.1 member
          exact earlierToo since t (across first listed entry (List.mem_cons_self ..) since set t held) old

/-! ### How often the clock is set -/

/-- The number of times the events set the clock. -/
def starts : Option τ → List (Event τ) → Nat
  | _, [] => 0
  | none, .hold t :: rest => 1 + starts (some t) rest
  | some since, .hold _ :: rest => starts (some since) rest
  | clock, .keep :: rest => starts clock rest
  | _, .reset :: rest => starts none rest

@[simp] theorem starts_keep (clock : Option τ) (rest : List (Event τ)) :
    starts clock (.keep :: rest) = starts clock rest := by
  cases clock <;> rfl

@[simp] theorem starts_reset (clock : Option τ) (rest : List (Event τ)) :
    starts clock (.reset :: rest) = starts none rest := by
  cases clock <;> rfl

theorem starts_cons (clock : Option τ) (event : Event τ) (rest : List (Event τ)) :
    starts clock (event :: rest) = starts clock [event] + starts (advance clock event) rest := by
  cases event with
  | hold t =>
      cases clock with
      | none => rfl
      | some since => simp [starts]
  | keep => simp [starts]
  | reset => simp [starts]

/-- A stopped clock is never set exactly when nothing holds. -/
theorem starts_eq_zero_iff {events : List (Event τ)} :
    starts none events = 0 ↔ ∀ t, .hold t ∉ events := by
  induction events with
  | nil => simp [starts]
  | cons event rest ih =>
      cases event with
      | hold t =>
          simp only [starts, List.mem_cons, not_or]
          constructor
          · intro none_
            omega
          · intro never
            exact absurd rfl (never t).1
      | keep => simpa using ih
      | reset => simpa using ih

/-- A running clock is never set exactly when nothing holds after a reset. -/
theorem starts_some_eq_zero_iff {since : τ} {events : List (Event τ)} :
    starts (some since) events = 0 ↔ ¬ ∃ t, List.Sublist [.reset, .hold t] events := by
  induction events with
  | nil => simp [starts]
  | cons event rest ih =>
      cases event with
      | hold t => simpa [starts, List.cons_sublist_cons'] using ih
      | keep => simpa [List.cons_sublist_cons'] using ih
      | reset =>
          rw [starts_reset, starts_eq_zero_iff, ← not_exists_not]
          apply not_congr
          apply exists_congr
          intro t
          rw [not_not, List.cons_sublist_cons, List.singleton_sublist]

/-- A stopped clock is set at most once exactly when nothing holds, fails and holds again. -/
theorem starts_le_one_iff {events : List (Event τ)} :
    starts none events ≤ 1 ↔ ¬ ∃ s t, List.Sublist [.hold s, .reset, .hold t] events := by
  induction events with
  | nil => simp [starts]
  | cons event rest ih =>
      cases event with
      | hold first =>
          have once : starts none (.hold first :: rest) ≤ 1 ↔ starts (some first) rest = 0 := by
            rw [starts]
            omega
          rw [once, starts_some_eq_zero_iff]
          apply not_congr
          constructor
          · rintro ⟨t, later⟩
            exact ⟨first, t, later.cons_cons _⟩
          · rintro ⟨s, t, later⟩
            exact ⟨t, later.of_cons_cons⟩
      | keep => simpa [List.cons_sublist_cons'] using ih
      | reset => simpa [List.cons_sublist_cons'] using ih

/-- The same for events that are read off the entries of a list. -/
theorem starts_map_le_one_iff {ι : Type*} {event : ι → Event τ} {entries : List ι} :
    starts none (entries.map event) ≤ 1 ↔
      ¬ ∃ before gap after, List.Sublist [before, gap, after] entries ∧
        (∃ s, event before = .hold s) ∧ event gap = .reset ∧ ∃ t, event after = .hold t := by
  rw [starts_le_one_iff]
  apply not_congr
  constructor
  · rintro ⟨s, t, pattern⟩
    obtain ⟨found, sublist, mapped⟩ := List.sublist_map_iff.1 pattern
    obtain ⟨before, rest, rfl, heldBefore, mapped⟩ := List.map_eq_cons_iff.1 mapped.symm
    obtain ⟨gap, rest, rfl, reset, mapped⟩ := List.map_eq_cons_iff.1 mapped
    obtain ⟨after, rest, rfl, heldAfter, mapped⟩ := List.map_eq_cons_iff.1 mapped
    obtain rfl := List.map_eq_nil_iff.1 mapped
    exact ⟨before, gap, after, sublist, ⟨s, heldBefore⟩, reset, t, heldAfter⟩
  · rintro ⟨before, gap, after, sublist, ⟨s, heldBefore⟩, reset, t, heldAfter⟩
    have pattern := sublist.map event
    simp only [List.map_cons, List.map_nil, heldBefore, reset, heldAfter] at pattern
    exact ⟨s, t, pattern⟩

section Machine

variable {σ ι : Type*} {step : σ → ι → σ} {clock : σ → Option τ} {events : σ → ι → List (Event τ)}

/-- A component of a machine that advances by the events of each step. When it reads `t` at the end of
    a run that started with it stopped, the run splits at the step that set it to `t`, and no step after
    that one carries a `reset`. -/
theorem heldSince_split
    (advances : ∀ s input, clock (step s input) = (events s input).foldl advance (clock s))
    {s : σ} (stopped : clock s = none) {inputs : List ι} {t : τ}
    (running : clock (finalState step s inputs) = some t) :
    ∃ before input after, inputs = before ++ input :: after ∧
      .hold t ∈ events (finalState step s before) input ∧
      ∀ entry ∈ trace step (finalState step s (before ++ [input])) after,
        .reset ∉ events entry.1 entry.2 := by
  -- Induction from the end of the run: the last step either set the clock or found it running.
  induction inputs using List.reverseRecOn with
  | nil => simp [stopped] at running
  | append_singleton inputs last ih =>
      rw [finalState_append, finalState_cons, finalState_nil, advances,
        foldl_advance_eq_some_iff] at running
      rcases running with ⟨ran, unbroken⟩ | ⟨early, late, split, -, -⟩
      · obtain ⟨before, input, after, split, set, kept⟩ := ih ran
        refine ⟨before, input, after ++ [last], by simp [split], set, ?_⟩
        intro entry member
        rw [trace_append, List.mem_append] at member
        rcases member with old | new
        · exact kept entry old
        · rw [← finalState_append] at new
          have whole : before ++ [input] ++ after = inputs := by simp [split]
          rw [whole] at new
          obtain rfl : entry = (finalState step s inputs, last) := by simpa using new
          exact unbroken
      · refine ⟨inputs, last, [], rfl, ?_, by simp⟩
        simp [split]

/-- Where every step feeds the clock one event, and counts whether that sets it, a run has counted how
    often its events set the clock. -/
theorem starts_trace {event : σ → ι → Event τ} {count : σ → ι → Nat}
    (advances : ∀ s input, clock (step s input) = advance (clock s) (event s input))
    (counts : ∀ s input, count s input = starts (clock s) [event s input])
    (s : σ) (inputs : List ι) :
    ((trace step s inputs).map fun entry => count entry.1 entry.2).sum =
      starts (clock s) ((trace step s inputs).map fun entry => event entry.1 entry.2) := by
  induction inputs generalizing s with
  | nil => simp [starts]
  | cons input rest ih =>
      simp only [trace_cons, List.map_cons, List.sum_cons]
      rw [starts_cons, ih, advances, counts]

end Machine

/-! ### Runs whose inputs carry increasing times -/

section Timed

variable {σ ι : Type*} [Preorder τ] {time : ι → τ} {step : σ → ι → σ} {s : σ} {inputs : List ι}

/-- Each input of the run is strictly later than every earlier one. -/
def Timed (time : ι → τ) (inputs : List ι) : Prop :=
  inputs.Pairwise fun earlier later => time earlier < time later

theorem Timed.split {before after : List ι} {input : ι}
    (timed : Timed time (before ++ input :: after)) :
    Timed time before ∧ (∀ earlier ∈ before, time earlier < time input) ∧
      ∀ later ∈ after, time input < time later := by
  obtain ⟨ordered, rest, across⟩ := List.pairwise_append.1 timed
  refine ⟨ordered, ?_, (List.pairwise_cons.1 rest).1⟩
  intro earlier member
  exact across earlier member input (List.mem_cons_self ..)

/-- Where an entry of the trace lies relative to a split of the run. -/
theorem mem_trace_split {before after : List ι} {input : ι} {entry : σ × ι}
    (member : entry ∈ trace step s (before ++ input :: after)) :
    entry ∈ trace step s before ∨ entry = (finalState step s before, input) ∨
      entry ∈ trace step (finalState step s (before ++ [input])) after := by
  rw [trace_append, List.mem_append, trace_cons, List.mem_cons] at member
  rw [finalState_append]
  exact member

/-- One time, one entry. -/
theorem trace_eq_of_time_eq (timed : Timed time inputs) {left right : σ × ι}
    (leftMember : left ∈ trace step s inputs) (rightMember : right ∈ trace step s inputs)
    (sameTime : time left.2 = time right.2) : left = right := by
  obtain ⟨before, after, split, state⟩ := mem_trace_iff.1 rightMember
  rw [split] at timed leftMember
  obtain ⟨-, earlier, later⟩ := timed.split
  rcases mem_trace_split leftMember with old | same | new
  · exact absurd sameTime (earlier left.2 (snd_mem_of_mem_trace old)).ne
  · rw [same, ← state]
  · exact absurd sameTime (later left.2 (snd_mem_of_mem_trace new)).ne'

variable {clock : σ → Option τ} {events : σ → ι → List (Event τ)}

/-- A clock that reads `t` in some entry was set by the entry of time `t`, and no entry between the two
    reset it. -/
theorem heldSince_interval
    (advances : ∀ s input, clock (step s input) = (events s input).foldl advance (clock s))
    (stamped : ∀ s input t, .hold t ∈ events s input → time input = t)
    (stopped : clock s = none) (timed : Timed time inputs) {entry : σ × ι} {t : τ}
    (member : entry ∈ trace step s inputs) (running : clock entry.1 = some t) :
    ∃ first ∈ trace step s inputs, time first.2 = t ∧ t < time entry.2 ∧
      .hold t ∈ events first.1 first.2 ∧
      ∀ between ∈ trace step s inputs, t < time between.2 → time between.2 < time entry.2 →
        .reset ∉ events between.1 between.2 := by
  obtain ⟨past, future, split, state⟩ := mem_trace_iff.1 member
  rw [state] at running
  obtain ⟨before, input, after, pastSplit, set, kept⟩ :=
    heldSince_split advances stopped running
  rw [split] at timed
  obtain ⟨pastTimed, pastEarlier, futureLater⟩ := timed.split
  rw [pastSplit] at pastTimed
  obtain ⟨-, beforeEarlier, -⟩ := pastTimed.split
  have inputTime := stamped _ _ _ set
  have inputPast : input ∈ past := by simp [pastSplit]
  refine ⟨(finalState step s before, input), ?_, inputTime, ?_, set, ?_⟩
  · rw [mem_trace_iff]
    exact ⟨before, after ++ entry.2 :: future, by simp [split, pastSplit], rfl⟩
  · rw [← inputTime]
    exact pastEarlier input inputPast
  · intro between betweenMember afterStart beforeEnd
    rw [split] at betweenMember
    rcases mem_trace_split betweenMember with old | same | new
    · rw [pastSplit] at old
      rcases mem_trace_split old with older | first | inside
      · have early := beforeEarlier between.2 (snd_mem_of_mem_trace older)
        rw [inputTime] at early
        exact absurd early afterStart.asymm
      · rw [first] at afterStart
        exact absurd inputTime afterStart.ne'
      · exact kept between inside
    · rw [same] at beforeEnd
      exact absurd beforeEnd (lt_irrefl _)
    · exact absurd beforeEnd (futureLater between.2 (snd_mem_of_mem_trace new)).asymm

/-- The same with the entry that set the clock: from its time on, every entry before the one that reads
    the clock either set it or did not reset it. -/
theorem heldSince_from {τ : Type*} [PartialOrder τ] {time : ι → τ} {clock : σ → Option τ}
    {events : σ → ι → List (Event τ)}
    (advances : ∀ s input, clock (step s input) = (events s input).foldl advance (clock s))
    (stamped : ∀ s input t, .hold t ∈ events s input → time input = t)
    (stopped : clock s = none) (timed : Timed time inputs) {entry : σ × ι} {t : τ}
    (member : entry ∈ trace step s inputs) (running : clock entry.1 = some t) :
    ∃ first ∈ trace step s inputs, time first.2 = t ∧ t < time entry.2 ∧
      ∀ between ∈ trace step s inputs, t ≤ time between.2 → time between.2 < time entry.2 →
        .hold t ∈ events between.1 between.2 ∨ .reset ∉ events between.1 between.2 := by
  obtain ⟨first, firstMember, firstTime, started, set, unbroken⟩ :=
    heldSince_interval advances stamped stopped timed member running
  refine ⟨first, firstMember, firstTime, started, ?_⟩
  intro between betweenMember opened closed
  rcases opened.lt_or_eq with inside | atStart
  · exact Or.inr (unbroken between betweenMember inside closed)
  · obtain rfl : between = first :=
      trace_eq_of_time_eq timed betweenMember firstMember (by rw [firstTime, atStart])
    exact Or.inl set

/-- A clock that has run for a dwell was held throughout the dwell: every entry in it either set the clock
    or did not reset it. -/
theorem heldSince_dwell {time : ι → Nat} {clock : σ → Option Nat} {events : σ → ι → List (Event Nat)}
    (advances : ∀ s input, clock (step s input) = (events s input).foldl advance (clock s))
    (stamped : ∀ s input t, .hold t ∈ events s input → time input = t)
    (stopped : clock s = none) (timed : Timed time inputs) {entry : σ × ι} {t dwell : Nat}
    (member : entry ∈ trace step s inputs) (running : clock entry.1 = some t)
    (dwelt : dwell ≤ time entry.2 - t) :
    ∀ between ∈ trace step s inputs,
      time entry.2 ≤ time between.2 + dwell → time between.2 < time entry.2 →
        .hold t ∈ events between.1 between.2 ∨ .reset ∉ events between.1 between.2 := by
  obtain ⟨first, -, -, started, held⟩ := heldSince_from advances stamped stopped timed member running
  intro between betweenMember inWindow earlier
  -- The clock was set before the dwell began, so nothing in the dwell reset it.
  have opened : t ≤ time between.2 := by
    have whole := Nat.add_le_of_le_sub' started.le dwelt
    exact Nat.le_of_add_le_add_right (whole.trans inWindow)
  exact held between betweenMember opened earlier

end Timed

end Foundations.HeldSince
