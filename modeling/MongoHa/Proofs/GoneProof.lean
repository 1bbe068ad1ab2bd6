/-
Module: MongoHa.Proofs.GoneProof
Layer: Proofs
Purpose: What the gone tracker proves. After any calls on any hosts, a host is waived exactly when it was
  seen gone a dwell ago or earlier and at every observation of it since.
Imports: MongoHa.Foundations.HeldSince, MongoHa.Foundations.Machine, MongoHa.Proofs.PeerRound
Trusted boundary: none (fully proved)
Main exports: TrackerCall, GoneTracker.after, goneSince_after, ProvedGone, isWaived_iff_unbroken,
  trackerAfterRounds, waived_after_rounds_iff
Open obligations: none
-/
import MongoHa.Foundations.HeldSince
import MongoHa.Foundations.Machine
import MongoHa.Proofs.PeerRound

namespace MongoHa

open Foundations
open Foundations.HeldSince

/-- A call that changes the tracker. -/
inductive TrackerCall where
  | observe (host : String) (verdict : NameVerdict) (now : Instant)
  | observeReachable (host : String)
deriving Repr, DecidableEq, Inhabited

namespace TrackerCall

def host : TrackerCall → String
  | observe host _ _ => host
  | observeReachable host => host

/-- The instant a call is given. -/
def time : TrackerCall → Option Instant
  | observe _ _ now => some now
  | observeReachable _ => none

def apply (tracker : GoneTracker) : TrackerCall → GoneTracker
  | observe host verdict now => tracker.observe host verdict now
  | observeReachable host => tracker.observeReachable host

/-- What a call tells the clock of one host. -/
def event (watched : String) : TrackerCall → Event Instant
  | observe host verdict now => if host = watched then verdict.event now else .keep
  | observeReachable host => if host = watched then .reset else .keep

variable {call : TrackerCall} {watched : String}

theorem event_eq_hold_iff {t : Instant} :
    call.event watched = .hold t ↔ call = .observe watched .gone t := by
  cases call with
  | observe host verdict now =>
      by_cases same : host = watched
      · cases verdict <;> simp [event, same, NameVerdict.event]
      · simp [event, same]
  | observeReachable host =>
      by_cases same : host = watched <;> simp [event, same]

/-- A call resets the clock of its own host unless it saw the host gone. -/
theorem event_ne_reset_iff :
    call.event watched ≠ .reset ↔ (call.host = watched → ∃ t, call = .observe watched .gone t) := by
  cases call with
  | observe host verdict now =>
      by_cases same : host = watched
      · cases verdict <;> simp [event, same, NameVerdict.event, TrackerCall.host]
      · simp [event, same, TrackerCall.host]
  | observeReachable host =>
      by_cases same : host = watched <;> simp [event, same, TrackerCall.host]

theorem goneSince_apply (tracker : GoneTracker) :
    (apply tracker call).goneSince watched =
      advance (tracker.goneSince watched) (call.event watched) := by
  cases call with
  | observe host verdict now =>
      by_cases same : host = watched
      · subst same
        simpa [apply, event] using tracker.observe_self host verdict now
      · simpa [apply, event, same] using tracker.observe_of_ne verdict now (Ne.symm same)
  | observeReachable host =>
      by_cases same : host = watched
      · subst same
        simp [apply, event]
      · simpa [apply, event, same] using tracker.observeReachable_of_ne (Ne.symm same)

end TrackerCall

/-- The tracker after calls, from a new one. -/
def GoneTracker.after (calls : List TrackerCall) : GoneTracker :=
  finalState TrackerCall.apply GoneTracker.new calls

/-- Each host has a clock of its own, which the calls feed. -/
theorem goneSince_after (calls : List TrackerCall) (watched : String) :
    (GoneTracker.after calls).goneSince watched =
      (calls.map (TrackerCall.event watched)).foldl advance none := by
  have run : ∀ tracker : GoneTracker, (finalState TrackerCall.apply tracker calls).goneSince watched =
      (calls.map (TrackerCall.event watched)).foldl advance (tracker.goneSince watched) := by
    intro tracker
    induction calls generalizing tracker with
    | nil => rfl
    | cons call rest ih =>
        rw [finalState_cons, ih, TrackerCall.goneSince_apply, List.map_cons, List.foldl_cons]
  exact run GoneTracker.new

/-- An unbroken proof that a host was gone for a dwell: it was seen gone a dwell before `now` or earlier,
    and at every later call about it. -/
def ProvedGone (calls : List TrackerCall) (host : String) (now : Instant) (dwell : Duration) : Prop :=
  ∃ before t after, calls = before ++ .observe host .gone t :: after ∧ t + dwell ≤ now ∧
    ∀ call ∈ after, call.host = host → ∃ s, call = .observe host .gone s

/-- A clock reads an instant that some call was given. -/
theorem time_of_goneSince {calls : List TrackerCall} {watched : String} {since : Instant}
    (running : (GoneTracker.after calls).goneSince watched = some since) :
    ∃ call ∈ calls, call.time = some since := by
  rw [goneSince_after] at running
  rcases foldl_advance_eq_some_iff.1 running with ⟨started, -⟩ | ⟨early, late, split, -, -⟩
  · cases started
  · have held : .hold since ∈ calls.map (TrackerCall.event watched) := by simp [split]
    obtain ⟨call, made, holds⟩ := List.mem_map.1 held
    rw [TrackerCall.event_eq_hold_iff] at holds
    exact ⟨call, made, by rw [holds]; rfl⟩

/-- Where time does not go back from call to call, the tracker waives exactly the hosts that are proved
    gone. -/
theorem isWaived_after_iff {calls : List TrackerCall} {now : Instant}
    (ordered : calls.Pairwise fun earlier later =>
      ∀ s, earlier.time = some s → ∀ t, later.time = some t → s ≤ t)
    (past : ∀ call ∈ calls, ∀ t, call.time = some t → t ≤ now) (host : String) (dwell : Duration) :
    (GoneTracker.after calls).isWaived host now dwell = true ↔ ProvedGone calls host now dwell := by
  have clock : (GoneTracker.after calls).isWaived host now dwell = true ↔
      ∃ since, (calls.map (TrackerCall.event host)).foldl advance none = some since ∧
        since + dwell ≤ now := by
    rw [GoneTracker.isWaived_iff, ← goneSince_after]
    apply exists_congr
    intro since
    apply and_congr_right
    intro running
    obtain ⟨call, made, timed⟩ := time_of_goneSince running
    rw [Nat.le_sub_iff_add_le (past call made since timed), Nat.add_comm]
  have earlierToo : ∀ s t : Instant, s ≤ t → t + dwell ≤ now → s + dwell ≤ now := by
    intro s t earlier dwelt
    exact (Nat.add_le_add_right earlier dwell).trans dwelt
  have holdsOrdered : calls.Pairwise fun earlier later => ∀ s, earlier.event host = .hold s →
      ∀ t, later.event host = .hold t → s ≤ t := by
    apply ordered.imp
    intro earlier later inOrder s first t second
    rw [TrackerCall.event_eq_hold_iff] at first second
    subst first second
    exact inOrder s rfl t rfl
  rw [clock, foldl_advance_longEnough_iff earlierToo holdsOrdered]
  constructor
  · rintro ⟨before, call, after, t, split, seen, dwelt, kept⟩
    rw [TrackerCall.event_eq_hold_iff] at seen
    subst seen
    refine ⟨before, t, after, split, dwelt, ?_⟩
    intro call member
    exact TrackerCall.event_ne_reset_iff.1 (kept call member)
  · rintro ⟨before, t, after, split, dwelt, kept⟩
    refine ⟨before, _, after, t, split, TrackerCall.event_eq_hold_iff.2 rfl, dwelt, ?_⟩
    intro call member
    exact TrackerCall.event_ne_reset_iff.2 (kept call member)

/-- A host is waived exactly on an unbroken proof of a dwell. -/
theorem isWaived_iff_unbroken {calls : List TrackerCall} {now : Instant}
    (ordered : (calls.filterMap TrackerCall.time).Pairwise (· ≤ ·))
    (past : ∀ t ∈ calls.filterMap TrackerCall.time, t ≤ now) (host : String) (dwell : Duration) :
    (GoneTracker.after calls).isWaived host now dwell = true ↔
      ∃ before t after, calls = before ++ .observe host .gone t :: after ∧ t + dwell ≤ now ∧
        ∀ call ∈ after, call.host = host → ∃ s, call = .observe host .gone s := by
  apply isWaived_after_iff (List.pairwise_filterMap.1 ordered)
  intro call made t timed
  exact past t (List.mem_filterMap.2 ⟨call, made, timed⟩)

/-- A minute of proof, with other hosts observed in between. -/
theorem isWaived_after_a_minute :
    (GoneTracker.after [.observe "mongo-1" .gone 0, .observe "mongo-2" .gone 5,
      .observeReachable "mongo-1", .observe "mongo-3" .existsOrUnknown 30,
      .observe "mongo-2" .gone 60]).isWaived "mongo-2" 65 60 = true :=
  (isWaived_iff_unbroken (by decide) (by decide) "mongo-2" 60).2
    ⟨[.observe "mongo-1" .gone 0], 5, _, rfl, by decide, by
      simp [TrackerCall.host]⟩

/-! ### The tracker of the peer rounds -/

/-- What the peer round does with one answer. -/
def roundCall (now : Instant) (entry : RoundAnswer) : TrackerCall :=
  if standingOf entry.2.1 = .unknown then .observe entry.1 entry.2.2 now
  else .observeReachable entry.1

def roundCalls (config : Config) (poll : Poll) : List TrackerCall :=
  (roundAnswers config poll).map (roundCall poll.now)

/-- The tracker after peer rounds, from the one `orchestrate` starts with. -/
def trackerAfterRounds (config : Config) (polls : List Poll) : GoneTracker :=
  finalState (fun gone poll => (surveyRound config gone poll).gone) GoneTracker.new polls

theorem surveyRound_gone (config : Config) (gone : GoneTracker) (poll : Poll) :
    (surveyRound config gone poll).gone =
      finalState TrackerCall.apply gone (roundCalls config poll) := by
  have turn : ∀ tracker entry, observeAnswer poll.now tracker entry =
      TrackerCall.apply tracker (roundCall poll.now entry) := by
    intro tracker entry
    unfold observeAnswer roundCall
    split
    · rfl
    · rfl
  have survey : (surveyRound config gone poll).gone =
      (roundAnswers config poll).foldl (observeAnswer poll.now) gone := surveyPeers_gone gone _
  rw [survey, finalState, roundCalls, List.foldl_map]
  congr
  funext tracker entry
  exact turn tracker entry

theorem trackerAfterRounds_eq (config : Config) (polls : List Poll) :
    trackerAfterRounds config polls = GoneTracker.after (polls.flatMap (roundCalls config)) := by
  have run : ∀ gone : GoneTracker,
      finalState (fun gone poll => (surveyRound config gone poll).gone) gone polls =
        finalState TrackerCall.apply gone (polls.flatMap (roundCalls config)) := by
    intro gone
    induction polls generalizing gone with
    | nil => rfl
    | cons poll rest ih =>
        rw [finalState_cons, ih, surveyRound_gone, List.flatMap_cons, finalState_append]
  exact run GoneTracker.new

/-- A round gives its own instant to every probe. -/
theorem time_of_mem_roundCalls {config : Config} {poll : Poll} {call : TrackerCall} {t : Instant}
    (made : call ∈ roundCalls config poll) (timed : call.time = some t) : t = poll.now := by
  obtain ⟨entry, -, rfl⟩ := List.mem_map.1 made
  unfold roundCall at timed
  split at timed
  · exact (Option.some.inj timed).symm
  · cases timed

/-- In rounds that follow each other in time, a peer is waived exactly on an unbroken proof: some round a
    dwell ago or earlier probed its name as gone, and so did every answer about it since. -/
theorem waived_after_rounds_iff {config : Config} {polls : List Poll} {now : Instant}
    (ordered : polls.Pairwise fun earlier later => earlier.now ≤ later.now)
    (past : ∀ poll ∈ polls, poll.now ≤ now) (host : String) :
    (trackerAfterRounds config polls).isWaived host now config.peerGoneDwell = true ↔
      ProvedGone (polls.flatMap (roundCalls config)) host now config.peerGoneDwell := by
  rw [trackerAfterRounds_eq]
  apply isWaived_after_iff
  · rw [List.pairwise_flatMap]
    constructor
    · intro poll _
      apply List.pairwise_of_forall_mem_list
      intro earlier made later madeLater s first t second
      rw [time_of_mem_roundCalls made first, time_of_mem_roundCalls madeLater second]
    · apply ordered.imp
      intro earlier later inOrder call made other madeLater s first t second
      rw [time_of_mem_roundCalls made first, time_of_mem_roundCalls madeLater second]
      exact inOrder
  · intro call made t timed
    obtain ⟨poll, listed, called⟩ := List.mem_flatMap.1 made
    rw [time_of_mem_roundCalls called timed]
    exact past poll listed

end MongoHa
