/-
Module: MongoHa.Wrapper.InitiateGuard
Layer: Wrapper
Purpose: The initiate-vs-join decision of `rs.rs`: the tracker of names that are authoritatively gone,
  the standing a peer's answer gives it, the pure `decide`, and the part of the `orchestrate` loop that
  queries the declared peers and builds the list `decide` ranges over. The lemmas say what each piece
  can do, so that the results above never unfold them: the tracker is a held-since clock for each host,
  `decide` answers SafeToInitiate exactly when no peer blocks it, and the survey keeps every answer that
  is not waived.
Imports: MongoHa.Foundations.HeldSince, MongoHa.Wrapper.Peers
Trusted boundary: human-reviewed spec
Main exports: GoneTracker, PeerStanding, Verdict, standingOf, Rs.decide, TaskOutcome, queryPeers,
  probeAnswers, Survey, surveyPeers, decide_eq_safeToInitiate_iff, surveyPeers_covers
Open obligations: none
-/
import MongoHa.Foundations.HeldSince
import MongoHa.Wrapper.Peers

namespace MongoHa

open Foundations.RustStr
open Foundations.HeldSince

/-! ### The gone tracker -/

/-- How long each unreachable peer's name has been authoritatively gone. -/
structure GoneTracker where
  goneSince : String → Option Instant

namespace GoneTracker

def new : GoneTracker := { goneSince := fun _ => none }

def observe (tracker : GoneTracker) (host : String) (verdict : NameVerdict) (now : Instant) :
    GoneTracker :=
  match verdict with
  | .gone =>
      { goneSince := Function.update tracker.goneSince host
          (some ((tracker.goneSince host).getD now)) }
  | .existsOrUnknown => { goneSince := Function.update tracker.goneSince host none }

/-- A reachable peer is present again by definition, its clock resets. -/
def observeReachable (tracker : GoneTracker) (host : String) : GoneTracker :=
  { goneSince := Function.update tracker.goneSince host none }

def isWaived (tracker : GoneTracker) (host : String) (now : Instant) (dwell : Duration) : Bool :=
  match tracker.goneSince host with
  | some since => dwell ≤ Instant.durationSince now since
  | none => false

theorem isWaived_iff {tracker : GoneTracker} {host : String} {now : Instant} {dwell : Duration} :
    tracker.isWaived host now dwell = true ↔
      ∃ since, tracker.goneSince host = some since ∧ dwell ≤ now - since := by
  cases running : tracker.goneSince host with
  | none => simp [isWaived, running]
  | some since =>
      simp [isWaived, running]
      exact Iff.rfl

end GoneTracker

/-- A completed probe as an event of the host's clock. -/
def NameVerdict.event (verdict : NameVerdict) (now : Instant) : Event Instant :=
  match verdict with
  | .gone => .hold now
  | .existsOrUnknown => .reset

namespace GoneTracker

/-- The tracker is one held-since clock for each host: a probe advances the clock of its own host. -/
theorem observe_self (tracker : GoneTracker) (host : String) (verdict : NameVerdict)
    (now : Instant) :
    (tracker.observe host verdict now).goneSince host =
      advance (tracker.goneSince host) (verdict.event now) := by
  cases verdict with
  | gone => cases running : tracker.goneSince host <;> simp [observe, NameVerdict.event, running]
  | existsOrUnknown => simp [observe, NameVerdict.event]

theorem observe_of_ne (tracker : GoneTracker) {host other : String} (verdict : NameVerdict)
    (now : Instant) (different : other ≠ host) :
    (tracker.observe host verdict now).goneSince other = tracker.goneSince other := by
  cases verdict <;> simp [observe, Function.update_of_ne different]

@[simp] theorem observeReachable_self (tracker : GoneTracker) (host : String) :
    (tracker.observeReachable host).goneSince host = none := by
  simp [observeReachable]

theorem observeReachable_of_ne (tracker : GoneTracker) {host other : String}
    (different : other ≠ host) :
    (tracker.observeReachable host).goneSince other = tracker.goneSince other := by
  simp [observeReachable, Function.update_of_ne different]

end GoneTracker

/-! ### The pure decision -/

/-- One peer's standing in an initiate round. -/
inductive PeerStanding where
  /-- Holds a replica set config: the set exists, join it. -/
  | inSet (primaryHost : Option String)
  /-- Answered, no set; whether it holds user data decides the tie-break. -/
  | noSet (hasData : Bool)
  /-- Unreachable or not ready. -/
  | unknown
deriving Repr, DecidableEq, Inhabited

/-- What a peer round says about initiating. -/
inductive Verdict where
  | joinExisting (primaryHost : Option String)
  | safeToInitiate
  | deferTo (host : String)
  | undecidable
deriving Repr, DecidableEq, Inhabited

/-- A peer as `decide` sees it: its host, its declared rank and its standing. -/
abbrev SurveyedPeer := String × Option Nat × PeerStanding

/-- What a peer's answer says of it. -/
def standingOf : PeerAnswer → PeerStanding
  | .state reported =>
      if reported.setActive then .inSet reported.primaryHost else .noSet reported.hasData
  | .notReady | .unreachable => .unknown

def PeerStanding.isInSet : PeerStanding → Bool
  | .inSet _ => true
  | _ => false

def PeerStanding.knownPrimary : PeerStanding → Option String
  | .inSet primaryHost => primaryHost
  | _ => none

/-- User data first, declared seed order second. An undeclared peer or self ranks last. -/
def peerWins (hasData myHasData : Bool) (rank mySeedRank : Option Nat) : Bool :=
  match hasData, myHasData with
  | true, false => true
  | false, true => false
  | _, _ => rank.getD usizeMax < mySeedRank.getD usizeMax

/-- Whether the loop over the standings ends at this peer. -/
def defersTo (myHasData : Bool) (mySeedRank : Option Nat) (peer : SurveyedPeer) : Bool :=
  match peer.2.2 with
  | .noSet hasData => peerWins hasData myHasData peer.2.1 mySeedRank
  | _ => false

/-- The initiate decision. -/
protected def Rs.decide (myHasData : Bool) (mySeedRank : Option Nat) (peers : List SurveyedPeer) :
    Verdict :=
  match peers.find? fun peer => peer.2.2.isInSet with
  | some holder =>
      -- Prefer a peer that actually knows who the primary is.
      .joinExisting ((peers.findSome? fun peer => peer.2.2.knownPrimary).or
        holder.2.2.knownPrimary)
  | none =>
      if peers.any fun peer => peer.2.2 == .unknown then .undecidable
      else
        match peers.find? (defersTo myHasData mySeedRank) with
        | some winner => .deferTo winner.1
        | none => .safeToInitiate

example : Rs.decide false (some 0)
    [("mongo-2", some 1, .noSet false), ("mongo-3", some 2, .noSet true)] = .deferTo "mongo-3" := by
  decide

/-- Whether one peer alone keeps this node from initiating. -/
def standingBlocks (myHasData : Bool) (mySeedRank rank : Option Nat) : PeerStanding → Bool
  | .inSet _ | .unknown => true
  | .noSet hasData => peerWins hasData myHasData rank mySeedRank

/-- Exactly the lists in which nobody blocks lead to an initiate. -/
theorem decide_eq_safeToInitiate_iff {myHasData : Bool} {mySeedRank : Option Nat}
    {peers : List SurveyedPeer} :
    Rs.decide myHasData mySeedRank peers = .safeToInitiate ↔
      ∀ peer ∈ peers, standingBlocks myHasData mySeedRank peer.2.1 peer.2.2 = false := by
  unfold Rs.decide
  constructor
  · intro safe peer member
    split at safe
    · cases safe
    · rename_i noHolder
      split at safe
      · cases safe
      · rename_i allAnswered
        split at safe
        · cases safe
        · rename_i noWinner
          have notInSet := List.find?_eq_none.1 noHolder peer member
          have notWinner := List.find?_eq_none.1 noWinner peer member
          obtain ⟨host, rank, standing⟩ := peer
          cases standing with
          | inSet primaryHost => exact absurd rfl notInSet
          | noSet hasData => simpa [defersTo, standingBlocks] using notWinner
          | unknown => exact absurd (List.any_eq_true.2 ⟨_, member, rfl⟩) allAnswered
  · intro nobody
    have noHolder : peers.find? (fun peer => peer.2.2.isInSet) = none := by
      apply List.find?_eq_none.2
      rintro ⟨host, rank, standing⟩ member
      have free := nobody _ member
      cases standing with
      | inSet primaryHost => cases free
      | noSet hasData => simp [PeerStanding.isInSet]
      | unknown => simp [PeerStanding.isInSet]
    have allAnswered : ¬ (peers.any fun peer => peer.2.2 == .unknown) = true := by
      intro unanswered
      obtain ⟨⟨host, rank, standing⟩, member, unknown⟩ := List.any_eq_true.1 unanswered
      obtain rfl : standing = .unknown := by simpa using unknown
      exact absurd (nobody _ member) (by simp [standingBlocks])
    have noWinner : peers.find? (defersTo myHasData mySeedRank) = none := by
      apply List.find?_eq_none.2
      rintro ⟨host, rank, standing⟩ member
      have free := nobody _ member
      cases standing with
      | inSet primaryHost => cases free
      | noSet hasData => simpa [defersTo, standingBlocks] using free
      | unknown => cases free
    rw [noHolder]
    simp only [allAnswered, noWinner]
    rfl

/-! ### Querying the declared peers -/

/-- How a spawned query task ended: with an answer, or as a join error (panicked or cancelled). -/
inductive TaskOutcome where
  | answered (answer : PeerAnswer)
  | failed
deriving Repr, DecidableEq, Inhabited

/-- The answers of the tasks that completed, in declared order; `task i` is the outcome of the query of
    the `i`-th declared peer. A task that failed leaves no entry. -/
def queryPeers (hosts : List String) (task : Nat → TaskOutcome) : List (String × PeerAnswer) :=
  (hosts.mapIdx fun i host => (host, task i)).filterMap fun (host, outcome) =>
    match outcome with
    | .answered answer => some (host, answer)
    | .failed => none

/-- Each answer with what probing its host's name would return at its turn in the round. -/
def probeAnswers (answers : List (String × PeerAnswer)) (probe : Nat → NameVerdict) :
    List (String × PeerAnswer × NameVerdict) :=
  answers.mapIdx fun i (host, answer) => (host, answer, probe i)

theorem mem_queryPeers {hosts : List String} {task : Nat → TaskOutcome} {host : String}
    {answer : PeerAnswer} :
    (host, answer) ∈ queryPeers hosts task ↔
      ∃ i, hosts[i]? = some host ∧ task i = .answered answer := by
  simp only [queryPeers, List.mem_filterMap, List.mem_mapIdx]
  constructor
  · rintro ⟨⟨declared, outcome⟩, ⟨i, inBounds, entry⟩, completed⟩
    cases entry
    cases ended : task i with
    | answered given =>
        obtain ⟨rfl, rfl⟩ : hosts[i] = host ∧ given = answer := by simpa [ended] using completed
        exact ⟨i, List.getElem?_eq_getElem inBounds, ended⟩
    | failed => simp [ended] at completed
  · rintro ⟨i, declared, ended⟩
    obtain ⟨inBounds, rfl⟩ := List.getElem?_eq_some_iff.1 declared
    exact ⟨_, ⟨i, inBounds, rfl⟩, by simp [ended]⟩

theorem mem_probeAnswers {answers : List (String × PeerAnswer)} {probe : Nat → NameVerdict}
    {host : String} {answer : PeerAnswer} :
    (∃ verdict, (host, answer, verdict) ∈ probeAnswers answers probe) ↔
      (host, answer) ∈ answers := by
  simp only [probeAnswers, List.mem_mapIdx]
  constructor
  · rintro ⟨verdict, i, inBounds, entry⟩
    have same : answers[i] = (host, answer) := by
      cases entry
      rfl
    rw [← same]
    exact List.getElem_mem inBounds
  · intro member
    obtain ⟨i, inBounds, same⟩ := List.getElem_of_mem member
    exact ⟨probe i, i, inBounds, by rw [same]⟩

/-! ### Building the standings -/

/-- What one round over the answers leaves: the tracker, the hosts it waived and the peers `decide`
    ranges over. -/
structure Survey where
  gone : GoneTracker
  waived : List String
  peers : List SurveyedPeer

/-- The loop of `orchestrate` over a round's answers. Only an unknown standing is probed; a probed host
    that is waived is left out of the peers. -/
def surveyPeers (config : Config) (now : Instant) :
    GoneTracker → List (String × PeerAnswer × NameVerdict) → Survey
  | gone, [] => { gone := gone, waived := [], peers := [] }
  | gone, (host, answer, verdict) :: rest =>
      if standingOf answer = .unknown then
        let observed := gone.observe host verdict now
        let survey := surveyPeers config now observed rest
        if observed.isWaived host now config.peerGoneDwell then
          { survey with waived := host :: survey.waived }
        else { survey with peers := (host, config.seedRank host, .unknown) :: survey.peers }
      else
        let survey := surveyPeers config now (gone.observeReachable host) rest
        { survey with peers := (host, config.seedRank host, standingOf answer) :: survey.peers }

section Survey

variable {config : Config} {now : Instant}

theorem surveyPeers_unknown {gone : GoneTracker} {host : String} {answer : PeerAnswer}
    {verdict : NameVerdict} {rest : List (String × PeerAnswer × NameVerdict)}
    (unknown : standingOf answer = .unknown) :
    surveyPeers config now gone ((host, answer, verdict) :: rest) =
      let survey := surveyPeers config now (gone.observe host verdict now) rest
      if (gone.observe host verdict now).isWaived host now config.peerGoneDwell then
        { survey with waived := host :: survey.waived }
      else { survey with peers := (host, config.seedRank host, .unknown) :: survey.peers } := by
  rw [surveyPeers, if_pos unknown]

theorem surveyPeers_known {gone : GoneTracker} {host : String} {answer : PeerAnswer}
    {verdict : NameVerdict} {rest : List (String × PeerAnswer × NameVerdict)}
    (known : standingOf answer ≠ .unknown) :
    surveyPeers config now gone ((host, answer, verdict) :: rest) =
      let survey := surveyPeers config now (gone.observeReachable host) rest
      { survey with
        peers := (host, config.seedRank host, standingOf answer) :: survey.peers } := by
  rw [surveyPeers, if_neg known]

/-- A survey accounts for every answer: an unknown peer is waived, or `decide` sees the standing that the
    answer gives. -/
theorem surveyPeers_accounts {gone : GoneTracker}
    {answers : List (String × PeerAnswer × NameVerdict)} {host : String} {answer : PeerAnswer}
    {verdict : NameVerdict} (member : (host, answer, verdict) ∈ answers) :
    (standingOf answer = .unknown ∧ host ∈ (surveyPeers config now gone answers).waived) ∨
      (host, config.seedRank host, standingOf answer) ∈
        (surveyPeers config now gone answers).peers := by
  induction answers generalizing gone with
  | nil => simp at member
  | cons first rest ih =>
      obtain ⟨firstHost, firstAnswer, firstVerdict⟩ := first
      by_cases unknown : standingOf firstAnswer = .unknown
      · rw [surveyPeers_unknown unknown]
        rcases List.mem_cons.1 member with same | later
        · obtain ⟨rfl, rfl, rfl⟩ : host = firstHost ∧ answer = firstAnswer ∧
              verdict = firstVerdict := by simpa using same
          dsimp only
          split
          · exact Or.inl ⟨unknown, List.mem_cons_self ..⟩
          · exact Or.inr (by simp [unknown])
        · have kept := @ih (gone.observe firstHost firstVerdict now) later
          dsimp only
          split
          · exact kept.imp (And.imp id (List.mem_cons_of_mem _)) id
          · exact kept.imp id (List.mem_cons_of_mem _)
      · rw [surveyPeers_known unknown]
        rcases List.mem_cons.1 member with same | later
        · obtain ⟨rfl, rfl, rfl⟩ : host = firstHost ∧ answer = firstAnswer ∧
              verdict = firstVerdict := by simpa using same
          exact Or.inr (List.mem_cons_self ..)
        · exact (@ih (gone.observeReachable firstHost) later).imp id
            (List.mem_cons_of_mem _)

/-- A survey drops no answer silently: its host is waived, or `decide` sees the standing it gives. -/
theorem surveyPeers_covers {gone : GoneTracker}
    {answers : List (String × PeerAnswer × NameVerdict)} {host : String} {answer : PeerAnswer}
    {verdict : NameVerdict} (member : (host, answer, verdict) ∈ answers) :
    host ∈ (surveyPeers config now gone answers).waived ∨
      (host, config.seedRank host, standingOf answer) ∈
        (surveyPeers config now gone answers).peers :=
  (surveyPeers_accounts member).imp And.right id

/-- A peer whose answer gives it a standing is always put before `decide`. -/
theorem surveyPeers_mem_of_known {gone : GoneTracker}
    {answers : List (String × PeerAnswer × NameVerdict)} {host : String} {answer : PeerAnswer}
    {verdict : NameVerdict} (member : (host, answer, verdict) ∈ answers)
    (known : standingOf answer ≠ .unknown) :
    (host, config.seedRank host, standingOf answer) ∈
      (surveyPeers config now gone answers).peers := by
  rcases surveyPeers_accounts member with ⟨unknown, -⟩ | listed
  · exact absurd unknown known
  · exact listed

end Survey

end MongoHa
