/-
Module: MongoHa.Proofs.PeerRound
Layer: Proofs
Purpose: One peer round read from its answers. `someAnswerBlocks` walks the answers with the tracker and
  says whether one of them keeps this node from initiating; `roundVerdict_eq_safeToInitiate_iff` shows
  that the verdict is safe exactly when none does. A query task that fails leaves no answer at all, so
  its peer blocks nothing: `safe_round_accounts_for_peers_iff` says when a safe round still accounts for
  every declared peer.
Imports: MongoHa.Wrapper.Orchestrate
Trusted boundary: none (fully proved)
Main exports: observeAnswer, answerBlocks, someAnswerBlocks, roundVerdict_eq_safeToInitiate_iff,
  AnsweredInRound, safe_round_accounts_for_peers_iff
Open obligations: none
-/
import MongoHa.Wrapper.Orchestrate

namespace MongoHa

open Foundations.RustStr

/-- A host, its answer, and what probing its name would return. -/
abbrev RoundAnswer := String × PeerAnswer × NameVerdict

def roundAnswers (config : Config) (poll : Poll) : List RoundAnswer :=
  probeAnswers (queryPeers config.peerHosts poll.task) poll.probe

/-- The tracker after one answer. -/
def observeAnswer (now : Instant) (gone : GoneTracker) (entry : RoundAnswer) : GoneTracker :=
  if standingOf entry.2.1 = .unknown then gone.observe entry.1 entry.2.2 now
  else gone.observeReachable entry.1

/-- Whether this answer alone keeps the round from being safe: its peer is unknown and not waived, or
    has a standing that blocks. -/
def answerBlocks (config : Config) (myHasData : Bool) (now : Instant) (gone : GoneTracker)
    (entry : RoundAnswer) : Bool :=
  if standingOf entry.2.1 = .unknown then
    !(gone.observe entry.1 entry.2.2 now).isWaived entry.1 now config.peerGoneDwell
  else standingBlocks myHasData config.mySeedRank (config.seedRank entry.1) (standingOf entry.2.1)

/-- Whether some answer of the round blocks, each judged by the tracker as it is at its turn. -/
def someAnswerBlocks (config : Config) (myHasData : Bool) (now : Instant) :
    GoneTracker → List RoundAnswer → Bool
  | _, [] => false
  | gone, entry :: rest =>
      answerBlocks config myHasData now gone entry ||
        someAnswerBlocks config myHasData now (observeAnswer now gone entry) rest

section Round

variable {config : Config} {myHasData : Bool} {now : Instant}

theorem surveyPeers_gone (gone : GoneTracker) (answers : List RoundAnswer) :
    (surveyPeers config now gone answers).gone = answers.foldl (observeAnswer now) gone := by
  induction answers generalizing gone with
  | nil => rfl
  | cons entry rest ih =>
      obtain ⟨host, answer, verdict⟩ := entry
      rw [List.foldl_cons]
      by_cases unknown : standingOf answer = .unknown
      · rw [surveyPeers_unknown unknown, observeAnswer, if_pos unknown, ← ih]
        dsimp only
        split
        · rfl
        · rfl
      · rw [surveyPeers_known unknown, observeAnswer, if_neg unknown, ← ih]

theorem surveyPeers_blocks (gone : GoneTracker) (answers : List RoundAnswer) :
    ((surveyPeers config now gone answers).peers.any fun peer =>
        standingBlocks myHasData config.mySeedRank peer.2.1 peer.2.2) =
      someAnswerBlocks config myHasData now gone answers := by
  induction answers generalizing gone with
  | nil => rfl
  | cons entry rest ih =>
      obtain ⟨host, answer, verdict⟩ := entry
      unfold someAnswerBlocks
      rw [← ih]
      by_cases unknown : standingOf answer = .unknown
      · rw [surveyPeers_unknown unknown]
        simp only [answerBlocks, observeAnswer, if_pos unknown]
        by_cases waived :
            (gone.observe host verdict now).isWaived host now config.peerGoneDwell = true
        · simp only [waived, if_true, Bool.not_true, Bool.false_or]
        · simp only [waived, Bool.not_false, Bool.true_or]
          rfl
      · rw [surveyPeers_known unknown]
        simp only [answerBlocks, observeAnswer, if_neg unknown, List.any_cons]

/-- A round is safe exactly when none of its answers blocks. -/
theorem roundVerdict_eq_safeToInitiate_iff {gone : GoneTracker} {poll : Poll} :
    roundVerdict config myHasData gone poll = .safeToInitiate ↔
      someAnswerBlocks config myHasData poll.now gone (roundAnswers config poll) = false := by
  have survey : surveyRound config gone poll =
      surveyPeers config poll.now gone (roundAnswers config poll) := rfl
  rw [roundVerdict, decide_eq_safeToInitiate_iff, survey, ← surveyPeers_blocks, List.any_eq_false]
  simp only [Bool.not_eq_true]

theorem someAnswerBlocks_append (gone : GoneTracker) (before after : List RoundAnswer) :
    someAnswerBlocks config myHasData now gone (before ++ after) =
      (someAnswerBlocks config myHasData now gone before ||
        someAnswerBlocks config myHasData now (before.foldl (observeAnswer now) gone) after) := by
  induction before generalizing gone with
  | nil => rfl
  | cons entry rest ih => simp [someAnswerBlocks, ih, Bool.or_assoc]

/-- An answer moves no clock but that of its own host. -/
theorem observeAnswer_of_ne (gone : GoneTracker) {entry : RoundAnswer} {host : String}
    (different : host ≠ entry.1) :
    (observeAnswer now gone entry).goneSince host = gone.goneSince host := by
  unfold observeAnswer
  split
  · exact gone.observe_of_ne _ _ different
  · exact gone.observeReachable_of_ne different

theorem foldl_observeAnswer_of_notMem (gone : GoneTracker) {answers : List RoundAnswer}
    {host : String} (unanswered : host ∉ answers.map Prod.fst) :
    (answers.foldl (observeAnswer now) gone).goneSince host = gone.goneSince host := by
  induction answers generalizing gone with
  | nil => rfl
  | cons entry rest ih =>
      rw [List.map_cons, List.mem_cons, not_or] at unanswered
      rw [List.foldl_cons, ih _ unanswered.2]
      exact observeAnswer_of_ne gone unanswered.1

theorem isWaived_congr {left right : GoneTracker} {host : String} {dwell : Duration}
    (same : left.goneSince host = right.goneSince host) :
    left.isWaived host now dwell = right.isWaived host now dwell := by
  simp only [GoneTracker.isWaived, same]

/-- A standing that does not block is an answer without a set that does not outrank this node. -/
theorem state_of_not_standingBlocks {answer : PeerAnswer} {rank : Option Nat}
    (free : standingBlocks myHasData config.mySeedRank rank (standingOf answer) = false) :
    ∃ reported, answer = .state reported ∧ reported.setActive = false ∧
      peerWins reported.hasData myHasData rank config.mySeedRank = false := by
  cases answer with
  | state reported =>
      cases active : reported.setActive with
      | true => simp [standingOf, active, standingBlocks] at free
      | false => exact ⟨reported, rfl, active, by simpa [standingOf, active, standingBlocks] using free⟩
  | notReady => cases free
  | unreachable => cases free

/-- In a round that nobody blocks, an answering host has given a harmless state, or is waived when the
    round ends. -/
theorem settled_of_not_someAnswerBlocks {gone : GoneTracker} {answers : List RoundAnswer}
    (free : someAnswerBlocks config myHasData now gone answers = false) {host : String}
    (answered : host ∈ answers.map Prod.fst) :
    (∃ reported verdict, (host, .state reported, verdict) ∈ answers ∧
        reported.setActive = false ∧
        peerWins reported.hasData myHasData (config.seedRank host) config.mySeedRank = false) ∨
      (answers.foldl (observeAnswer now) gone).isWaived host now config.peerGoneDwell = true := by
  -- The last answer under this host decides, so the induction runs from the end of the round.
  induction answers using List.reverseRecOn with
  | nil => simp at answered
  | append_singleton before last ih =>
      rw [someAnswerBlocks_append, Bool.or_eq_false_iff] at free
      obtain ⟨beforeFree, lastFree⟩ := free
      rw [List.foldl_append, List.foldl_cons, List.foldl_nil]
      obtain ⟨lastHost, answer, verdict⟩ := last
      by_cases same : host = lastHost
      · subst same
        simp only [someAnswerBlocks, answerBlocks, Bool.or_false] at lastFree
        by_cases unknown : standingOf answer = .unknown
        · rw [if_pos unknown, Bool.not_eq_false'] at lastFree
          apply Or.inr
          rw [observeAnswer, if_pos unknown]
          exact lastFree
        · rw [if_neg unknown] at lastFree
          obtain ⟨reported, rfl, noSet, loses⟩ := state_of_not_standingBlocks lastFree
          exact Or.inl ⟨reported, verdict, by simp, noSet, loses⟩
      · have earlier : host ∈ before.map Prod.fst := by
          rw [List.map_append, List.mem_append] at answered
          rcases answered with old | new
          · exact old
          · exact absurd (by simpa using new) same
        rcases ih beforeFree earlier with gave | waived
        · obtain ⟨reported, probed, member, noSet, loses⟩ := gave
          exact Or.inl ⟨reported, probed, List.mem_append_left _ member, noSet, loses⟩
        · apply Or.inr
          rw [isWaived_congr (observeAnswer_of_ne _ same)]
          exact waived

end Round

/-! ### The declared peers of a safe round -/

/-- This declared peer answered in this very round, without a set and without outranking this node. -/
def AnsweredInRound (config : Config) (myHasData : Bool) (poll : Poll) (host : String) : Prop :=
  ∃ i reported, config.peerHosts[i]? = some host ∧ poll.task i = .answered (.state reported) ∧
    reported.setActive = false ∧
    peerWins reported.hasData myHasData (config.seedRank host) config.mySeedRank = false

/-- The query of this declared peer ended with an answer, whatever it was. -/
def CompletedInRound (config : Config) (poll : Poll) (host : String) : Prop :=
  ∃ i answer, config.peerHosts[i]? = some host ∧ poll.task i = .answered answer

def WaivedAfterRound (config : Config) (gone : GoneTracker) (poll : Poll) (host : String) : Prop :=
  (surveyRound config gone poll).gone.isWaived host poll.now config.peerGoneDwell = true

theorem mem_roundAnswers_iff {config : Config} {poll : Poll} {host : String} {answer : PeerAnswer} :
    (∃ verdict, (host, answer, verdict) ∈ roundAnswers config poll) ↔
      ∃ i, config.peerHosts[i]? = some host ∧ poll.task i = .answered answer := by
  rw [roundAnswers, mem_probeAnswers, mem_queryPeers]

theorem completedInRound_iff {config : Config} {poll : Poll} {host : String} :
    CompletedInRound config poll host ↔ host ∈ (roundAnswers config poll).map Prod.fst := by
  rw [List.mem_map]
  constructor
  · intro completed
    obtain ⟨i, answer, declared, ended⟩ := completed
    obtain ⟨verdict, member⟩ := mem_roundAnswers_iff.2 ⟨i, declared, ended⟩
    exact ⟨_, member, rfl⟩
  · intro answered
    obtain ⟨⟨_, answer, verdict⟩, member, rfl⟩ := answered
    obtain ⟨i, declared, ended⟩ := mem_roundAnswers_iff.1 ⟨verdict, member⟩
    exact ⟨i, answer, declared, ended⟩

/-- A peer whose query failed keeps the clock it had before the round. -/
theorem waivedAfterRound_of_not_completed {config : Config} {gone : GoneTracker} {poll : Poll}
    {host : String} (missing : ¬ CompletedInRound config poll host) :
    WaivedAfterRound config gone poll host ↔
      gone.isWaived host poll.now config.peerGoneDwell = true := by
  rw [completedInRound_iff] at missing
  have survey : (surveyRound config gone poll).gone =
      (roundAnswers config poll).foldl (observeAnswer poll.now) gone := surveyPeers_gone gone _
  rw [WaivedAfterRound, survey, isWaived_congr (foldl_observeAnswer_of_notMem gone missing)]

/-- A safe verdict accounts for every declared peer exactly when some answer blocked the round anyway,
    or every peer whose query did not complete was already waived. -/
theorem safe_round_accounts_for_peers_iff {config : Config} {myHasData : Bool}
    {gone : GoneTracker} {poll : Poll} :
    (roundVerdict config myHasData gone poll = .safeToInitiate → ∀ host ∈ config.peerHosts,
        AnsweredInRound config myHasData poll host ∨ WaivedAfterRound config gone poll host) ↔
      someAnswerBlocks config myHasData poll.now gone (roundAnswers config poll) = true ∨
        ∀ host ∈ config.peerHosts, CompletedInRound config poll host ∨
          gone.isWaived host poll.now config.peerGoneDwell = true := by
  rw [roundVerdict_eq_safeToInitiate_iff]
  constructor
  · intro accounts
    by_cases blocked :
        someAnswerBlocks config myHasData poll.now gone (roundAnswers config poll) = true
    · exact Or.inl blocked
    · apply Or.inr
      intro host declared
      by_cases completed : CompletedInRound config poll host
      · exact Or.inl completed
      · apply Or.inr
        rcases accounts (Bool.eq_false_iff.2 blocked) host declared with answered | waived
        · obtain ⟨i, reported, atIndex, ended, -, -⟩ := answered
          exact absurd ⟨i, _, atIndex, ended⟩ completed
        · exact (waivedAfterRound_of_not_completed completed).1 waived
  · intro condition free host declared
    rcases condition with blocked | everyPeer
    · rw [free] at blocked
      cases blocked
    · by_cases completed : CompletedInRound config poll host
      · rcases settled_of_not_someAnswerBlocks free (completedInRound_iff.1 completed) with
          gave | waived
        · obtain ⟨reported, verdict, member, noSet, loses⟩ := gave
          obtain ⟨i, atIndex, ended⟩ := mem_roundAnswers_iff.1 ⟨verdict, member⟩
          exact Or.inl ⟨i, reported, atIndex, ended, noSet, loses⟩
        · apply Or.inr
          unfold WaivedAfterRound
          have survey : (surveyRound config gone poll).gone =
              (roundAnswers config poll).foldl (observeAnswer poll.now) gone :=
            surveyPeers_gone gone _
          rw [survey]
          exact waived
      · rcases everyPeer host declared with answered | waived
        · exact absurd answered completed
        · exact Or.inr ((waivedAfterRound_of_not_completed completed).2 waived)

/-- The only peer's query task panics in the first round: the verdict is safe, and that peer neither
    answered nor is waived. -/
theorem safe_round_loses_failed_peer :
    let config := configWithSeeds "mongo-1" (some "mongo-1:27017,mongo-2:27017")
    roundVerdict config false .new (Poll.quiet 0) = .safeToInitiate ∧
      ¬ (∀ host ∈ config.peerHosts, AnsweredInRound config false (Poll.quiet 0) host ∨
        WaivedAfterRound config .new (Poll.quiet 0) host) := by
  intro config
  have peers : config.peerHosts = ["mongo-2"] := by decide
  have noAnswer : roundAnswers config (Poll.quiet 0) = [] := by
    simp [roundAnswers, peers, queryPeers, probeAnswers, Poll.quiet]
  constructor
  · rw [roundVerdict_eq_safeToInitiate_iff, noAnswer]
    rfl
  · intro accounts
    have missing : ¬ CompletedInRound config (Poll.quiet 0) "mongo-2" := by
      rw [completedInRound_iff, noAnswer]
      simp
    rcases accounts "mongo-2" (by simp [peers]) with answered | waived
    · obtain ⟨i, reported, -, ended, -, -⟩ := answered
      cases ended
    · rw [waivedAfterRound_of_not_completed missing] at waived
      cases waived

end MongoHa
