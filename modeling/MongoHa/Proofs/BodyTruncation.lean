/-
Module: MongoHa.Proofs.BodyTruncation
Layer: Proofs
Purpose: Truncation returns on every body and keeps the longest prefix of whole characters that fits, so a
  send does not panic over an answer it logs; what a send logs tells how often it posted and why it ended.
Imports: MongoHa.Common.Telemetry
Trusted boundary: none (fully proved)
Main exports: truncate_long, truncate_isSome, truncate_longest_prefix, sendFrom_spec,
  sendWithAttempts_returns
Open obligations: none
-/
import MongoHa.Common.Telemetry

namespace MongoHa.Telemetry

open Foundations.CharBoundary
open Foundations.RustStr

theorem truncate_short {body : String} (short : (bytes body).length ≤ maxBody) :
    truncate body = some body := by
  rw [truncate, if_pos short]

/-- The prefix that the loop stops at is the longest that fits, and at most three bytes are given up. -/
theorem truncate_long {body : String} (long : maxBody < (bytes body).length) :
    ∃ kept rest, body = kept ++ rest ∧ (bytes kept).length ≤ maxBody ∧
      maxBody ≤ (bytes kept).length + 3 ∧
      (∀ other tail, body = other ++ tail → (bytes other).length ≤ maxBody →
        (bytes other).length ≤ (bytes kept).length) ∧
      truncate body = some (kept ++ "…") := by
  obtain ⟨end_, ended, boundary, low, last⟩ := backUp_spec body maxBody
  obtain ⟨near, nearBoundary, notPast, close⟩ := exists_boundary_within (Nat.le_of_lt long)
  obtain ⟨kept, rest, split, ends⟩ := isCharBoundary_iff.1 boundary
  have reached : near ≤ end_ := last near nearBoundary notPast
  have sliced : sliceTo body end_ = some kept := sliceTo_eq_some_iff.2 ⟨rest, split, ends⟩
  refine ⟨kept, rest, split, by rw [ends]; exact low, by rw [ends]; omega, ?_, ?_⟩
  · intro other tail otherSplit fits
    rw [ends]
    exact last _ (isCharBoundary_iff.2 ⟨other, tail, otherSplit, rfl⟩) fits
  · rw [truncate, if_neg (Nat.not_le_of_lt long), ended]
    simp only [Option.bind_eq_bind, Option.bind_some, sliced]

/-- The cut never falls inside a character, so nothing panics. -/
theorem truncate_isSome (body : String) : ∃ logged, truncate body = some logged := by
  by_cases short : (bytes body).length ≤ maxBody
  · exact ⟨body, truncate_short short⟩
  · obtain ⟨kept, -, -, -, -, -, cut⟩ := truncate_long (Nat.lt_of_not_le short)
    exact ⟨kept ++ "…", cut⟩

/-- Truncation never panics and is maximal. -/
theorem truncate_longest_prefix (body : String) :
    ((bytes body).length ≤ 300 → truncate body = some body) ∧
      (300 < (bytes body).length → ∃ kept rest, body = kept ++ rest ∧
        (bytes kept).length ≤ 300 ∧ 297 ≤ (bytes kept).length ∧
        (∀ other tail, body = other ++ tail → (bytes other).length ≤ 300 →
          other.toList <+: kept.toList) ∧
        truncate body = some (kept ++ "…")) := by
  refine ⟨truncate_short, ?_⟩
  intro long
  obtain ⟨kept, rest, split, fits, close, longest, cut⟩ := truncate_long long
  have givenUp : 297 ≤ (bytes kept).length := by
    rw [maxBody] at close
    omega
  refine ⟨kept, rest, split, fits, givenUp, ?_, cut⟩
  intro other tail otherSplit otherFits
  exact prefix_of_length_bytes_le split otherSplit (longest other tail otherSplit otherFits)

/-! ### What a send logs -/

variable {post : Nat → Except String Response} {attempts : Nat}

theorem answerLine_isSome (attempt : Nat) (response : Response) :
    ∃ line, answerLine attempt response = some line := by
  obtain ⟨logged, cut⟩ := truncate_isSome response.body
  unfold answerLine
  split
  · exact ⟨_, rfl⟩
  · rw [cut]
    exact ⟨_, rfl⟩

/-- The attempts from one on: each but the last logs a retry after a transport error, and an answer is the
    only way to end before the last one. -/
theorem sendFrom_spec {attempt left : Nat} (counted : attempt + left = attempts + 1) :
    ∃ lines, sendFrom post attempts attempt left = some lines ∧ lines.length ≤ left ∧
      (∀ k, k + 1 < lines.length →
        ∃ failure, post (attempt + k) = .error failure ∧
          lines[k]? = some (.retrying (attempt + k) failure)) ∧
      (lines.length < left → ∃ k response, lines.length = k + 1 ∧ post (attempt + k) = .ok response) := by
  induction left generalizing attempt with
  | zero => exact ⟨[], rfl, Nat.le_refl 0, by simp, by simp⟩
  | succ left ih =>
      cases posted : post attempt with
      | ok response =>
          obtain ⟨line, logged⟩ := answerLine_isSome attempt response
          refine ⟨[line], ?_, by simp, by simp, ?_⟩
          · simp [sendFrom, posted, logged]
          · intro _
            exact ⟨0, response, rfl, posted⟩
      | error failure =>
          obtain ⟨lines, sent, bounded, retried, answered⟩ := @ih (attempt + 1) (by omega)
          have shift : ∀ k, attempt + 1 + k = attempt + (k + 1) := by
            intro k
            omega
          refine ⟨(if attempt < attempts then SendLine.retrying attempt failure
            else .failed attempt failure) :: lines, ?_, ?_, ?_, ?_⟩
          · simp [sendFrom, posted, sent]
          · simpa using bounded
          · intro k notLast
            cases k with
            | zero =>
                -- A line follows this one, so this was not the last attempt.
                rw [List.length_cons] at notLast
                have more : attempt < attempts := by omega
                exact ⟨failure, posted, by rw [if_pos more]; rfl⟩
            | succ k =>
                obtain ⟨later, failed, line⟩ := retried k (by simpa using notLast)
                rw [shift] at failed line
                exact ⟨later, failed, by simpa using line⟩
          · intro early
            obtain ⟨k, response, count, answer⟩ := answered (by simpa using early)
            exact ⟨k + 1, response, by simp [count], by rw [← shift]; exact answer⟩

/-- A send never panics, posts no more often than it may, retries transport errors only, and ends early
    only on an answer: a rejection is not retried. -/
theorem sendWithAttempts_returns (post : Nat → Except String Response) (attempts : Nat) :
    ∃ lines, sendWithAttempts true post attempts = some lines ∧ lines.length ≤ attempts ∧
      (∀ k, k + 1 < lines.length →
        ∃ failure, post (1 + k) = .error failure ∧
          lines[k]? = some (.retrying (1 + k) failure)) ∧
      (lines.length < attempts →
        ∃ k response, lines.length = k + 1 ∧ post (1 + k) = .ok response) :=
  sendFrom_spec (Nat.add_comm 1 attempts)

end MongoHa.Telemetry
