/-
Module: MongoHa.Common.Telemetry
Layer: Common
Purpose: `telemetry.rs`, from the request on: how an answer is classified, the attempts of a send with the
  line each one logs, and the truncation of a rejection's body for that line.
Imports: MongoHa.Foundations.CharBoundary
Trusted boundary: human-reviewed spec
Main exports: backUp, truncate, SendOutcome, classify, Response, SendLine, sendWithAttempts,
  backUp_spec
Open obligations: none
-/
import MongoHa.Foundations.CharBoundary

namespace MongoHa.Telemetry

open Foundations.CharBoundary
open Foundations.RustStr

/-! ### Truncation -/

/-- `MAX` of `truncate`, in bytes. -/
def maxBody : Nat := 300

/-- The loop of `truncate`, which backs up to a char boundary. `none` stands for the underflow of `end`. -/
def backUp (body : String) : Nat → Option Nat
  | 0 => if isCharBoundary body 0 then some 0 else none
  | end_ + 1 =>
      if isCharBoundary body (end_ + 1) then some (end_ + 1) else backUp body end_

/-- Keep a rejection body loggable. `none` stands for a panic. -/
def truncate (body : String) : Option String :=
  if (bytes body).length ≤ maxBody then some body
  else do
    let end_ ← backUp body maxBody
    let kept ← sliceTo body end_
    some (kept ++ "…")

/-- The loop ends on the last boundary that is not past its start. -/
theorem backUp_spec (body : String) (start : Nat) :
    ∃ end_, backUp body start = some end_ ∧ isCharBoundary body end_ = true ∧ end_ ≤ start ∧
      ∀ i, isCharBoundary body i = true → i ≤ start → i ≤ end_ := by
  induction start with
  | zero =>
      have atStart : isCharBoundary body 0 = true := onBorder_zero _
      exact ⟨0, by rw [backUp, if_pos atStart], atStart, Nat.le_refl 0, fun i _ low => low⟩
  | succ start ih =>
      by_cases boundary : isCharBoundary body (start + 1) = true
      · exact ⟨start + 1, by rw [backUp, if_pos boundary], boundary, Nat.le_refl _, fun i _ low => low⟩
      · obtain ⟨end_, ended, found, low, last⟩ := ih
        refine ⟨end_, by rw [backUp, if_neg boundary, ended], found, Nat.le_succ_of_le low, ?_⟩
        intro i isBoundary notPast
        rcases Nat.le_succ_iff.1 notPast with before | rfl
        · exact last i isBoundary before
        · exact absurd isBoundary boundary

/-! ### Sending -/

/-- Whether the backend took an event, and why not. -/
inductive SendOutcome where
  | sent
  | rejected (why : String)
deriving Repr, DecidableEq, Inhabited

/-- A GraphQL error is a 200 with an `errors` array. -/
def classify (status : UInt16) (body : String) : SendOutcome :=
  if ¬ (200 ≤ status ∧ status < 300) then .rejected "http status"
  else if contains body "\"errors\"" then .rejected "graphql errors"
  else .sent

/-- What an attempt that reached the backend brings back. -/
structure Response where
  status : UInt16
  /-- Reading the body may fail. -/
  text : Except String String

/-- `text().unwrap_or_default()`. -/
def Response.body (response : Response) : String :=
  match response.text with
  | .ok text => text
  | .error _ => ""

/-- What an attempt logs. -/
inductive SendLine where
  | sent (attempt : Nat)
  | rejected (status : UInt16) (reason body : String)
  | retrying (attempt : Nat) (error : String)
  | failed (attempt : Nat) (error : String)
deriving Repr, DecidableEq, Inhabited

/-- The line for an answer. The body is truncated only where it is logged. -/
def answerLine (attempt : Nat) (response : Response) : Option SendLine :=
  match classify response.status response.body with
  | .sent => some (.sent attempt)
  | .rejected why =>
      (truncate response.body).map fun logged => .rejected response.status why logged

/-- The loop over `attempt..=attempts`, with the number of iterations left. An answer ends it, whatever it
    says; only a transport error goes on to the next attempt. -/
def sendFrom (post : Nat → Except String Response) (attempts : Nat) :
    Nat → Nat → Option (List SendLine)
  | _, 0 => some []
  | attempt, left + 1 =>
      match post attempt with
      | .ok response => (answerLine attempt response).map fun line => [line]
      | .error failure =>
          let line := if attempt < attempts then SendLine.retrying attempt failure
            else .failed attempt failure
          (sendFrom post attempts (attempt + 1) left).map fun lines => line :: lines

/-- `send_with_attempts`: what a send logs. Off Railway it posts nothing. -/
def sendWithAttempts (enabled : Bool) (post : Nat → Except String Response) (attempts : Nat) :
    Option (List SendLine) :=
  if !enabled then some [] else sendFrom post attempts 1 attempts

end MongoHa.Telemetry
