/-
Module: MongoHa.Wrapper.PooledClient
Layer: Wrapper
Purpose: `swap_password` and `rebuild` of `mongo.rs` on one handle. Both hold the pool's lock and take the
  password's inside it; taking either, the check of the generation and the replacement of the client are
  steps of their own, and a call that waits for the inner lock may be dropped there. A client is named by
  the password it authenticates with. Other readers of the password only delay the inner lock.
Imports: MongoHa.Foundations.CriticalSection
Trusted boundary: human-reviewed spec
Main exports: Replacement, Handle, Handle.connect, PoolPhase, PoolWork, PoolLeave, poolCode
Open obligations: none
-/
import MongoHa.Foundations.CriticalSection

namespace MongoHa

open Foundations

/-- What replaced the pooled client. -/
inductive Replacement where
  | swap (password : String)
  | rebuild (observed : Nat)
deriving Repr, DecidableEq, Inhabited

/-- What the two locks of a handle protect, with the replacements of the client so far. -/
structure Handle where
  password : String
  /-- The password the pooled client authenticates with. -/
  client : String
  generation : Nat
  passwordHeld : Bool
  replacements : List Replacement
deriving Repr, DecidableEq, Inhabited

namespace Handle

/-- `connect_local` and `connect_member`. -/
def connect (password : String) : Handle :=
  { password := password, client := password, generation := 0, passwordHeld := false, replacements := [] }

def replace (handle : Handle) (client : String) (replacement : Replacement) : Handle :=
  { handle with
    client := client
    generation := handle.generation + 1
    replacements := handle.replacements ++ [replacement] }

end Handle

/-- Where a call is. -/
inductive PoolPhase where
  /-- The client for the new password is built before any lock is taken. -/
  | swapBegins (fresh : String)
  | swapHoldsPool (fresh : String)
  | swapHoldsBoth (fresh : String)
  | swapWrote (fresh : String)
  | swapped
  | rebuildBegins (observed : Nat)
  | rebuildHoldsPool (observed : Nat)
  | rebuildMatched (observed : Nat)
  | rebuildHoldsBoth (observed : Nat)
  /-- The client for the password that was read is built with the pool's lock held. -/
  | rebuildRead (observed : Nat) (fresh : String)
  | rebuilt
  | lostRace
  | dropped
deriving Repr, DecidableEq, Inhabited

namespace PoolPhase

/-- The generation that a rebuild under way observed. -/
def observed : PoolPhase → Option Nat
  | .rebuildBegins observed => some observed
  | .rebuildHoldsPool observed => some observed
  | .rebuildMatched observed => some observed
  | .rebuildHoldsBoth observed => some observed
  | .rebuildRead observed _ => some observed
  | _ => none

end PoolPhase

/-- How a call that touches the pool starts. -/
inductive PoolBegins : PoolPhase → Prop where
  | swap (fresh : String) : PoolBegins (.swapBegins fresh)
  | rebuild (observed : Nat) : PoolBegins (.rebuildBegins observed)

/-- A call takes the pool's lock. -/
inductive PoolEnter : PoolPhase → PoolPhase → Prop where
  | swap (fresh : String) : PoolEnter (.swapBegins fresh) (.swapHoldsPool fresh)
  | rebuild (observed : Nat) : PoolEnter (.rebuildBegins observed) (.rebuildHoldsPool observed)

/-- A step of a call that holds the pool's lock. -/
inductive PoolWork : PoolPhase → Handle → PoolPhase → Handle → Prop where
  | swapLocks {fresh : String} {handle : Handle} (free : handle.passwordHeld = false) :
      PoolWork (.swapHoldsPool fresh) handle (.swapHoldsBoth fresh) { handle with passwordHeld := true }
  | swapWrites {fresh : String} {handle : Handle} :
      PoolWork (.swapHoldsBoth fresh) handle (.swapWrote fresh)
        { handle with password := fresh, passwordHeld := false }
  | rebuildMatches {observed : Nat} {handle : Handle} (same : handle.generation = observed) :
      PoolWork (.rebuildHoldsPool observed) handle (.rebuildMatched observed) handle
  | rebuildLocks {observed : Nat} {handle : Handle} (free : handle.passwordHeld = false) :
      PoolWork (.rebuildMatched observed) handle (.rebuildHoldsBoth observed)
        { handle with passwordHeld := true }
  | rebuildReads {observed : Nat} {handle : Handle} :
      PoolWork (.rebuildHoldsBoth observed) handle (.rebuildRead observed handle.password)
        { handle with passwordHeld := false }

/-- A call gives the pool's lock back. It may also be dropped at an await. -/
inductive PoolLeave : PoolPhase → Handle → PoolPhase → Handle → Prop where
  | swapReplaces {fresh : String} {handle : Handle} :
      PoolLeave (.swapWrote fresh) handle .swapped (handle.replace fresh (.swap fresh))
  | swapDropped {fresh : String} {handle : Handle} :
      PoolLeave (.swapHoldsPool fresh) handle .dropped handle
  | rebuildLost {observed : Nat} {handle : Handle} (past : handle.generation ≠ observed) :
      PoolLeave (.rebuildHoldsPool observed) handle .lostRace handle
  | rebuildDropped {observed : Nat} {handle : Handle} :
      PoolLeave (.rebuildMatched observed) handle .dropped handle
  | rebuildReplaces {observed : Nat} {fresh : String} {handle : Handle} :
      PoolLeave (.rebuildRead observed fresh) handle .rebuilt
        (handle.replace fresh (.rebuild observed))

/-- The code of the calls. A crash ends the process and the handle with it. -/
def poolCode : LockCode Handle PoolPhase where
  begins := PoolBegins
  enter := PoolEnter
  work := PoolWork
  leave := PoolLeave
  crash _ _ := False

end MongoHa
