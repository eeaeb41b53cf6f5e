import Lookback.Width

/-!
# Positions on a cycle

A cycle with limit `l` has the positions `0, 1, …, l`, and after `l` comes `0` again: its length is `l + 1`, which need
not fit the word that holds a position. `add` and `sub` move a position by a distance, `next` and `prev` by one, and
`walk` takes a whole path of single steps. All refuse an operand past the limit, naming the first one that is.

Slot numbers live on the cycle of a ring's slots, insertion counters and cursors on the cycle of all 64-bit words.
-/

namespace Lookback

namespace Cyclic

/-- Refuses an operand that lies past the limit. -/
def requireWithin (operand limit : Nat) : Except Failure Unit :=
  if operand ≤ limit then .ok () else .error (.aboveLimit operand limit)

/-- The position `b` places after `a`. The room left above `a` decides whether the move passes the limit, so that no sum
is formed that could exceed it. -/
def add (w : Width) (a b limit : Nat) : Except Failure Nat := do
  requireWithin a limit
  requireWithin b limit
  let headroom ← subtract limit a
  if headroom < b then
    let past ← subtract b headroom
    subtract past 1
  else
    w.add a b

/-- The position `b` places before `a`. -/
def sub (w : Width) (a b limit : Nat) : Except Failure Nat := do
  requireWithin a limit
  requireWithin b limit
  if a < b then
    let above ← subtract limit b
    let sum ← w.add above a
    w.add sum 1
  else
    subtract a b

/-- The position after `a`. Unlike `add` with distance 1 it is also defined on the cycle with the single position 0. -/
def next (w : Width) (a limit : Nat) : Except Failure Nat := do
  requireWithin a limit
  if limit ≤ a then .ok 0 else add w a 1 limit

/-- The position before `a`. Unlike `sub` with distance 1 it is also defined on the cycle with the single position 0. -/
def prev (w : Width) (a limit : Nat) : Except Failure Nat := do
  requireWithin a limit
  if a = 0 then .ok limit else sub w a 1 limit

/-- A single step along a cycle. -/
inductive Step where
  | forward | back
  deriving DecidableEq, Repr

/-- Takes one step. -/
def Step.take (w : Width) (a limit : Nat) : Step → Except Failure Nat
  | forward => next w a limit
  | back => prev w a limit

/-- Takes steps one after the other, from `a`; the result lists the position reached after each. -/
def walk (w : Width) (a limit : Nat) : List Step → Except Failure (List Nat)
  | [] => .ok []
  | step :: steps => do
    let b ← step.take w a limit
    let rest ← walk w b limit steps
    .ok (b :: rest)

end Cyclic

end Lookback
