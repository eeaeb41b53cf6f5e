import Lookback.Number.Double
import Lookback.Text.Reader

/-!
# Doubles in text

A double is written as decimal digits with at most one point among or around them, then an exponent if wanted; a sign
may stand in front. Infinity and the value that is not a number are written by their names, in any case.
-/

namespace Lookback

namespace Double

open Reader

/-- Takes a sign if there is one; tells whether it is a minus. -/
def sign : Reader Bool := do
  let negative ← skip? "-"
  if !negative then
    let _ ← skip? "+"
  pure negative

/-- The exponent behind the letter `e`, or zero where there is none. -/
def exponent : Reader Int := do
  match ← peek? with
  | some 'e' | some 'E' => do
    let _ ← next
    let negative ← sign
    let ds ← takeWhile1 Char.isDigit
    let size := (Integer.natural? ds).getD 0
    pure (if negative then -(size : Int) else size)
  | _ => pure 0

/-- Digits with at most one point, then an exponent. -/
def decimal : Reader Decimal := do
  let whole ← takeWhile Char.isDigit
  let fraction ← if ← skip? "." then takeWhile Char.isDigit else pure []
  if whole.isEmpty && fraction.isEmpty then refuse
  else
    let e ← exponent
    pure ⟨(Integer.natural? (whole ++ fraction)).getD 0, e - fraction.length⟩

/-- The doubles that have names. -/
def named? (name : String) : Option Float :=
  if name = "inf" ∨ name = "infinity" then some (1 / 0)
  else if name = "nan" then some (0 / 0)
  else none

/-- Reads a double: the one nearest to the number written. -/
def ofText? (text : String) : Option Float :=
  run? (do
    let negative ← sign
    let x ← fun s =>
      match named? ((String.ofList s).map Char.toLower) with
      | some x => some (x, [])
      | none => (do let d ← decimal; pure (ofDecimal d) : Reader Float) s
    pure (if negative then -x else x)) text

end Double

end Lookback
