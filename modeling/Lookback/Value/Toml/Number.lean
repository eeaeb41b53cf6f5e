import Lookback.Number.Double
import Lookback.Value.Basic

/-!
# Numbers of TOML

Underscores may stand singly between digits. Integers fit 64 bits with a sign; a double that is too large is refused if
it is positive.
-/

namespace Lookback

namespace Toml

/-- Digits of a kind without the underscores that stand singly between them. -/
def ungroup? (isDigit : Char → Bool) : List Char → Option (List Char)
  | [] => none
  | [c] => if isDigit c then some [c] else none
  | c :: '_' :: rest => if isDigit c then (ungroup? isDigit rest).map (c :: ·) else none
  | c :: rest => if isDigit c then (ungroup? isDigit rest).map (c :: ·) else none

/-- The digits of a decimal integer: no zero in front of others. -/
def decimalDigits? (cs : List Char) : Option (List Char) := do
  match ← ungroup? Char.isDigit cs with
  | '0' :: _ :: _ => none
  | ds => some ds

/-- An integer in a base other than ten. -/
def based? (base : Nat) (cs : List Char) : Option Int := do
  let ds ← ungroup? (fun c => (Integer.digitIn? base c).isSome) cs
  let n ← Integer.ofDigits? base 0 ds
  if n ≤ lastSigned then some n else none

/-- A sign, if there is one, and what follows it. -/
def splitSign : List Char → Bool × List Char
  | '-' :: cs => (true, cs)
  | '+' :: cs => (false, cs)
  | cs => (false, cs)

/-- An integer. -/
def integer? (cs : List Char) : Option Value :=
  match cs with
  | '0' :: 'x' :: ds => (based? 16 ds).map .integer
  | '0' :: 'o' :: ds => (based? 8 ds).map .integer
  | '0' :: 'b' :: ds => (based? 2 ds).map .integer
  | _ => do
    let (negative, body) := splitSign cs
    let n ← Integer.natural? (← decimalDigits? body)
    let n : Int := if negative then -n else n
    if Integer.fitsSigned n then some (.integer n) else none

/-- A double, which has a point between digits, an exponent, or both, or is named. -/
def double? (cs : List Char) : Option Value := do
  let (negative, body) := splitSign cs
  let signed (x : Float) : Float := if negative then -x else x
  if body = ['i', 'n', 'f'] then some (.double (signed (1 / 0)))
  else if body = ['n', 'a', 'n'] then some (.double (signed (0 / 0)))
  else
    let isMark (c : Char) : Bool := c = '.' || c = 'e' || c = 'E'
    let whole ← decimalDigits? (body.takeWhile fun c => !isMark c)
    let rest := body.dropWhile fun c => !isMark c
    let (fraction, rest) ← match rest with
      | '.' :: ds => do
        let fraction ← ungroup? Char.isDigit (ds.takeWhile fun c => !isMark c)
        some (fraction, ds.dropWhile fun c => !isMark c)
      | rest => some ([], rest)
    let exponent : Int ← match rest with
      | [] => if fraction.isEmpty then none else some 0
      | 'e' :: ds | 'E' :: ds => do
        let (negative, digits) := splitSign ds
        let n ← Integer.natural? (← ungroup? Char.isDigit digits)
        some (if negative then -(n : Int) else n)
      | _ => none
    let n ← Integer.natural? (whole ++ fraction)
    let x := signed (Double.ofDecimal ⟨n, exponent - fraction.length⟩)
    if x.isInf && 0 < x then none else some (.double x)

end Toml

end Lookback
