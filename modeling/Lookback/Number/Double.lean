import Lookback.Number.Integer

/-!
# Doubles and decimals

A finite double is `mantissa * 2 ^ exponent` with a sign (`Magnitude`), and the reals nearest to it form its rounding
interval. `Magnitude.shortest` finds the decimal with the fewest digits in that interval, and among those the nearest
to the value; a reader that rounds to nearest gets the same double back from it. How such a decimal is laid out is a
decision of the format it is written in (`Layout`).
-/

namespace Lookback

/-- The decimal number `digits * 10 ^ exponent`. -/
structure Decimal where
  digits : Nat
  exponent : Int
  deriving DecidableEq, Repr

/-- Which of two equally near decimals is taken. -/
inductive Tie where
  /-- The one with an even last digit. -/
  | even
  /-- The one further from zero. -/
  | away
  deriving DecidableEq, Repr

/-- The size of a finite double: `mantissa * 2 ^ exponent`. -/
structure Magnitude where
  mantissa : Nat
  exponent : Int
  /-- The gap to the double below is half the gap to the one above. -/
  narrowBelow : Bool
  deriving DecidableEq, Repr

namespace Magnitude

/-- The magnitude that the bits of a finite double hold. -/
def ofBits (bits : UInt64) : Magnitude :=
  let biased := ((bits >>> 52) &&& 0x7FF).toNat
  let fraction := (bits &&& 0xFFFFFFFFFFFFF).toNat
  if biased = 0 then ⟨fraction, -1074, false⟩
  else ⟨0x10000000000000 + fraction, (biased : Int) - 1075, fraction = 0 && 1 < biased⟩

/-- Compares `a * 10 ^ i` with `b * 2 ^ j`. -/
def compareScaled (a : Nat) (i : Int) (b : Nat) (j : Int) : Ordering :=
  compare (a * Nat.pow 10 i.toNat * Nat.pow 2 (-j).toNat) (b * Nat.pow 2 j.toNat * Nat.pow 10 (-i).toNat)

/-- Whether a decimal lies among the reals that round to this magnitude: between the midpoints to its two neighbours,
which themselves round to it exactly if its mantissa is even. -/
def roundsFrom (m : Magnitude) (d : Decimal) : Bool :=
  let low := 4 * m.mantissa - (if m.narrowBelow then 1 else 2)
  let high := 4 * m.mantissa + 2
  let closed := m.mantissa % 2 = 0
  let atLow := compareScaled d.digits d.exponent low (m.exponent - 2)
  let atHigh := compareScaled d.digits d.exponent high (m.exponent - 2)
  (atLow == .gt || (closed && atLow == .eq)) && (atHigh == .lt || (closed && atHigh == .eq))

/-- The least `k` for which the magnitude, if not zero, is below `10 ^ k`. -/
def scale (m : Magnitude) : Int :=
  let estimate := Int.fdiv (((m.mantissa.log2 : Int) + m.exponent) * 30103) 100000
  let below (k : Int) := compareScaled 1 k m.mantissa m.exponent == .gt
  if below estimate then estimate else if below (estimate + 1) then estimate + 1 else estimate + 2

/-- The multiple of `10 ^ e` at or just below the magnitude, as the factor. -/
def floorAt (m : Magnitude) (e : Int) : Nat :=
  (m.mantissa * Nat.pow 2 m.exponent.toNat * Nat.pow 10 (-e).toNat) /
    (Nat.pow 2 (-m.exponent).toNat * Nat.pow 10 e.toNat)

/-- Of the two neighbours of the magnitude on the grid of multiples of `10 ^ e` one that rounds to it: the nearer one if
both do, and if both are equally near the one that the tie goes to. -/
def neighbour? (m : Magnitude) (tie : Tie) (e : Int) : Option Decimal :=
  let lower : Decimal := ⟨m.floorAt e, e⟩
  let upper : Decimal := ⟨m.floorAt e + 1, e⟩
  match m.roundsFrom lower, m.roundsFrom upper with
  | false, false => none
  | true, false => some lower
  | false, true => some upper
  | true, true =>
    match compareScaled (2 * lower.digits + 1) e (2 * m.mantissa) m.exponent with
    | .gt => some lower
    | .lt => some upper
    | .eq => some (if tie = .even ∧ lower.digits % 2 = 0 then lower else upper)

/-- A decimal without zeros at its end; at most `fuel` of them are moved into the exponent. -/
def strip : (fuel : Nat) → Decimal → Decimal
  | 0, d => d
  | fuel + 1, d => if d.digits % 10 = 0 then strip fuel ⟨d.digits / 10, d.exponent + 1⟩ else d

/-- The decimal with the fewest digits that rounds to the magnitude, the nearest of them. Seventeen digits always
suffice; past them stands the exact value with its binary digits written out. -/
def shortest (m : Magnitude) (tie : Tie) : Decimal :=
  if m.mantissa = 0 then ⟨0, 0⟩
  else
    let found := (List.range 17).findSome? fun n : Nat => m.neighbour? tie (m.scale - (n + 1 : Nat))
    let exact : Decimal :=
      ⟨m.mantissa * Nat.pow 2 m.exponent.toNat * Nat.pow 5 (-m.exponent).toNat, min m.exponent 0⟩
    strip 400 (found.getD exact)

end Magnitude

/-! ## Layout -/

/-- How a format lays out a double. -/
structure Layout where
  /-- Whether a number is written positionally, by the exponent of its leading digit. -/
  positional : Int → Bool
  /-- What a whole number ends with. -/
  wholeMark : String
  /-- What stands in front of an exponent that is not negative. -/
  plusMark : String
  /-- Which of two equally near decimals of the same length is written. -/
  tie : Tie

namespace Layout

/-- The layout of numbers in JSON: positional from five places after the point to sixteen before it, and always with a
point or an exponent, so that a double is told from an integer. An exponent always has a sign. -/
def json : Layout := ⟨fun e => -5 ≤ e && e ≤ 15, ".0", "+", .even⟩

/-- The layout of numbers as plain text: always positional. -/
def plain : Layout := ⟨fun _ => true, "", "", .away⟩

/-- Writes digits with the point where the exponent of the leading digit says. -/
def positionalText (layout : Layout) (digits : List Char) (leading : Int) : List Char :=
  if leading < 0 then
    '0' :: '.' :: List.replicate (-leading - 1).toNat '0' ++ digits
  else
    let whole := leading.toNat + 1
    if digits.length ≤ whole then
      digits ++ List.replicate (whole - digits.length) '0' ++ layout.wholeMark.toList
    else
      digits.take whole ++ '.' :: digits.drop whole

/-- Writes the leading digit, the others after a point, and the exponent. -/
def exponentText (layout : Layout) (digits : List Char) (leading : Int) : List Char :=
  let mantissa := match digits with
    | [] => []
    | [d] => [d]
    | d :: rest => d :: '.' :: rest
  let sign := if leading < 0 then [] else layout.plusMark.toList
  mantissa ++ 'e' :: sign ++ (toString leading).toList

/-- Writes a decimal. -/
def decimalText (layout : Layout) (d : Decimal) : String :=
  let digits := Nat.toDigits 10 d.digits
  let leading := d.exponent + digits.length - 1
  String.ofList
    (if layout.positional leading then layout.positionalText digits leading else layout.exponentText digits leading)

/-- Writes a double with the fewest digits that identify it. -/
def text (layout : Layout) (x : Float) : String :=
  if x.isNaN then "NaN"
  else
    let sign := if x.toBits >>> 63 = 1 then "-" else ""
    let size := if x.isInf then "inf" else layout.decimalText ((Magnitude.ofBits x.toBits).shortest layout.tie)
    sign ++ size

end Layout

/-! ## Doubles from other numbers -/

namespace Double

/-- The double nearest to an integer of at most 64 bits. -/
def ofInt (n : Int) : Float :=
  if n < 0 then -n.natAbs.toUInt64.toFloat else n.natAbs.toUInt64.toFloat

/-- The double nearest to a decimal. A decimal beyond all finite doubles gives infinity, one too small for them zero. -/
def ofDecimal (d : Decimal) : Float :=
  let leading := d.exponent + (Nat.toDigits 10 d.digits).length
  if d.digits = 0 ∨ leading < -330 then 0
  else if 310 < leading then 1 / 0
  else Float.ofScientific d.digits (d.exponent < 0) d.exponent.natAbs

/-- The whole number nearest to a double, halves going away from zero, among those of 64 bits with a sign. -/
def nearestSigned (x : Float) : Int := x.round.toInt64.toInt

end Double

end Lookback
