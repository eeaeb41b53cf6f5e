import Lookback.Time.Timestamp
import Lookback.Value.Basic

/-!
# Dates and times of TOML

A moment is a date, a time of day, or both, then with an offset from UTC if wanted. It becomes a text in its usual form:
a capital `T` between date and time, no more digits of a second than needed, and no sign but plus on a zero offset.
-/

namespace Lookback

namespace Toml

/-- The number that exactly two digits write, if it is in a range. -/
def two? (low high : Nat) (a b : Char) : Option Nat := do
  let n ← Integer.natural? [a, b]
  if low ≤ n ∧ n ≤ high then some n else none

/-- Whether characters are a date in the calendar. -/
def isDate : List Char → Bool
  | [y₁, y₂, y₃, y₄, '-', m₁, m₂, '-', d₁, d₂] =>
    match Integer.natural? [y₁, y₂, y₃, y₄], two? 1 12 m₁ m₂, two? 1 31 d₁ d₂ with
    | some y, some m, some d => d ≤ Timestamp.daysInMonth y m
    | _, _, _ => false
  | _ => false

/-- The usual form of a time of day: a fraction has at most nine digits and no zeros at its end. -/
def time? : List Char → Option (List Char)
  | h₁ :: h₂ :: ':' :: m₁ :: m₂ :: ':' :: s₁ :: s₂ :: rest => do
    let _ ← two? 0 23 h₁ h₂
    let _ ← two? 0 59 m₁ m₂
    let _ ← two? 0 60 s₁ s₂
    let seconds := [h₁, h₂, ':', m₁, m₂, ':', s₁, s₂]
    match rest with
    | [] => some seconds
    | '.' :: ds =>
      if ds.isEmpty || !ds.all Char.isDigit then none
      else
        match ((ds.take 9).reverse.dropWhile (· = '0')).reverse with
        | [] => some seconds
        | fraction => some (seconds ++ '.' :: fraction)
    | _ => none
  | _ => none

/-- The usual form of an offset from UTC. -/
def offset? : List Char → Option (List Char)
  | ['Z'] | ['z'] => some ['Z']
  | [sign, h₁, h₂, ':', m₁, m₂] => do
    let h ← two? 0 23 h₁ h₂
    let m ← two? 0 59 m₁ m₂
    let sign ← if sign = '+' ∨ (sign = '-' ∧ h = 0 ∧ m = 0) then some '+' else if sign = '-' then some '-' else none
    some [sign, h₁, h₂, ':', m₁, m₂]
  | _ => none

/-- The usual form of a time of day with an offset from UTC, or without one. -/
def timeWithOffset? (cs : List Char) : Option (List Char) := do
  let isOffset (c : Char) : Bool := c = 'Z' || c = 'z' || c = '+' || c = '-'
  let time ← time? (cs.takeWhile fun c => !isOffset c)
  match cs.dropWhile fun c => !isOffset c with
  | [] => some time
  | rest => do
    let offset ← offset? rest
    some (time ++ offset)

/-- The usual form of a moment: a date, a time of day, or both with a letter or a blank between them. -/
def moment? (cs : List Char) : Option (List Char) :=
  let date := cs.take 10
  if isDate date then
    match cs.drop 10 with
    | [] => some date
    | t :: time =>
      if t = 'T' ∨ t = 't' ∨ t = ' ' then (timeWithOffset? time).map fun time => date ++ 'T' :: time else none
  else time? cs

end Toml

end Lookback
