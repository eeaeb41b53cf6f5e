import Lookback.Number.Double

/-!
# Document values

JSON texts, settings files and environment variables all describe values of one shape: scalars, arrays, and tables that
give a value to each of some keys. `Value` is that shape. A table keeps its keys in the order in which they were first
set, and each key stands in it once as long as it is built with `set`.
-/

namespace Lookback

/-- A value of a document. -/
inductive Value where
  | null
  | bool (b : Bool)
  | integer (n : Int)
  | double (x : Float)
  | text (s : String)
  | array (items : List Value)
  | table (entries : List (String × Value))
  deriving Repr, Inhabited

/-- The keys of a table with their values. -/
abbrev Entries := List (String × Value)

namespace Entries

/-- The value of a key. -/
def get? (key : String) : Entries → Option Value
  | [] => none
  | (k, v) :: rest => if k = key then some v else get? key rest

/-- Gives a key a value, in place of the one it had or else at the end. -/
def set (key : String) (value : Value) : Entries → Entries
  | [] => [(key, value)]
  | (k, v) :: rest => if k = key then (k, value) :: rest else (k, v) :: set key value rest

/-- The entries written one after the other: a later one replaces an earlier one with the same key. -/
def ofList (entries : List (String × Value)) : Entries :=
  entries.foldl (fun acc e => acc.set e.1 e.2) []

@[simp] theorem get?_nil (key : String) : get? key [] = none := rfl

end Entries

namespace Value

/-- The value of a key of a table. -/
def get? (key : String) : Value → Option Value
  | table entries => Entries.get? key entries
  | _ => none

/-- The entries of a table. -/
def entries? : Value → Option Entries
  | table entries => some entries
  | _ => none

/-- A truth value. -/
def bool? : Value → Option Bool
  | bool b => some b
  | _ => none

/-- A text. -/
def text? : Value → Option String
  | text s => some s
  | _ => none

/-- A 64-bit word: an integer in its range. -/
def word? : Value → Option UInt64
  | integer n => if 0 ≤ n ∧ n ≤ lastWord then some (UInt64.ofNat n.toNat) else none
  | _ => none

/-- A double, or the double nearest to an integer. -/
def double? : Value → Option Float
  | integer n => some (Double.ofInt n)
  | double x => some x
  | _ => none

/-- The items of an array. -/
def items? : Value → Option (List Value)
  | array items => some items
  | _ => none

/-- A value of this type for a word. -/
def ofWord (w : UInt64) : Value := integer w.toNat

end Value

end Lookback
