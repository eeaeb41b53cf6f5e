import Lookback.Value.Basic

/-!
# The order of keys

Which key of a table comes first is no part of what the table says. A program may keep its tables in any order, and in another one
each time it runs. That shows where keys are taken one after the other, as when documents are laid over each other.

So the order is left open here. A `Ranking` says of each key of each table where it comes, and `Value.arranged` puts the keys of a
document in that order.
-/

namespace Lookback

/-- The rank of each key of the table at a place: keys of lower rank come first. A place is given by the keys that lead to it, the
innermost first. -/
abbrev Ranking := List String → String → Nat

/-- No key comes before another, so that all of them stay where they are written. -/
def Ranking.asWritten : Ranking := fun _ _ => 0

namespace Value

/-- Puts an entry in front of those that come with it or after it. -/
def insertRanked (rank : String → Nat) (e : String × Value) : Entries → Entries
  | [] => [e]
  | x :: rest => if rank e.1 ≤ rank x.1 then e :: x :: rest else x :: insertRanked rank e rest

mutual

/-- A value at a place, with the keys of its tables in the order of a ranking. -/
def arranged (rank : Ranking) (place : List String) : Value → Value
  | table entries => table (arrangedAll rank place entries)
  | v => v

/-- The entries of a table at a place, in the order of a ranking. -/
def arrangedAll (rank : Ranking) (place : List String) : List (String × Value) → List (String × Value)
  | [] => []
  | (k, v) :: rest => insertRanked (rank place) (k, arranged rank (k :: place) v) (arrangedAll rank place rest)

end

theorem insertRanked_asWritten (place : List String) (e : String × Value) (t : Entries) :
    insertRanked (Ranking.asWritten place) e t = e :: t := by
  cases t with
  | nil => rfl
  | cons x rest => rfl

mutual

/-- As written, values stay as they are. -/
theorem arranged_asWritten (place : List String) : (v : Value) → arranged .asWritten place v = v
  | table entries => congrArg table (arrangedAll_asWritten place entries)
  | null | bool _ | integer _ | double _ | text _ | array _ => rfl

theorem arrangedAll_asWritten (place : List String) : (t : List (String × Value)) → arrangedAll .asWritten place t = t
  | [] => rfl
  | (k, v) :: rest => by
    rw [arrangedAll, insertRanked_asWritten, arranged_asWritten (k :: place) v, arrangedAll_asWritten place rest]

end

end Value

end Lookback
