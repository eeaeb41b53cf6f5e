import Lookback.Memory
import Lookback.Number.Integer
import Lookback.Text.Reader
import Lookback.Value.Basic

/-!
# Key paths, and what setting a key does

A layer of settings gives values to keys, and a key may be a path into nested tables and arrays: `log.level` or
`consumers[0]`. Setting a key changes a document as follows (`KeyPath.set`):

* keys are taken in lower case, in nested tables too;
* a table is merged into the table that is there, key by key; every other value replaces what is there;
* where a path leads through something that is no table, or no array, a new one takes its place;
* an array grows up to the index of a path, but an index that counts from its end must not lead past its beginning.

The keys that settings know and the names in paths consist of ASCII characters, so lower case is a matter of the
characters that are, or become, ASCII (`Key.lower`).
-/

namespace Lookback

namespace Key

/-- A character of a key in lower case. Past ASCII, the sign for kelvin alone has an ASCII letter for its lower case. -/
def lowerChar (c : Char) : Char := if c = '\u212a' then 'k' else c.toLower

/-- A key in lower case. -/
def lower (text : String) : String := text.map lowerChar

end Key

/-- A place in a document. -/
inductive KeyPath where
  /-- A key of the document itself. -/
  | key (name : String)
  /-- A key of the table at a place. -/
  | child (parent : KeyPath) (name : String)
  /-- An item of the array at a place; a negative index counts from the end. -/
  | item (parent : KeyPath) (index : Int)
  deriving DecidableEq, Repr

namespace Value

/-- The entries of a table; anything else has none. -/
def entriesOrNone : Value → Entries
  | table entries => entries
  | _ => []

/-- The items of an array; anything else has none. -/
def itemsOrNone : Value → List Value
  | array items => items
  | _ => []

mutual

/-- Gives a key of a document a value; a table is merged into the one that is there. -/
def put (key : String) : (value document : Value) → Value
  | table incoming, root =>
    let target := (Entries.get? (Key.lower key) root.entriesOrNone).getD (table [])
    table (Entries.set (Key.lower key) (putAll incoming target) root.entriesOrNone)
  | v, root => table (Entries.set (Key.lower key) v root.entriesOrNone)

/-- Gives keys of a document values, one after the other. Of keys that differ in case only the last one wins, so it matters in which
order they come. -/
def putAll : (entries : List (String × Value)) → (document : Value) → Value
  | [], root => root
  | (key, v) :: rest, root => putAll rest (put key v root)

end

/-- Changes the value of a key of a table, which stands for null where it is not there yet. -/
def changeKey (key : String) (f : Value → Except Failure Value) (entries : Entries) : Except Failure Value := do
  let v ← f ((Entries.get? key entries).getD null)
  .ok (table (Entries.set key v entries))

/-- The space an item of an array takes, in bytes. -/
def itemSize : Nat := 96

/-- The place in an array of some length that an index means; the array must have room for it. -/
def place (index : Int) (length : Nat) : Except Failure Nat :=
  if index < 0 then subtract length index.natAbs
  else do
    checkAddressable (index.toNat + 1) itemSize
    .ok index.toNat

/-- Changes an item of an array. Where the array is too short it is filled up with nulls. -/
def changeItem (index : Int) (f : Value → Except Failure Value) (v : Value) : Except Failure Value := do
  let i ← place index v.itemsOrNone.length
  let items := v.itemsOrNone ++ List.replicate (i + 1 - v.itemsOrNone.length) null
  let item ← f ((items[i]?).getD null)
  .ok (array (items.set i item))

end Value

namespace KeyPath

/-- Changes the value at a place. -/
def change (f : Value → Except Failure Value) : KeyPath → Value → Except Failure Value
  | key name, .table entries => Value.changeKey name f entries
  | key _, root => .ok root
  | child parent name, root => change (fun v => Value.changeKey name f v.entriesOrNone) parent root
  | item parent index, root => change (Value.changeItem index f) parent root

/-- Gives the place that a path leads to a value. -/
def set (v : Value) : KeyPath → Value → Except Failure Value
  | key name, root => .ok (Value.put name v root)
  | child parent name, root => change (fun parent => .ok (Value.put name v parent)) parent root
  | item parent index, root => change (Value.changeItem index fun _ => .ok v) parent root

/-! ## Reading paths -/

open Reader

/-- Characters of the names in a path. -/
def isNameChar (c : Char) : Bool := c.isAlphanum || c = ' ' || c = '_' || c = '-'

/-- A name. -/
def name : Reader String := do
  let cs ← takeWhile1 isNameChar
  pure (String.ofList cs)

/-- An index in brackets, with blanks around it. -/
def index : Reader Int := do
  char '['
  let _ ← takeWhile fun c => c = ' ' || c = '\t'
  let negative ← skip? "-"
  let ds ← takeWhile1 Char.isDigit
  let _ ← takeWhile fun c => c = ' ' || c = '\t'
  char ']'
  let n := (Integer.natural? ds).getD 0
  let i : Int := if negative then -n else n
  if Integer.fitsSigned i then pure i else refuse

/-- What follows on a place up to the end of the text. -/
def steps (place : KeyPath) : (bound : List Char) → Reader KeyPath
  | [] => refuse
  | _ :: bound => do
    match ← peek? with
    | none => pure place
    | some '.' => do
      let _ ← next
      let n ← name
      (place.child n).steps bound
    | some '[' => do
      let i ← index
      (place.item i).steps bound
    | some _ => refuse

/-- Reads a path in lower case; a text that is none is a key of the document. -/
def ofText (text : String) : KeyPath :=
  (run? (do
    let first ← name
    bounded (key first).steps) (Key.lower text)).getD (key (Key.lower text))

end KeyPath

end Lookback
