import Lookback.Value.Toml.Node
import Lookback.Value.Toml.Number
import Lookback.Value.Toml.Text

/-!
# TOML

`Toml.read?` reads a TOML document into a table. A document is a list of lines: entries, whose keys may be dotted, and
headers, which say what table the following entries belong to. Dates and times become texts in their usual form.
-/

namespace Lookback

namespace Toml

open Reader

/-! ## Values -/

/-- Characters of numbers, dates and times. -/
def isWordChar (c : Char) : Bool := c.isAlphanum || c = '_' || c = '+' || c = '-' || c = '.' || c = ':'

/-- What the characters of a number, a date or a time stand for. -/
def wordNode? (cs : List Char) : Option Node :=
  match moment? cs with
  | some text => some (.moment (String.ofList text))
  | none => ((integer? cs).orElse fun _ => double? cs).map .value

/-- A blank and a time of day behind a date. -/
def timeAfterBlank : Reader (List Char) := do
  char ' '
  let cs ← takeWhile1 isWordChar
  match timeWithOffset? cs with
  | some time => pure time
  | none => refuse

/-- A number, a date or a time. A date may be parted from its time by a blank. -/
def word : Reader Node := do
  let cs ← takeWhile1 isWordChar
  let time ← if isDate cs then orElse timeAfterBlank (pure []) else pure []
  match wordNode? (if time.isEmpty then cs else cs ++ 'T' :: time) with
  | some v => pure v
  | none => refuse

/-- The items of an array up to its closing bracket, which is taken. A comma may follow the last one. -/
def items (item : Reader Node) : (bound : List Char) → Reader (List Node)
  | [] => refuse
  | _ :: bound => do
    bounded gaps
    if ← skip? "]" then pure []
    else do
      let v ← item
      bounded gaps
      if ← skip? "]" then pure [v]
      else do
        char ','
        let rest ← items item bound
        pure (v :: rest)

/-- An entry: a dotted key and its value. -/
def entry (value : Reader Node) : Reader (List String × String × Node) := do
  let (path, key) ← dottedKey
  blanks
  char '='
  blanks
  let v ← value
  pure (path, key, v)

/-- The entries of a table on one line up to its closing brace, which is taken; there is at least one. -/
def inlineEntries (value : Reader Node) : (bound : List Char) → Open → Reader Open
  | [], _ => refuse
  | _ :: bound, t => do
    let (path, key, v) ← entry value
    blanks
    match addAt path key v t with
    | none => refuse
    | some t =>
      if ← skip? "," then inlineEntries value bound t
      else do
        char '\x7d'
        pure t

/-- The table behind an opening brace. -/
def inlineTable (value : Reader Node) : Reader Node := do
  blanks
  if ← skip? "\x7d" then pure (.table .closed [])
  else do
    let t ← bounded fun bound => inlineEntries value bound (.header, [])
    pure (.table .closed t.2)

/-- A string as a value. -/
def textNode (s : String) : Node := .value (.text s)

/-- A value; arrays and tables in it may nest less than `depth` deep. -/
def value : (depth : Nat) → Reader Node
  | 0 => refuse
  | depth + 1 => fun s =>
    match s with
    | '"' :: '"' :: '"' :: _ => (textNode <$> longString '"') s
    | '\'' :: '\'' :: '\'' :: _ => (textNode <$> longString '\'') s
    | '"' :: _ | '\'' :: _ => (textNode <$> shortString) s
    | '[' :: rest => if depth = 0 then none else (Node.array <$> bounded (items (value depth))) rest
    | '\x7b' :: rest => if depth = 0 then none else inlineTable (value depth) rest
    | _ =>
      let cs := s.takeWhile isWordChar
      if cs = "true".toList then some (.value (.bool true), s.dropWhile isWordChar)
      else if cs = "false".toList then some (.value (.bool false), s.dropWhile isWordChar)
      else word s

/-! ## Documents -/

/-- A document read so far, and the path of the table that entries are added to. -/
structure State where
  root : Open
  path : List String

/-- The line of a header, behind its first bracket. -/
def header (s : State) : Reader State := do
  let doubled ← skip? "["
  let (path, key) ← dottedKey
  blanks
  string (if doubled then "]]" else "]")
  match (if doubled then openItem path key s.root else openTable path key s.root) with
  | some root => pure ⟨root, path ++ [key]⟩
  | none => refuse

/-- The line of an entry. -/
def entryLine (s : State) : Reader State := do
  let (path, key, v) ← entry (value depthLimit)
  match change false (addAt path key v) s.path s.root with
  | some root => pure { s with root }
  | none => refuse

/-- The lines of a document. -/
def lines : (bound : List Char) → State → Reader State
  | [], _ => refuse
  | _ :: bound, s => do
    blanks
    match ← peek? with
    | none => pure s
    | some '\n' | some '\r' | some '#' => do
      lineEnd
      lines bound s
    | some '[' => do
      let _ ← next
      let s ← header s
      lineEnd
      lines bound s
    | some _ => do
      let s ← entryLine s
      lineEnd
      lines bound s

/-- Reads a document, which must be a table. -/
def read? (text : String) : Option Entries :=
  let document : Reader State := do
    let _ ← skip? "\uFEFF"
    bounded fun bound => lines bound ⟨(.header, []), []⟩
  match (run? document text).bind fun s => (Node.table s.root.1 s.root.2).toValue? with
  | some (.table entries) => some entries
  | _ => none

end Toml

end Lookback
