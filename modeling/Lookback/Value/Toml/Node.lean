import Lookback.Value.Toml.Moment

/-!
# Tables under construction

A document is built by its lines, in any order, so a part of it is kept as a `Node` until the last line is read. What a
table was made by decides who may add to it (`Origin`): a table that a header names is complete after the entries under
it, one that was only passed through on the way to another may still get a header, one made by dotted keys is open to
dotted keys alone, and one written as a value is closed. A key is never given twice.
-/

namespace Lookback

namespace Toml

/-- What a table was made by. -/
inductive Origin where
  /-- A header names it, or it is the document. -/
  | header
  /-- A header names a table within it. -/
  | passed
  /-- A dotted key leads through it. -/
  | dotted
  /-- It is written as a value. -/
  | closed
  deriving DecidableEq, Repr

/-- A part of a document under construction. -/
inductive Node where
  /-- A scalar. -/
  | value (v : Value)
  /-- A date or time, in its usual form. -/
  | moment (text : String)
  | array (items : List Node)
  | table (origin : Origin) (entries : List (String × Node))
  /-- Tables under one header each; entries are added to the last one. -/
  | tables (items : List Node)
  deriving Inhabited

/-- The node of a key. -/
def find? (key : String) : List (String × Node) → Option Node
  | [] => none
  | (k, n) :: rest => if k = key then some n else find? key rest

/-- Gives a key a node, in place of the one it had or else at the end. -/
def put (key : String) (node : Node) : List (String × Node) → List (String × Node)
  | [] => [(key, node)]
  | (k, n) :: rest => if k = key then (k, node) :: rest else (k, n) :: put key node rest

/-- A table with its origin. -/
abbrev Open := Origin × List (String × Node)

/-- Changes the table that a path leads to, making the tables on the way that are not there yet. A dotted path does not
lead through tables that have a header; no path leads through anything that is written as a value. -/
def change (dotted : Bool) (f : Open → Option Open) : List String → Open → Option Open
  | [], t => f t
  | key :: path, (origin, entries) => do
    let node ← match find? key entries with
      | none => do
        let (o, es) ← change dotted f path (if dotted then .dotted else .passed, [])
        some (.table o es)
      | some (.table o es) =>
        if o == .closed || (dotted && o == .header) then none
        else do
          let (o, es) ← change dotted f path (o, es)
          some (.table o es)
      | some (.tables items) =>
        match items.getLast? with
        | some (.table o es) => do
          let (o, es) ← change dotted f path (o, es)
          some (.tables (items.dropLast ++ [.table o es]))
        | _ => none
      | some _ => none
    some (origin, put key node entries)

/-- Adds an entry to a table that does not have its key yet. -/
def addEntry (key : String) (node : Node) : Open → Option Open
  | (origin, entries) =>
    match find? key entries with
    | none => some (origin, put key node entries)
    | some _ => none

/-- Adds an entry whose key is the last of a dotted path. Only a dotted path adds to tables made by dotted keys, and it
adds to no others. -/
def addAt (path : List String) (key : String) (node : Node) : Open → Option Open :=
  change true (fun t => if (t.1 == .dotted) == path.isEmpty then none else addEntry key node t) path

/-- Opens the table that a header names: a new one, or one passed through before. Either comes last in its table. -/
def openTable (path : List String) (key : String) : Open → Option Open :=
  change false (fun (origin, entries) =>
    match find? key entries with
    | none => some (origin, put key (.table .header []) entries)
    | some (.table .passed es) => some (origin, entries.filter (fun e => e.1 ≠ key) ++ [(key, .table .header es)])
    | some _ => none) path

/-- Opens one more of the tables that a doubled header names. -/
def openItem (path : List String) (key : String) : Open → Option Open :=
  change false (fun (origin, entries) =>
    match find? key entries with
    | none => some (origin, put key (.tables [.table .header []]) entries)
    | some (.tables items) => some (origin, put key (.tables (items ++ [.table .header []])) entries)
    | some _ => none) path

/-! ## Finished documents -/

/-- A table whose first key is this one stands for the date or time that the key's string writes. -/
def momentKey : String := "$__toml_private_datetime"

/-- The date or time that a part of a document writes as a string. -/
def Node.quotedMoment? : Node → Option Value
  | .value (.text s) => (moment? s.toList).map fun cs => .text (String.ofList cs)
  | _ => none

mutual

/-- The value that a finished part of a document stands for. -/
def Node.toValue? : Node → Option Value
  | .value v => some v
  | .moment text => some (.text text)
  | .array items => (itemValues? items).map .array
  | .tables items => (itemValues? items).map .array
  | .table _ [] => some (.table [])
  | .table _ ((key, n) :: rest) =>
    if key = momentKey then n.quotedMoment?
    else do
      let v ← n.toValue?
      let vs ← entryValues? rest
      some (.table ((key, v) :: vs))

/-- The entries of a finished table. -/
def entryValues? : List (String × Node) → Option (List (String × Value))
  | [] => some []
  | (k, n) :: rest => do
    let v ← n.toValue?
    let vs ← entryValues? rest
    some ((k, v) :: vs)

/-- The items of a finished array. -/
def itemValues? : List Node → Option (List Value)
  | [] => some []
  | n :: rest => do
    let v ← n.toValue?
    let vs ← itemValues? rest
    some (v :: vs)

end

end Toml

end Lookback
