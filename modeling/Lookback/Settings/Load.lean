import Lookback.Number.DoubleText
import Lookback.Settings.Convert
import Lookback.Settings.Files
import Lookback.Settings.KeyPath
import Lookback.Value.Order

/-!
# Loading settings

Settings come in layers, and a later layer wins key by key: a file named `sampler` in the working directory, which may
be missing; the file at a given path, which must be there; and the environment. `Settings.load` lays them over each
other, converts the result and validates it.

A variable gives a setting if its name begins with `SAMPLER_`, in any case; the rest is the key, with two underscores
between the parts of a path.

The keys of one layer are laid in some order or other, and `Surroundings` says in which.
-/

namespace Lookback

/-- The variables of the environment, by name. -/
abbrev Environment := List (String × String)

namespace Environment

/-- What the names of variables that give settings begin with, in lower case. -/
def mark : String := "sampler_"

/-- A text with a dot for each two underscores, from the left. -/
def dotted : List Char → List Char
  | '_' :: '_' :: rest => '.' :: dotted rest
  | c :: rest => c :: dotted rest
  | [] => []

/-- The key that a variable gives, if its name is that of a setting. -/
def key? (name : String) : Option String :=
  let lower := (Key.lower name).toList
  if mark.toList.isPrefixOf lower then some (String.ofList (dotted (lower.drop mark.length))) else none

/-- The value that a variable's text writes: a truth value, an integer or a double if it reads as one. -/
def value (text : String) : Value :=
  if text.toLower = "true" then .bool true
  else if text.toLower = "false" then .bool false
  else
    match Integer.signed? text, Double.ofText? text with
    | some n, _ => .integer n
    | none, some x => .double x
    | none, none => .text text

/-- The keys that the environment gives values to. -/
def entries (env : Environment) : List (String × Value) :=
  env.filterMap fun e => (key? e.1).map fun key => (key, value e.2)

end Environment

/-- Where settings can come from. -/
inductive Origin where
  /-- The file in the working directory. -/
  | nearby
  /-- The file at a given path. -/
  | named
  | environment
  deriving DecidableEq, Repr

/-- All that loading settings depends on. -/
structure Surroundings where
  /-- The formats of settings files, in the order in which files of one name are looked for. -/
  formats : List FileFormat
  files : Directory
  env : Environment
  /-- The order in which keys are taken. -/
  rank : Origin → Ranking

namespace Settings

/-- Keys with the values that they are given, in order. -/
abbrev Layer := List (String × Value)

/-- Lays a layer over a document. -/
def overlay (document : Value) : Layer → Except Failure Value
  | [] => .ok document
  | (key, v) :: rest => do
    let document ← (KeyPath.ofText key).set v document
    overlay document rest

/-- Lays layers over a document one after the other; one that could not be read ends it. -/
def overlayAll (document : Value) : List (Option Layer) → Except SettingsError Value
  | [] => .ok document
  | none :: _ => .error .unreadable
  | some layer :: rest => do
    let document ← (overlay document layer).mapError .alarm
    overlayAll document rest

/-- The name of the settings file that is looked for in the working directory. -/
def localName : String := "sampler"

/-- What a file says that may be missing. -/
def optionalLayer? (x : Surroundings) (name : String) : Option Layer :=
  match x.files.find? x.formats name with
  | some (format, text) => format.read? text
  | none => some []

/-- What a file says that must be there. -/
def requiredLayer? (x : Surroundings) (name : String) : Option Layer := do
  let (format, text) ← x.files.find? x.formats name
  format.read? text

/-- A layer in the order in which its keys are taken. -/
def Layer.inOrder (rank : Ranking) (l : Layer) : Layer := Value.arrangedAll rank [] l

/-- The layers of settings, the weakest first. -/
def layers (x : Surroundings) (path : Option String) : List (Option Layer) :=
  (optionalLayer? x localName).map (·.inOrder (x.rank .nearby)) ::
    path.toList.map (fun name => (requiredLayer? x name).map (·.inOrder (x.rank .named))) ++
    [some (Layer.inOrder (x.rank .environment) x.env.entries)]

/-- The document that layers make, each laid over those before it. -/
def merge (layers : List (Option Layer)) : Except SettingsError Value := overlayAll (.table []) layers

/-- Loads the settings of a run. -/
def load (x : Surroundings) (path : Option String) : Except SettingsError Settings := do
  let document ← merge (layers x path)
  match convert? document with
  | none => .error .unreadable
  | some s => do
    s.validate
    .ok s

end Settings

end Lookback
