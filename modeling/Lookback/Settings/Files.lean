import Lookback.Number.Double
import Lookback.Value.Json
import Lookback.Value.Toml

/-!
# Settings files

A settings file is of some format, by its extension (`FileFormat`). TOML and JSON are read here (`FileFormat.all`). Whoever has
a reader for another format, such as YAML, may add it; the formats are an argument of all that follows, and so is the order in
which they are tried.

`Directory.find?` says which file of a directory a path stands for: the one it names, if that is a file, or else one with an
extension behind that name.

Only the parts of a path that lead somewhere matter (`FileName`): what stands between two slashes may be empty or a
single dot, and changes nothing there. Behind the name of a file it does: a path that ends in a slash or a dot is that
of a directory, and stands for a file only once an extension takes its place.
-/

namespace Lookback

/-! ## Formats -/

/-- A format of settings files. -/
structure FileFormat where
  /-- The extensions that its files may have. -/
  extensions : List String
  /-- What a text says; it must be a table. -/
  read? : String → Option Entries

namespace FileFormat

/-- The first of some formats whose files may have an extension. -/
def ofExtension? (formats : List FileFormat) (e : String) : Option FileFormat := formats.find? fun f => e ∈ f.extensions

/-- An integer of JSON as settings see it: one that does not fit 64 bits with a sign is a double. -/
def narrowInteger (n : Int) : Value := if n ≤ lastSigned then .integer n else .double (Double.ofInt n)

mutual

/-- A JSON value as settings see it. -/
def narrow : Value → Value
  | .integer n => narrowInteger n
  | .array items => .array (narrowItems items)
  | .table entries => .table (narrowEntries entries)
  | v => v

/-- The items of an array as settings see them. -/
def narrowItems : List Value → List Value
  | [] => []
  | v :: rest => narrow v :: narrowItems rest

/-- The entries of a table as settings see them. -/
def narrowEntries : List (String × Value) → List (String × Value)
  | [] => []
  | (k, v) :: rest => (k, narrow v) :: narrowEntries rest

end

/-- TOML files. -/
def toml : FileFormat := ⟨["toml"], Toml.read?⟩

/-- JSON files. -/
def json : FileFormat := ⟨["json"], fun text => (Json.read? text).bind fun v => (narrow v).entries?⟩

/-- The formats that are read here. -/
def all : List FileFormat := [toml, json]

end FileFormat

/-! ## Names -/

/-- What a path says of a file. -/
structure FileName where
  /-- Whether the path starts at the root of all directories. -/
  rooted : Bool
  /-- The directories that the path leads through. -/
  above : List (List Char)
  /-- The last part of the path that leads somewhere. -/
  name : List Char
  /-- Whether the path ends there, as that of a file does. -/
  final : Bool
  deriving DecidableEq, Repr

namespace FileName

/-- The parts of a path between its slashes. -/
def parts : List Char → List (List Char)
  | [] => [[]]
  | c :: rest =>
    if c = '/' then [] :: parts rest
    else
      match parts rest with
      | [] => [[c]]
      | p :: ps => (c :: p) :: ps

/-- Whether a part of a path leads somewhere. -/
def leads (part : List Char) : Bool := part ≠ [] && part ≠ ['.']

/-- Reads a path. One that leads nowhere, or out of a directory at its end, names no file. -/
def ofText? (path : String) : Option FileName := do
  let leading := (parts path.toList).filter leads
  let name ← leading.getLast?
  if name = ['.', '.'] then none
  else some ⟨path.toList.head? = some '/', leading.dropLast, name, (parts path.toList).getLast? = some name⟩

/-- The path to a file, written with no more than it needs. -/
def text (f : FileName) : String :=
  String.ofList ((if f.rooted then ['/'] else []) ++ f.above.flatMap (· ++ ['/']) ++ f.name ++
    (if f.final then [] else ['/']))

/-- The extension of a name: what follows its last dot, unless the name only begins with that dot. -/
def extension? (f : FileName) : Option String :=
  match f.name.reverse.dropWhile (· ≠ '.') with
  | '.' :: stem =>
    if stem.isEmpty then none else some (String.ofList (f.name.reverse.takeWhile (· ≠ '.')).reverse)
  | _ => none

/-- The file with an extension behind its name. -/
def withExtension (f : FileName) (e : String) : FileName := { f with name := f.name ++ '.' :: e.toList, final := true }

/-- The files that a name can stand for. -/
def candidates (formats : List FileFormat) (f : FileName) : List FileName :=
  f :: formats.flatMap fun format => format.extensions.map f.withExtension

end FileName

/-! ## Directories -/

/-- The texts of files, by the paths to them. -/
abbrev Directory := List (String × String)

namespace Directory

/-- The text of a file. -/
def text? (d : Directory) (file : FileName) : Option String :=
  (d.find? fun f => FileName.ofText? f.1 == some file).map (·.2)

/-- The settings file that a path stands for, with its format. -/
def find? (d : Directory) (formats : List FileFormat) (path : String) : Option (FileFormat × String) := do
  let file ← FileName.ofText? path
  match d.text? file with
  | some text => do
    let e ← file.extension?
    let format ← FileFormat.ofExtension? formats e
    some (format, text)
  | none =>
    formats.findSome? fun format =>
      format.extensions.findSome? fun e => (d.text? (file.withExtension e)).map fun text => (format, text)

end Directory

end Lookback
