import Lookback.Settings.Decode

/-!
# Settings from layered documents

Settings files and environment variables write values loosely, so their types are converted where the meaning is clear.

* A word is taken from a number, rounded if it is a double, from a truth value, or from a text that writes one.
* A truth value is taken from a number, which is false if it is zero, or from a text such as `yes` or `off`.
* A text is taken from a number or a truth value as it is written.
* A mode is taken from its name in any case.

Sections are tables; an array gives the fields of a section in their order. Null is converted to nothing.
-/

namespace Lookback

namespace Value

/-- Texts that stand for true, in lower case. -/
def trueTexts : List String := ["true", "on", "yes"]

/-- Texts that stand for false, in lower case. -/
def falseTexts : List String := ["false", "off", "no"]

/-- Converts a value to a 64-bit word. A negative integer has none; a double outside the range gives the nearest end. -/
def toWord? : Value → Option UInt64
  | integer n => word? (integer n)
  | double x => some x.round.toUInt64
  | bool b => some (if b then 1 else 0)
  | text s =>
    if s.toLower ∈ trueTexts then some 1
    else if s.toLower ∈ falseTexts then some 0
    else (Integer.unsigned? lastWord s).map UInt64.ofNat
  | null | array _ | table _ => none

/-- Converts a value to a truth value. -/
def toBool? : Value → Option Bool
  | bool b => some b
  | integer n => some (n != 0)
  | double x => some (x != 0)
  | text s =>
    if s.toLower ∈ "1" :: trueTexts then some true
    else if s.toLower ∈ "0" :: falseTexts then some false
    else none
  | null | array _ | table _ => none

/-- Converts a value to a text. -/
def toText? : Value → Option String
  | text s => some s
  | bool b => some (if b then "true" else "false")
  | integer n => some (toString n)
  | double x => some (Layout.plain.text x)
  | null | array _ | table _ => none

/-- Converts a value to a mode. The name may also be the only key of a table. -/
def toMode? : Value → Option ReadMode
  | text s => ReadMode.ofName? s.toLower
  | table [(name, _)] => ReadMode.ofName? name.toLower
  | _ => none

/-- What a section gives for a field: the value of its key, or the item at its place. -/
def field? (v : Value) (place : Nat) (key : String) : Option Value :=
  match v with
  | table entries => Entries.get? key entries
  | array items => items[place]?
  | _ => none

/-- Tables and arrays are sections. -/
def isSection : Value → Bool
  | table _ | array _ => true
  | _ => false

variable {α : Type}

/-- A field that a section must give. -/
def requiredField? (v : Value) (place : Nat) (key : String) (convert : Value → Option α) : Option α :=
  match v.field? place key with
  | some v => convert v
  | none => none

/-- A field that takes a standard value where a section does not give it. -/
def optionalField? (v : Value) (place : Nat) (key : String) (standard : α) (convert : Value → Option α) : Option α :=
  match v.field? place key with
  | some v => convert v
  | none => some standard

end Value

/-- Converts the size of a history. -/
def BufferSettings.convert? (v : Value) : Option BufferSettings := do
  guard v.isSection
  let capacity ← v.optionalField? 0 "capacity" standard.capacity Value.toWord?
  some { capacity }

/-- Converts the producer's settings. -/
def ProducerSettings.convert? (v : Value) : Option ProducerSettings := do
  guard v.isSection
  let intervalMs ← v.optionalField? 0 "interval_ms" standard.intervalMs Value.toWord?
  let samples ← v.optionalField? 1 "samples" standard.samples Value.toWord?
  some { intervalMs, samples }

/-- Converts a consumer's settings. -/
def ConsumerSettings.convert? (v : Value) : Option ConsumerSettings := do
  guard v.isSection
  let name ← v.requiredField? 0 "name" Value.toText?
  let amount ← v.requiredField? 1 "amount" Value.toWord?
  let mode ← v.optionalField? 2 "mode" ReadMode.standard Value.toMode?
  let exact ← v.optionalField? 3 "exact" false Value.toBool?
  let intervalMs ← v.requiredField? 4 "interval_ms" Value.toWord?
  some { name, amount, mode, exact, intervalMs }

/-- Converts consumers one after the other. -/
def ConsumerSettings.convertList? : List Value → Option (List ConsumerSettings)
  | [] => some []
  | v :: rest => do
    let c ← convert? v
    let cs ← convertList? rest
    some (c :: cs)

/-- Converts a list of consumers. -/
def ConsumerSettings.convertAll? (v : Value) : Option (List ConsumerSettings) := do
  let items ← v.items?
  convertList? items

/-- Converts the settings of the log. -/
def LogSettings.convert? (v : Value) : Option LogSettings := do
  guard v.isSection
  let level ← v.optionalField? 0 "level" standard.level Value.toText?
  let json ← v.optionalField? 1 "json" standard.json Value.toBool?
  some { level, json }

/-- Converts the settings of a run. -/
def Settings.convert? (v : Value) : Option Settings := do
  guard v.isSection
  let buffer ← v.optionalField? 0 "buffer" standard.buffer BufferSettings.convert?
  let producer ← v.optionalField? 1 "producer" standard.producer ProducerSettings.convert?
  let consumers ← v.optionalField? 2 "consumers" standard.consumers ConsumerSettings.convertAll?
  let log ← v.optionalField? 3 "log" standard.log LogSettings.convert?
  some { buffer, producer, consumers, log }

end Lookback
