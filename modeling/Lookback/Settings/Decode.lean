import Lookback.Settings.Basic
import Lookback.Value.Basic

/-!
# Settings as documents

`Settings.decode?` takes settings from a table strictly: a field has exactly the type it should have, or decoding fails
as a whole. Words are integers in their range, never doubles or texts; nothing may be null; names are told apart by
case; fields the library does not know are passed over. A consumer must have a name, an amount and an interval; all
other fields, and whole sections, may be left out and take standard values.

`Settings.encode` writes every field under its name; decoding gives the same settings back.
-/

namespace Lookback

namespace Entries

variable {α : Type}

/-- A field that must be there. -/
def required? (t : Entries) (key : String) (decode : Value → Option α) : Option α :=
  match t.get? key with
  | some v => decode v
  | none => none

/-- A field that takes a standard value when it is not there. -/
def optional? (t : Entries) (key : String) (standard : α) (decode : Value → Option α) : Option α :=
  match t.get? key with
  | some v => decode v
  | none => some standard

end Entries

/-! ## Decoding -/

/-- The mode a name stands for, in lower case. -/
def ReadMode.ofName? (name : String) : Option ReadMode :=
  if name = "windowed" then some .windowed
  else if name = "continuous" then some .continuous
  else none

/-- The name of a mode. -/
def ReadMode.name : ReadMode → String
  | windowed => "windowed"
  | continuous => "continuous"

/-- Takes a mode from its name, which may also be the only key of a table and stand for null there. -/
def ReadMode.decode? : Value → Option ReadMode
  | .text name => ofName? name
  | .table [(name, .null)] => ofName? name
  | _ => none

/-- Takes the size of a history from a table. -/
def BufferSettings.decode? (v : Value) : Option BufferSettings := do
  let t ← v.entries?
  let capacity ← t.optional? "capacity" standard.capacity Value.word?
  some { capacity }

/-- Takes the producer's settings from a table. -/
def ProducerSettings.decode? (v : Value) : Option ProducerSettings := do
  let t ← v.entries?
  let intervalMs ← t.optional? "interval_ms" standard.intervalMs Value.word?
  let samples ← t.optional? "samples" standard.samples Value.word?
  some { intervalMs, samples }

/-- Takes a consumer's settings from a table. -/
def ConsumerSettings.decode? (v : Value) : Option ConsumerSettings := do
  let t ← v.entries?
  let name ← t.required? "name" Value.text?
  let amount ← t.required? "amount" Value.word?
  let mode ← t.optional? "mode" ReadMode.standard ReadMode.decode?
  let exact ← t.optional? "exact" false Value.bool?
  let intervalMs ← t.required? "interval_ms" Value.word?
  some { name, amount, mode, exact, intervalMs }

/-- Takes consumers from the items of an array. -/
def ConsumerSettings.decodeList? : List Value → Option (List ConsumerSettings)
  | [] => some []
  | v :: rest => do
    let c ← decode? v
    let cs ← decodeList? rest
    some (c :: cs)

/-- Takes a list of consumers from an array. -/
def ConsumerSettings.decodeAll? (v : Value) : Option (List ConsumerSettings) := do
  let items ← v.items?
  decodeList? items

/-- Takes the settings of the log from a table. -/
def LogSettings.decode? (v : Value) : Option LogSettings := do
  let t ← v.entries?
  let level ← t.optional? "level" standard.level Value.text?
  let json ← t.optional? "json" standard.json Value.bool?
  some { level, json }

/-- Takes the settings of a run from a table. -/
def Settings.decode? (v : Value) : Option Settings := do
  let t ← v.entries?
  let buffer ← t.optional? "buffer" standard.buffer BufferSettings.decode?
  let producer ← t.optional? "producer" standard.producer ProducerSettings.decode?
  let consumers ← t.optional? "consumers" standard.consumers ConsumerSettings.decodeAll?
  let log ← t.optional? "log" standard.log LogSettings.decode?
  some { buffer, producer, consumers, log }

/-! ## Encoding -/

/-- The size of a history as a table. -/
def BufferSettings.encode (b : BufferSettings) : Value := .table [("capacity", .ofWord b.capacity)]

/-- The producer's settings as a table. -/
def ProducerSettings.encode (p : ProducerSettings) : Value :=
  .table [("interval_ms", .ofWord p.intervalMs), ("samples", .ofWord p.samples)]

/-- A consumer's settings as a table. -/
def ConsumerSettings.encode (c : ConsumerSettings) : Value :=
  .table [("name", .text c.name), ("amount", .ofWord c.amount), ("mode", .text c.mode.name), ("exact", .bool c.exact),
    ("interval_ms", .ofWord c.intervalMs)]

/-- The settings of the log as a table. -/
def LogSettings.encode (l : LogSettings) : Value := .table [("level", .text l.level), ("json", .bool l.json)]

/-- The settings of a run as a table. -/
def Settings.encode (s : Settings) : Value :=
  .table [("buffer", s.buffer.encode), ("producer", s.producer.encode),
    ("consumers", .array (s.consumers.map ConsumerSettings.encode)), ("log", s.log.encode)]

end Lookback
