import Mathlib.Data.List.Nodup
import Mathlib.Data.List.Perm.Basic
import Lookback.Proofs.Settings.Leaves

/-!
# Settings decode what they describe

A `Sheet` says which places of settings a document gives, and with which values. The document itself is any that is written from the
sheet (`Sheet.WrittenAs`): the entries of each of its tables come in any order, and among others that no field has the name of.

Decoding depends on the sheet alone (`Sheet.WrittenAs.decode?_eq_some_iff`). With every place of some settings it gives these settings
back; with places left out that need not be given it gives their standard values there, and the rest unchanged; and a place left out
that must be given, or one with a value it does not take, is the end of it all (`Settings.decodes_what_is_described`).
-/

namespace Lookback

/-! ## Tables that list fields -/

namespace Entries

variable {α : Type} {t : Entries} {fields : List (String × Option Value)} {key : String} {given : Option Value}

/-- The entries of a table are the fields that have a value, in any order, and among others of unknown names. -/
def Lists (t : Entries) (fields : List (String × Option Value)) : Prop :=
  ∃ unknown : Entries, (∀ e ∈ unknown, e.1 ∉ fields.map Prod.fst) ∧
    t.Perm ((fields.filterMap fun f => f.2.map (f.1, ·)) ++ unknown)

theorem Lists.refl (h : t = fields.filterMap fun f => f.2.map (f.1, ·)) : t.Lists fields :=
  ⟨[], by simp, by rw [List.append_nil, h]⟩

/-- A table that lists fields with different names gives each of them its value. -/
theorem Lists.get? (h : t.Lists fields) (hnames : (fields.map Prod.fst).Nodup) (hfield : (key, given) ∈ fields) :
    t.get? key = given := by
  obtain ⟨unknown, hunknown, hperm⟩ := h
  refine get?_eq_of_mem_iff fun v => ?_
  rw [hperm.mem_iff, List.mem_append, List.mem_filterMap]
  constructor
  · rintro (⟨f, hf, hv⟩ | hv)
    · obtain ⟨x, hx, hpair⟩ := Option.map_eq_some_iff.mp hv
      obtain ⟨hkey, rfl⟩ := Prod.mk.inj hpair
      have hsame : f = (key, given) := List.inj_on_of_nodup_map hnames hf hfield hkey
      rw [hsame] at hx
      exact hx
    · exact absurd (List.mem_map_of_mem hfield) (hunknown _ hv)
  · intro hgiven
    exact Or.inl ⟨(key, given), hfield, by rw [hgiven]; rfl⟩

theorem Lists.optional? (h : t.Lists fields) (hnames : (fields.map Prod.fst).Nodup) (hfield : (key, given) ∈ fields)
    (standard : α) (decode : Value → Option α) : t.optional? key standard decode = given.elim (some standard) decode :=
  optional?_of_get? (h.get? hnames hfield) standard decode

theorem Lists.required? (h : t.Lists fields) (hnames : (fields.map Prod.fst).Nodup) (hfield : (key, given) ∈ fields)
    (decode : Value → Option α) : t.required? key decode = given.bind decode :=
  required?_of_get? (h.get? hnames hfield) decode

end Entries

namespace Settings

/-! ## Sheets -/

/-- What a document gives of settings. -/
structure Sheet where
  /-- Which parts it gives. -/
  parts : Part → Bool
  /-- The number of its consumers. -/
  consumers : Nat
  /-- The values of the places that it gives. -/
  leaves : Leaf → Option Value

/-- All that settings say. -/
def sheet (s : Settings) : Sheet := ⟨fun _ => true, s.consumers.length, s.leafValue?⟩

@[simp] theorem sheet_parts (s : Settings) (p : Part) : s.sheet.parts p = true := rfl

@[simp] theorem sheet_consumers (s : Settings) : s.sheet.consumers = s.consumers.length := rfl

@[simp] theorem sheet_leaves (s : Settings) (l : Leaf) : s.sheet.leaves l = s.leafValue? l := rfl

/-- Places that are left out. -/
structure Omission where
  parts : Part → Bool
  leaves : Leaf → Bool

/-- No places. -/
def Omission.none : Omission := ⟨fun _ => false, fun _ => false⟩

namespace Sheet

/-- A sheet with places left out. -/
def without (sh : Sheet) (o : Omission) : Sheet where
  parts p := sh.parts p && !o.parts p
  consumers := sh.consumers
  leaves l := if o.leaves l then none else sh.leaves l

/-- A sheet with another value at a place. -/
def replace (sh : Sheet) (l : Leaf) (v : Value) : Sheet := { sh with leaves := fun l' => if l' = l then some v else sh.leaves l' }

section Changes

variable (sh : Sheet) (o : Omission) (l : Leaf) (v : Value)

@[simp] theorem without_parts (p : Part) : (sh.without o).parts p = (sh.parts p && !o.parts p) := rfl

@[simp] theorem without_leaves : (sh.without o).leaves l = if o.leaves l then none else sh.leaves l := rfl

theorem without_none : sh.without .none = sh := by
  simp [without, Omission.none]

@[simp] theorem replace_parts (p : Part) : (sh.replace l v).parts p = sh.parts p := rfl

@[simp] theorem replace_leaves_self : (sh.replace l v).leaves l = some v := if_pos rfl

end Changes

/-- A part of a document, if it is given. -/
def partValue (sh : Sheet) (p : Part) (v : Value) : Option Value := if sh.parts p then some v else none

/-- The parts of a document. -/
def partFields (sh : Sheet) (buffer producer consumers log : Value) : List (String × Option Value) :=
  [("buffer", sh.partValue .buffer buffer), ("producer", sh.partValue .producer producer),
    ("consumers", sh.partValue .consumers consumers), ("log", sh.partValue .log log)]

/-- The fields of the size of the history. -/
def bufferFields (sh : Sheet) : List (String × Option Value) := [("capacity", sh.leaves .capacity)]

/-- The fields of the producer. -/
def producerFields (sh : Sheet) : List (String × Option Value) :=
  [("interval_ms", sh.leaves .interval), ("samples", sh.leaves .samples)]

/-- The fields of a consumer. -/
def consumerFields (sh : Sheet) (place : Nat) : List (String × Option Value) :=
  [("name", sh.leaves (.consumer place .name)), ("amount", sh.leaves (.consumer place .amount)),
    ("mode", sh.leaves (.consumer place .mode)), ("exact", sh.leaves (.consumer place .exact)),
    ("interval_ms", sh.leaves (.consumer place .intervalMs))]

/-- The fields of the log. -/
def logFields (sh : Sheet) : List (String × Option Value) := [("level", sh.leaves .level), ("json", sh.leaves .json)]

/-- A document that is written from a sheet. -/
def WrittenAs (sh : Sheet) (v : Value) : Prop :=
  ∃ (t buffer producer log : Entries) (consumers : List Entries), v = .table t ∧
    t.Lists (sh.partFields (.table buffer) (.table producer) (.array (consumers.map .table)) (.table log)) ∧
    buffer.Lists sh.bufferFields ∧ producer.Lists sh.producerFields ∧ log.Lists sh.logFields ∧
    consumers.length = sh.consumers ∧
    ∀ (place : Nat) (c : Entries), consumers[place]? = some c → c.Lists (sh.consumerFields place)

/-! ## What a sheet describes -/

/-- The size of the history has the values given for it, and its standard value where none is given. -/
def DescribesBuffer (sh : Sheet) (b : BufferSettings) : Prop :=
  (sh.leaves .capacity).elim (some BufferSettings.standard.capacity) Value.word? = some b.capacity

/-- The producer has the values given for it, and its standard values where none are given. -/
def DescribesProducer (sh : Sheet) (p : ProducerSettings) : Prop :=
  (sh.leaves .interval).elim (some ProducerSettings.standard.intervalMs) Value.word? = some p.intervalMs ∧
    (sh.leaves .samples).elim (some ProducerSettings.standard.samples) Value.word? = some p.samples

/-- A consumer has the values given for it, and its standard values where none are given and none need be. -/
def DescribesConsumer (sh : Sheet) (place : Nat) (c : ConsumerSettings) : Prop :=
  (sh.leaves (.consumer place .name)).bind Value.text? = some c.name ∧
    (sh.leaves (.consumer place .amount)).bind Value.word? = some c.amount ∧
    (sh.leaves (.consumer place .mode)).elim (some ReadMode.standard) ReadMode.decode? = some c.mode ∧
    (sh.leaves (.consumer place .exact)).elim (some false) Value.bool? = some c.exact ∧
    (sh.leaves (.consumer place .intervalMs)).bind Value.word? = some c.intervalMs

/-- There are as many consumers as are given, each with the values given for it. -/
def DescribesConsumers (sh : Sheet) (cs : List ConsumerSettings) : Prop :=
  cs.length = sh.consumers ∧ ∀ (place : Nat) (c : ConsumerSettings), cs[place]? = some c → sh.DescribesConsumer place c

/-- The log has the values given for it, and its standard values where none are given. -/
def DescribesLog (sh : Sheet) (l : LogSettings) : Prop :=
  (sh.leaves .level).elim (some LogSettings.standard.level) Value.text? = some l.level ∧
    (sh.leaves .json).elim (some LogSettings.standard.json) Value.bool? = some l.json

/-- Each part of the settings has the values given for it, or is that of the standard settings where the part is not given. -/
structure Describes (sh : Sheet) (s : Settings) : Prop where
  buffer : if sh.parts .buffer then sh.DescribesBuffer s.buffer else s.buffer = standard.buffer
  producer : if sh.parts .producer then sh.DescribesProducer s.producer else s.producer = standard.producer
  consumers : if sh.parts .consumers then sh.DescribesConsumers s.consumers else s.consumers = standard.consumers
  log : if sh.parts .log then sh.DescribesLog s.log else s.log = standard.log

/-! ## Decoding follows the sheet -/

variable {sh : Sheet} {t : Entries}

theorem decode_buffer_iff (h : t.Lists sh.bufferFields) {b : BufferSettings} :
    BufferSettings.decode? (.table t) = some b ↔ sh.DescribesBuffer b := by
  have hnames : (sh.bufferFields.map Prod.fst).Nodup := by simp [bufferFields]
  have hcapacity : ("capacity", sh.leaves .capacity) ∈ sh.bufferFields := by simp [bufferFields]
  rw [BufferSettings.decode?_table, h.optional? hnames hcapacity, DescribesBuffer]

theorem decode_producer_iff (h : t.Lists sh.producerFields) {p : ProducerSettings} :
    ProducerSettings.decode? (.table t) = some p ↔ sh.DescribesProducer p := by
  have hnames : (sh.producerFields.map Prod.fst).Nodup := by simp [producerFields]
  have hinterval : ("interval_ms", sh.leaves .interval) ∈ sh.producerFields := by simp [producerFields]
  have hsamples : ("samples", sh.leaves .samples) ∈ sh.producerFields := by simp [producerFields]
  rw [ProducerSettings.decode?_table, h.optional? hnames hinterval, h.optional? hnames hsamples, DescribesProducer]

theorem decode_consumer_iff {place : Nat} (h : t.Lists (sh.consumerFields place)) {c : ConsumerSettings} :
    ConsumerSettings.decode? (.table t) = some c ↔ sh.DescribesConsumer place c := by
  have hnames : ((sh.consumerFields place).map Prod.fst).Nodup := by simp [consumerFields]
  have hname : ("name", sh.leaves (.consumer place .name)) ∈ sh.consumerFields place := by simp [consumerFields]
  have hamount : ("amount", sh.leaves (.consumer place .amount)) ∈ sh.consumerFields place := by simp [consumerFields]
  have hmode : ("mode", sh.leaves (.consumer place .mode)) ∈ sh.consumerFields place := by simp [consumerFields]
  have hexact : ("exact", sh.leaves (.consumer place .exact)) ∈ sh.consumerFields place := by simp [consumerFields]
  have hinterval : ("interval_ms", sh.leaves (.consumer place .intervalMs)) ∈ sh.consumerFields place := by
    simp [consumerFields]
  rw [ConsumerSettings.decode?_table, h.required? hnames hname, h.required? hnames hamount, h.optional? hnames hmode,
    h.optional? hnames hexact, h.required? hnames hinterval, DescribesConsumer]

theorem decode_consumers_iff {consumers : List Entries} (hcount : consumers.length = sh.consumers)
    (h : ∀ (place : Nat) (c : Entries), consumers[place]? = some c → c.Lists (sh.consumerFields place))
    {cs : List ConsumerSettings} :
    ConsumerSettings.decodeAll? (.array (consumers.map .table)) = some cs ↔ sh.DescribesConsumers cs := by
  rw [ConsumerSettings.decodeAll?, Value.items?, Option.bind_eq_bind, Option.bind_some,
    ConsumerSettings.decodeList?_eq_some_iff, List.map_map, DescribesConsumers]
  constructor
  · intro hmap
    refine ⟨?_, fun place c hc => ?_⟩
    · have hlength := congrArg List.length hmap
      rw [List.length_map, List.length_map] at hlength
      exact hlength.symm.trans hcount
    · have hplace := congrArg (·[place]?) hmap
      simp only [List.getElem?_map, hc, Option.map_some, Option.map_eq_some_iff] at hplace
      obtain ⟨e, he, hdecode⟩ := hplace
      exact (decode_consumer_iff (h place e he)).mp hdecode
  · rintro ⟨hlength, hdescribes⟩
    refine List.ext_getElem (by rw [List.length_map, List.length_map, hcount, hlength]) fun place hplace hplace' => ?_
    rw [List.length_map] at hplace hplace'
    rw [List.getElem_map, List.getElem_map]
    exact (decode_consumer_iff (h place _ (List.getElem?_eq_getElem hplace))).mpr
      (hdescribes place _ (List.getElem?_eq_getElem hplace'))

theorem decode_log_iff (h : t.Lists sh.logFields) {l : LogSettings} :
    LogSettings.decode? (.table t) = some l ↔ sh.DescribesLog l := by
  have hnames : (sh.logFields.map Prod.fst).Nodup := by simp [logFields]
  have hlevel : ("level", sh.leaves .level) ∈ sh.logFields := by simp [logFields]
  have hjson : ("json", sh.leaves .json) ∈ sh.logFields := by simp [logFields]
  rw [LogSettings.decode?_table, h.optional? hnames hlevel, h.optional? hnames hjson, DescribesLog]

/-- A part that is given is decoded, and one that is not takes its standard value. -/
theorem elim_partValue {α : Type} (sh : Sheet) (p : Part) (v : Value) (standard : α) (decode : Value → Option α) (x : α) :
    (sh.partValue p v).elim (some standard) decode = some x ↔ if sh.parts p then decode v = some x else x = standard := by
  rw [partValue]
  split
  · rfl
  · exact Option.some_inj.trans eq_comm

theorem decode_parts_iff {buffer producer consumers log : Value} (h : t.Lists (sh.partFields buffer producer consumers log))
    {s : Settings} :
    decode? (.table t) = some s ↔
      (if sh.parts .buffer then BufferSettings.decode? buffer = some s.buffer else s.buffer = standard.buffer) ∧
      (if sh.parts .producer then ProducerSettings.decode? producer = some s.producer else s.producer = standard.producer) ∧
      (if sh.parts .consumers then ConsumerSettings.decodeAll? consumers = some s.consumers
        else s.consumers = standard.consumers) ∧
      (if sh.parts .log then LogSettings.decode? log = some s.log else s.log = standard.log) := by
  have hnames : ((sh.partFields buffer producer consumers log).map Prod.fst).Nodup := by simp [partFields]
  have hbuffer : ("buffer", sh.partValue .buffer buffer) ∈ sh.partFields buffer producer consumers log := by simp [partFields]
  have hproducer : ("producer", sh.partValue .producer producer) ∈ sh.partFields buffer producer consumers log := by
    simp [partFields]
  have hconsumers : ("consumers", sh.partValue .consumers consumers) ∈ sh.partFields buffer producer consumers log := by
    simp [partFields]
  have hlog : ("log", sh.partValue .log log) ∈ sh.partFields buffer producer consumers log := by simp [partFields]
  rw [decode?_table, h.optional? hnames hbuffer, h.optional? hnames hproducer, h.optional? hnames hconsumers,
    h.optional? hnames hlog, elim_partValue, elim_partValue, elim_partValue, elim_partValue]

/-- A document decodes to the settings that its sheet describes, and to no others. -/
theorem WrittenAs.decode?_eq_some_iff {v : Value} (h : sh.WrittenAs v) {s : Settings} :
    decode? v = some s ↔ sh.Describes s := by
  obtain ⟨t, buffer, producer, log, consumers, rfl, hparts, hbuffer, hproducer, hlog, hcount, hconsumers⟩ := h
  rw [decode_parts_iff hparts, decode_buffer_iff hbuffer, decode_producer_iff hproducer,
    decode_consumers_iff hcount hconsumers, decode_log_iff hlog]
  constructor
  · rintro ⟨hb, hp, hc, hl⟩
    exact ⟨hb, hp, hc, hl⟩
  · rintro ⟨hb, hp, hc, hl⟩
    exact ⟨hb, hp, hc, hl⟩

/-- A sheet that describes no settings is not decoded. -/
theorem WrittenAs.decode?_eq_none {v : Value} (h : sh.WrittenAs v) (hnone : ∀ s, ¬sh.Describes s) : decode? v = none :=
  Option.eq_none_iff_forall_ne_some.mpr fun s hs => hnone s (h.decode?_eq_some_iff.mp hs)

end Sheet

/-- What settings write is a document of all that they say. -/
theorem encode_writtenAs (s : Settings) : s.sheet.WrittenAs s.encode := by
  refine ⟨_, [("capacity", .ofWord s.buffer.capacity)],
    [("interval_ms", .ofWord s.producer.intervalMs), ("samples", .ofWord s.producer.samples)],
    [("level", .text s.log.level), ("json", .bool s.log.json)],
    s.consumers.map fun c => [("name", .text c.name), ("amount", .ofWord c.amount), ("mode", .text c.mode.name),
      ("exact", .bool c.exact), ("interval_ms", .ofWord c.intervalMs)], rfl, ?_, ?_, ?_, ?_, ?_, ?_⟩
  · rw [List.map_map]
    exact Entries.Lists.refl rfl
  · exact Entries.Lists.refl rfl
  · exact Entries.Lists.refl rfl
  · exact Entries.Lists.refl rfl
  · rw [List.length_map, sheet_consumers]
  · intro place e he
    rw [List.getElem?_map, Option.map_eq_some_iff] at he
    obtain ⟨c, hc, rfl⟩ := he
    refine Entries.Lists.refl ?_
    simp only [Sheet.consumerFields, sheet_leaves, leafValue?, hc]
    rfl

end Settings

end Lookback
