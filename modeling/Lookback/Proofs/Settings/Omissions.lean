import Lookback.Proofs.Settings.Sheets

/-!
# Places left out

Settings that are written with places left out decode to the settings with standard values there, as long as no place is left out that
must be given. What stands for a place depends on how much is left out: a section that is given takes the standard values of the
section for its fields, and one that is left out is that of the standard settings as a whole.
-/

namespace Lookback

namespace Settings

/-- A standard value where a place is left out. -/
def standardIf {α : Type} (left : Bool) (standard given : α) : α := if left then standard else given

/-- A consumer with standard values at the places left out. -/
def standardConsumer (o : Omission) (place : Nat) (c : ConsumerSettings) : ConsumerSettings where
  name := c.name
  amount := c.amount
  mode := standardIf (o.leaves (.consumer place .mode)) ReadMode.standard c.mode
  exact := standardIf (o.leaves (.consumer place .exact)) false c.exact
  intervalMs := c.intervalMs

/-- Settings with standard values at the places left out: those of the section where it is given, and those of the settings as a
whole where it is not. -/
def standardAt (s : Settings) (o : Omission) : Settings where
  buffer := standardIf (o.parts .buffer) standard.buffer
    ⟨standardIf (o.leaves .capacity) BufferSettings.standard.capacity s.buffer.capacity⟩
  producer := standardIf (o.parts .producer) standard.producer
    ⟨standardIf (o.leaves .interval) ProducerSettings.standard.intervalMs s.producer.intervalMs,
      standardIf (o.leaves .samples) ProducerSettings.standard.samples s.producer.samples⟩
  consumers := standardIf (o.parts .consumers) standard.consumers (s.consumers.mapIdx (standardConsumer o))
  log := standardIf (o.parts .log) standard.log
    ⟨standardIf (o.leaves .level) LogSettings.standard.level s.log.level,
      standardIf (o.leaves .json) LogSettings.standard.json s.log.json⟩

theorem standardAt_none (s : Settings) : s.standardAt .none = s := by
  have hconsumers : s.consumers.mapIdx (standardConsumer .none) = s.consumers := by
    refine List.mapIdx_eq_iff.mpr fun place => ?_
    cases s.consumers[place]? <;> rfl
  rw [standardAt, hconsumers]
  rfl

namespace Sheet

/-! ## What is described with places left out -/

section Described

variable {α : Type} {s : Settings} {o : Omission} {l : Leaf} {v : Value} {x : α} {decode : Value → Option α}

/-- A place that need not be given has its value, or the standard one where it is left out. -/
theorem elim_without (hgiven : s.leafValue? l = some v) (hdecode : decode v = some x) (standard : α) :
    ((s.sheet.without o).leaves l).elim (some standard) decode = some (standardIf (o.leaves l) standard x) := by
  rw [without_leaves, sheet_leaves, hgiven, standardIf]
  split
  · rfl
  · exact hdecode

/-- A place that must be given has its value. -/
theorem bind_without (hleft : o.leaves l = false) (hgiven : s.leafValue? l = some v) (hdecode : decode v = some x) :
    ((s.sheet.without o).leaves l).bind decode = some x := by
  rw [without_leaves, sheet_leaves, hgiven, hleft]
  exact hdecode

/-- A part is described where it is given, and the standard one where it is left out. -/
theorem described_part {p : Part} (Described : α → Prop) {given standard : α} (h : Described given) :
    if (s.sheet.without o).parts p then Described (standardIf (o.parts p) standard given)
    else standardIf (o.parts p) standard given = standard := by
  rw [without_parts, sheet_parts, standardIf]
  cases o.parts p with
  | false => exact h
  | true => rfl

theorem describesConsumer_standardConsumer (hoptional : ∀ l, o.leaves l = true → l.isOptional = true) {place : Nat}
    {c : ConsumerSettings} (hc : s.consumers[place]? = some c) :
    (s.sheet.without o).DescribesConsumer place (standardConsumer o place c) := by
  have hgiven (field : ConsumerField) : s.leafValue? (.consumer place field) = some (fieldValue c field) := by
    rw [leafValue?, hc]
    rfl
  have hkept {field : ConsumerField} (hrequired : field.isOptional = false) : o.leaves (.consumer place field) = false := by
    cases hleft : o.leaves (.consumer place field) with
    | false => rfl
    | true => exact (hoptional _ hleft).symm.trans hrequired
  exact ⟨bind_without (hkept rfl) (hgiven .name) (text?_text _), bind_without (hkept rfl) (hgiven .amount) (word?_ofWord _),
    elim_without (hgiven .mode) (mode?_name _) _, elim_without (hgiven .exact) (bool?_bool _) _,
    bind_without (hkept rfl) (hgiven .intervalMs) (word?_ofWord _)⟩

/-- With places left out that need not be given, settings are described with standard values there. -/
theorem describes_standardAt (hoptional : ∀ l, o.leaves l = true → l.isOptional = true) :
    (s.sheet.without o).Describes (s.standardAt o) where
  buffer := described_part (s.sheet.without o).DescribesBuffer (elim_without (l := .capacity) rfl (word?_ofWord _) _)
  producer := described_part (s.sheet.without o).DescribesProducer
    ⟨elim_without (l := .interval) rfl (word?_ofWord _) _, elim_without (l := .samples) rfl (word?_ofWord _) _⟩
  consumers := by
    refine described_part (s.sheet.without o).DescribesConsumers ⟨List.length_mapIdx, fun place c hc => ?_⟩
    rw [List.getElem?_mapIdx, Option.map_eq_some_iff] at hc
    obtain ⟨c, hc, rfl⟩ := hc
    exact describesConsumer_standardConsumer hoptional hc
  log := described_part (s.sheet.without o).DescribesLog
    ⟨elim_without (l := .level) rfl (text?_text _) _, elim_without (l := .json) rfl (bool?_bool _) _⟩

/-- With no place left out, settings are described as they are. -/
theorem describes_sheet (s : Settings) : s.sheet.Describes s := by
  have h : (s.sheet.without .none).Describes (s.standardAt .none) := describes_standardAt fun l hleft => absurd hleft Bool.false_ne_true
  rwa [without_none, standardAt_none] at h

end Described

/-! ## What is not described -/

section NotDescribed

variable {sh : Sheet} {s : Settings} {place : Nat}

/-- A consumer that is given is described. -/
theorem Describes.consumer (h : sh.Describes s) (hpart : sh.parts .consumers = true) (hplace : place < sh.consumers) :
    ∃ c, sh.DescribesConsumer place c := by
  obtain ⟨hcount, hconsumer⟩ : sh.DescribesConsumers s.consumers := (if_pos hpart).mp h.consumers
  exact ⟨s.consumers[place], hconsumer place _ (List.getElem?_eq_getElem (hcount ▸ hplace))⟩

/-- No consumer lacks a field that must be given. -/
theorem DescribesConsumer.required {c : ConsumerSettings} (h : sh.DescribesConsumer place c) {field : ConsumerField}
    (hrequired : field.isOptional = false) : sh.leaves (.consumer place field) ≠ none := by
  intro hnone
  obtain ⟨hname, hamount, -, -, hinterval⟩ := h
  cases field with
  | name => rw [hnone] at hname; cases hname
  | amount => rw [hnone] at hamount; cases hamount
  | intervalMs => rw [hnone] at hinterval; cases hinterval
  | mode | exact => cases hrequired

/-- No field of a consumer has a value that it does not take. -/
theorem DescribesConsumer.not_misfit {c : ConsumerSettings} (h : sh.DescribesConsumer place c) {field : ConsumerField}
    {x : Value} (hgiven : sh.leaves (.consumer place field) = some x) : ¬Misfit field.kind x := by
  intro hmisfit
  obtain ⟨hname, hamount, hmode, hexact, hinterval⟩ := h
  cases field with
  | name => rw [hgiven, Option.bind_some, hmisfit.text?] at hname; cases hname
  | amount => rw [hgiven, Option.bind_some, hmisfit.word?] at hamount; cases hamount
  | mode => rw [hgiven, Option.elim_some, hmisfit.mode?] at hmode; cases hmode
  | exact => rw [hgiven, Option.elim_some, hmisfit.bool?] at hexact; cases hexact
  | intervalMs => rw [hgiven, Option.bind_some, hmisfit.word?] at hinterval; cases hinterval

/-- No place in a part that is given has a value that it does not take. -/
theorem Describes.not_misfit (h : sh.Describes s) {l : Leaf} {x : Value} (hpart : sh.parts l.part = true)
    (hplace : ∀ place field, l = .consumer place field → place < sh.consumers) (hgiven : sh.leaves l = some x) :
    ¬Misfit l.kind x := by
  intro hmisfit
  cases l with
  | capacity =>
    have hcapacity : sh.DescribesBuffer s.buffer := (if_pos hpart).mp h.buffer
    rw [DescribesBuffer, hgiven, Option.elim_some, hmisfit.word?] at hcapacity
    cases hcapacity
  | interval =>
    obtain ⟨hinterval, -⟩ : sh.DescribesProducer s.producer := (if_pos hpart).mp h.producer
    rw [hgiven, Option.elim_some, hmisfit.word?] at hinterval
    cases hinterval
  | samples =>
    obtain ⟨-, hsamples⟩ : sh.DescribesProducer s.producer := (if_pos hpart).mp h.producer
    rw [hgiven, Option.elim_some, hmisfit.word?] at hsamples
    cases hsamples
  | level =>
    obtain ⟨hlevel, -⟩ : sh.DescribesLog s.log := (if_pos hpart).mp h.log
    rw [hgiven, Option.elim_some, hmisfit.text?] at hlevel
    cases hlevel
  | json =>
    obtain ⟨-, hjson⟩ : sh.DescribesLog s.log := (if_pos hpart).mp h.log
    rw [hgiven, Option.elim_some, hmisfit.bool?] at hjson
    cases hjson
  | consumer place field =>
    obtain ⟨c, hc⟩ := h.consumer hpart (hplace place field rfl)
    exact hc.not_misfit hgiven hmisfit

end NotDescribed

end Sheet

/-- A consumer has its places in settings exactly if it is there. -/
theorem leafValue?_consumer {s : Settings} {place : Nat} {field : ConsumerField}
    (h : (s.leafValue? (.consumer place field)).isSome = true) : place < s.consumers.length := by
  rw [leafValue?, Option.isSome_map, isSome_getElem?] at h
  exact h

/-- Settings decode what they describe. -/
theorem decodes_what_is_described (s : Settings) :
    (s.sheet.WrittenAs s.encode ∧ decode? s.encode = some s) ∧
    (∀ v, s.sheet.WrittenAs v → decode? v = some s) ∧
    (∀ (o : Omission) (v : Value), (∀ l, o.leaves l = true → l.isOptional = true) → (s.sheet.without o).WrittenAs v →
      decode? v = some (s.standardAt o)) ∧
    (∀ (o : Omission) (place : Nat) (field : ConsumerField) (v : Value), o.parts .consumers = false →
      place < s.consumers.length → field.isOptional = false → o.leaves (.consumer place field) = true →
      (s.sheet.without o).WrittenAs v → decode? v = none) ∧
    (∀ (o : Omission) (l : Leaf) (x v : Value), o.parts l.part = false → (s.leafValue? l).isSome = true →
      Misfit l.kind x → ((s.sheet.without o).replace l x).WrittenAs v → decode? v = none) := by
  have hall : ∀ v, s.sheet.WrittenAs v → decode? v = some s := fun v h => h.decode?_eq_some_iff.mpr (Sheet.describes_sheet s)
  refine ⟨⟨s.encode_writtenAs, hall _ s.encode_writtenAs⟩, hall, ?_, ?_, ?_⟩
  · intro o v hoptional h
    exact h.decode?_eq_some_iff.mpr (Sheet.describes_standardAt hoptional)
  · intro o place field v hpart hplace hrequired hleft h
    refine h.decode?_eq_none fun s' hs' => ?_
    obtain ⟨c, hc⟩ := hs'.consumer (by simp [hpart]) hplace
    exact hc.required hrequired (by simp [hleft])
  · intro o l x v hpart hsome hmisfit h
    refine h.decode?_eq_none fun s' hs' => hs'.not_misfit (by simp [hpart]) ?_ (Sheet.replace_leaves_self _ _ _) hmisfit
    rintro place field rfl
    exact leafValue?_consumer hsome

/-! Two consumers, and documents of theirs that are written backwards, with fields of other names. -/

/-- Two consumers of a small history. -/
def pair : Settings where
  buffer := ⟨32⟩
  producer := ⟨5, 40⟩
  consumers := [⟨"left", 4, .continuous, true, 10⟩, ⟨"right", 2, .windowed, false, 20⟩]
  log := ⟨"debug", true⟩

/-- The second consumer. -/
def pairRight : Entries :=
  [("spare", .null), ("interval_ms", .integer 20), ("exact", .bool false), ("mode", .text "windowed"), ("amount", .integer 2),
    ("name", .text "right")]

/-- A document of two consumers, without the log, and with these entries for the history and the first consumer. -/
def pairDocument (buffer left : Entries) : Value :=
  .table [("spare", .null), ("consumers", .array ([left, pairRight].map .table)),
    ("producer", .table [("samples", .integer 40), ("interval_ms", .integer 5)]), ("buffer", .table buffer)]

/-- Leaves that are left out together with the log. -/
def pairOmission (leaves : List Leaf) : Omission := ⟨(· = .log), (· ∈ leaves)⟩

theorem lists_backwards {t : Entries} {fields : List (String × Option Value)} (unknown : Entries)
    (hunknown : ∀ e ∈ unknown, e.1 ∉ fields.map Prod.fst)
    (h : t = ((fields.filterMap fun f => f.2.map (f.1, ·)) ++ unknown).reverse) : t.Lists fields :=
  ⟨unknown, hunknown, h ▸ List.reverse_perm _⟩

theorem pairDocument_writtenAs {sh : Sheet} {buffer left : Entries} (hparts : ∀ p, sh.parts p = !decide (p = .log))
    (hcount : sh.consumers = 2)
    (hkept : ∀ l, l ≠ .capacity → (∀ field, l ≠ .consumer 0 field) → sh.leaves l = pair.leafValue? l)
    (hbuffer : buffer.Lists sh.bufferFields) (hleft : left.Lists (sh.consumerFields 0)) :
    sh.WrittenAs (pairDocument buffer left) := by
  refine ⟨_, buffer, [("samples", .integer 40), ("interval_ms", .integer 5)], [("json", .bool true), ("level", .text "debug")],
    [left, pairRight], rfl, lists_backwards [("spare", .null)] ?_ ?_, hbuffer, lists_backwards [] ?_ ?_,
    lists_backwards [] ?_ ?_, hcount.symm, fun place c hc => ?_⟩
  · simp [Sheet.partFields]
  · simp [Sheet.partFields, Sheet.partValue, hparts]
  · simp
  · rw [Sheet.producerFields, hkept .interval (by simp) (by simp), hkept .samples (by simp) (by simp)]
    rfl
  · simp
  · rw [Sheet.logFields, hkept .level (by simp) (by simp), hkept .json (by simp) (by simp)]
    rfl
  · rcases place with _ | _ | place
    · exact Option.some.inj hc ▸ hleft
    · refine Option.some.inj hc ▸ lists_backwards [("spare", .null)] ?_ ?_
      · simp [Sheet.consumerFields]
      · simp only [Sheet.consumerFields, hkept (.consumer 1 _) (by simp) (by simp)]
        rfl
    · cases hc

theorem pairDocument_decoded :
    decode? (pairDocument [("spare", .bool true)] [("interval_ms", .integer 10), ("exact", .bool true),
      ("amount", .integer 4), ("name", .text "left")]) = some { pair with
        buffer := ⟨3000⟩
        consumers := [⟨"left", 4, .windowed, true, 10⟩, ⟨"right", 2, .windowed, false, 20⟩]
        log := ⟨"info", false⟩ } ∧
    decode? (pairDocument [("capacity", .integer 32)] [("interval_ms", .integer 10), ("exact", .bool true),
      ("mode", .text "continuous"), ("amount", .integer 4)]) = none ∧
    decode? (pairDocument [("capacity", .integer (-1))] [("interval_ms", .integer 10), ("exact", .bool true),
      ("mode", .text "continuous"), ("amount", .integer 4), ("name", .text "left")]) = none := by
  obtain ⟨-, -, hoptional, hrequired, hmisfit⟩ := decodes_what_is_described pair
  have hparts (leaves : List Leaf) (p : Part) : (pair.sheet.without (pairOmission leaves)).parts p = !decide (p = .log) := rfl
  refine ⟨hoptional (pairOmission [.capacity, .consumer 0 .mode]) _ ?_ ?_,
    hrequired (pairOmission [.consumer 0 .name]) 0 .name _ rfl (by decide) rfl rfl ?_,
    hmisfit (pairOmission []) .capacity (.integer (-1)) _ rfl rfl (.negative (by decide)) ?_⟩
  · simp [pairOmission, Leaf.isOptional, ConsumerField.isOptional]
  · refine pairDocument_writtenAs (hparts _) rfl (fun l hl hl' => ?_) (lists_backwards [("spare", .bool true)] ?_ rfl)
      (lists_backwards [] ?_ rfl)
    · simp [pairOmission, hl, hl']
    · simp [Sheet.bufferFields]
    · simp
  · refine pairDocument_writtenAs (hparts _) rfl (fun l hl hl' => ?_) (lists_backwards [] ?_ rfl) (lists_backwards [] ?_ rfl)
    · simp [pairOmission, hl']
    · simp
    · simp
  · refine pairDocument_writtenAs (hparts []) rfl (fun l hl hl' => ?_) (lists_backwards [] ?_ rfl) (lists_backwards [] ?_ rfl)
    · simp [pairOmission, Sheet.replace, hl]
    · simp
    · simp

end Settings

end Lookback
