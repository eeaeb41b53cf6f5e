import Lookback.Settings.Decode

/-!
# The leaves of settings

Settings are a tree of four parts. Three of them are sections with a fixed list of fields, the fourth is the list of consumers, each
with five fields of its own. `Settings.Leaf` names every place that holds a scalar, with the part it belongs to, its key there and the
kind of scalar it takes.

Decoding goes down this tree: settings come of a table exactly if each field of theirs comes of the entry with its key, or from its
standard value where there is none and need not be one (`Settings.decode?_table` and its like for the parts).
-/

namespace Lookback

/-! ## Looking up keys -/

namespace Entries

variable {α : Type} {t t' : Entries} {key : String} {v : Value} {given : Option Value}

theorem mem_of_get? (h : t.get? key = some v) : (key, v) ∈ t := by
  induction t with
  | nil => cases h
  | cons e rest ih =>
    obtain ⟨k, x⟩ := e
    rw [get?] at h
    by_cases hk : k = key
    · rw [if_pos hk] at h
      obtain rfl := Option.some.inj h
      rw [hk]
      exact List.mem_cons_self
    · rw [if_neg hk] at h
      exact List.mem_cons_of_mem _ (ih h)

theorem get?_eq_none_iff : t.get? key = none ↔ ∀ e ∈ t, e.1 ≠ key := by
  induction t with
  | nil => simp
  | cons e rest ih =>
    obtain ⟨k, x⟩ := e
    rw [get?, List.forall_mem_cons, ← ih]
    by_cases hk : k = key <;> simp [hk]

/-- Where every entry of a key has the same value, that is its value. -/
theorem get?_eq_of_mem_iff (h : ∀ v, (key, v) ∈ t ↔ given = some v) : t.get? key = given := by
  cases hget : t.get? key with
  | some v => exact ((h v).mp (mem_of_get? hget)).symm
  | none =>
    cases given with
    | none => rfl
    | some v =>
      have hmem : (key, v) ∈ t := (h v).mpr rfl
      exact absurd rfl (get?_eq_none_iff.mp hget _ hmem)

/-- An entry in front of the others that has the key. -/
theorem get?_append_cons (habsent : t.get? key = none) : (t ++ (key, v) :: t').get? key = some v := by
  induction t with
  | nil => rw [List.nil_append, get?, if_pos rfl]
  | cons e rest ih =>
    obtain ⟨k, x⟩ := e
    rw [get?] at habsent
    by_cases hk : k = key
    · rw [if_pos hk] at habsent
      cases habsent
    · rw [if_neg hk] at habsent
      rw [List.cons_append, get?, if_neg hk, ih habsent]

/-- An entry does not matter to the other keys. -/
theorem get?_append_cons_ne {other : String} (h : other ≠ key) :
    (t ++ (key, v) :: t').get? other = (t ++ t').get? other := by
  induction t with
  | nil => rw [List.nil_append, List.nil_append, get?, if_neg (Ne.symm h)]
  | cons e rest ih =>
    rw [List.cons_append, List.cons_append, get?, get?, ih]

theorem optional?_of_get? (h : t.get? key = given) (standard : α) (decode : Value → Option α) :
    t.optional? key standard decode = given.elim (some standard) decode := by
  rw [optional?, h]
  cases given <;> rfl

theorem optional?_of_absent {standard : α} {decode : Value → Option α} (h : t.get? key = none) :
    t.optional? key standard decode = some standard :=
  optional?_of_get? h standard decode

theorem eq_some_of_given {standard x : α} {decode : Value → Option α} (h : t.optional? key standard decode = some x)
    (hgiven : t.get? key = some v) : decode v = some x :=
  (optional?_of_get? hgiven standard decode).symm.trans h

theorem eq_standard_of_absent {standard x : α} {decode : Value → Option α} (h : t.optional? key standard decode = some x)
    (habsent : t.get? key = none) : x = standard :=
  (Option.some.inj ((optional?_of_absent habsent).symm.trans h)).symm

theorem required?_of_get? (h : t.get? key = given) (decode : Value → Option α) : t.required? key decode = given.bind decode := by
  rw [required?, h]
  cases given <;> rfl

end Entries

/-! ## Decoding field by field -/

section Decoding

variable {t : Entries}

theorem BufferSettings.decode?_table {b : BufferSettings} :
    decode? (.table t) = some b ↔ t.optional? "capacity" standard.capacity Value.word? = some b.capacity := by
  simp only [decode?, Value.entries?, Option.bind_eq_bind, Option.bind_some, Option.bind_eq_some_iff, Option.some.injEq]
  constructor
  · rintro ⟨_, hcapacity, rfl⟩
    exact hcapacity
  · intro hcapacity
    exact ⟨_, hcapacity, rfl⟩

theorem ProducerSettings.decode?_table {p : ProducerSettings} :
    decode? (.table t) = some p ↔ t.optional? "interval_ms" standard.intervalMs Value.word? = some p.intervalMs ∧
      t.optional? "samples" standard.samples Value.word? = some p.samples := by
  simp only [decode?, Value.entries?, Option.bind_eq_bind, Option.bind_some, Option.bind_eq_some_iff, Option.some.injEq]
  constructor
  · rintro ⟨_, hinterval, _, hsamples, rfl⟩
    exact ⟨hinterval, hsamples⟩
  · rintro ⟨hinterval, hsamples⟩
    exact ⟨_, hinterval, _, hsamples, rfl⟩

theorem ConsumerSettings.decode?_table {c : ConsumerSettings} :
    decode? (.table t) = some c ↔ t.required? "name" Value.text? = some c.name ∧
      t.required? "amount" Value.word? = some c.amount ∧ t.optional? "mode" .standard ReadMode.decode? = some c.mode ∧
      t.optional? "exact" false Value.bool? = some c.exact ∧ t.required? "interval_ms" Value.word? = some c.intervalMs := by
  simp only [decode?, Value.entries?, Option.bind_eq_bind, Option.bind_some, Option.bind_eq_some_iff, Option.some.injEq]
  constructor
  · rintro ⟨_, hname, _, hamount, _, hmode, _, hexact, _, hinterval, rfl⟩
    exact ⟨hname, hamount, hmode, hexact, hinterval⟩
  · rintro ⟨hname, hamount, hmode, hexact, hinterval⟩
    exact ⟨_, hname, _, hamount, _, hmode, _, hexact, _, hinterval, rfl⟩

theorem LogSettings.decode?_table {l : LogSettings} :
    decode? (.table t) = some l ↔ t.optional? "level" standard.level Value.text? = some l.level ∧
      t.optional? "json" standard.json Value.bool? = some l.json := by
  simp only [decode?, Value.entries?, Option.bind_eq_bind, Option.bind_some, Option.bind_eq_some_iff, Option.some.injEq]
  constructor
  · rintro ⟨_, hlevel, _, hjson, rfl⟩
    exact ⟨hlevel, hjson⟩
  · rintro ⟨hlevel, hjson⟩
    exact ⟨_, hlevel, _, hjson, rfl⟩

theorem Settings.decode?_table {s : Settings} :
    decode? (.table t) = some s ↔ t.optional? "buffer" standard.buffer BufferSettings.decode? = some s.buffer ∧
      t.optional? "producer" standard.producer ProducerSettings.decode? = some s.producer ∧
      t.optional? "consumers" standard.consumers ConsumerSettings.decodeAll? = some s.consumers ∧
      t.optional? "log" standard.log LogSettings.decode? = some s.log := by
  simp only [decode?, Value.entries?, Option.bind_eq_bind, Option.bind_some, Option.bind_eq_some_iff, Option.some.injEq]
  constructor
  · rintro ⟨_, hbuffer, _, hproducer, _, hconsumers, _, hlog, rfl⟩
    exact ⟨hbuffer, hproducer, hconsumers, hlog⟩
  · rintro ⟨hbuffer, hproducer, hconsumers, hlog⟩
    exact ⟨_, hbuffer, _, hproducer, _, hconsumers, _, hlog, rfl⟩

/-- Consumers come of an array exactly if each comes of its item. -/
theorem ConsumerSettings.decodeList?_eq_some_iff {items : List Value} {cs : List ConsumerSettings} :
    decodeList? items = some cs ↔ items.map decode? = cs.map some := by
  induction items generalizing cs with
  | nil => cases cs <;> simp [decodeList?]
  | cons v rest ih =>
    cases cs with
    | nil => simp [decodeList?, Option.bind_eq_some_iff]
    | cons c cs => simp [decodeList?, Option.bind_eq_some_iff, ih]

end Decoding

namespace Settings

/-! ## Places -/

/-- The parts of settings. -/
inductive Part where
  | buffer | producer | consumers | log
  deriving DecidableEq, Repr

/-- The key of a part. -/
def Part.key : Part → String
  | buffer => "buffer"
  | producer => "producer"
  | consumers => "consumers"
  | log => "log"

/-- The fields of a consumer. -/
inductive ConsumerField where
  | name | amount | mode | exact | intervalMs
  deriving DecidableEq, Repr

/-- The places of settings that hold a scalar. -/
inductive Leaf where
  | capacity | interval | samples | level | json
  | consumer (place : Nat) (field : ConsumerField)
  deriving DecidableEq, Repr

/-- The kinds of scalars. -/
inductive Kind where
  | word | text | flag | mode
  deriving DecidableEq, Repr

/-- The key of a field of a consumer. -/
def ConsumerField.key : ConsumerField → String
  | name => "name"
  | amount => "amount"
  | mode => "mode"
  | exact => "exact"
  | intervalMs => "interval_ms"

/-- Whether a consumer need not be given a field. -/
def ConsumerField.isOptional : ConsumerField → Bool
  | mode | exact => true
  | name | amount | intervalMs => false

/-- What a field of a consumer takes. -/
def ConsumerField.kind : ConsumerField → Kind
  | name => .text
  | amount | intervalMs => .word
  | mode => .mode
  | exact => .flag

namespace Leaf

/-- The part that a place belongs to. -/
def part : Leaf → Part
  | capacity => .buffer
  | interval | samples => .producer
  | level | json => .log
  | consumer _ _ => .consumers

/-- The key of a place in its section, or in its consumer. -/
def key : Leaf → String
  | capacity => "capacity"
  | interval => "interval_ms"
  | samples => "samples"
  | level => "level"
  | json => "json"
  | consumer _ field => field.key

/-- What a place takes. -/
def kind : Leaf → Kind
  | capacity | interval | samples => .word
  | level => .text
  | json => .flag
  | consumer _ field => field.kind

/-- Whether a place need not be given. -/
def isOptional : Leaf → Bool
  | consumer _ field => field.isOptional
  | _ => true

end Leaf

/-- The value that a field of a consumer is written with. -/
def fieldValue (c : ConsumerSettings) : ConsumerField → Value
  | .name => .text c.name
  | .amount => .ofWord c.amount
  | .mode => .text c.mode.name
  | .exact => .bool c.exact
  | .intervalMs => .ofWord c.intervalMs

/-- The value that a place is written with; one of a consumer that is not there has none. -/
def leafValue? (s : Settings) : Leaf → Option Value
  | .capacity => some (.ofWord s.buffer.capacity)
  | .interval => some (.ofWord s.producer.intervalMs)
  | .samples => some (.ofWord s.producer.samples)
  | .level => some (.text s.log.level)
  | .json => some (.bool s.log.json)
  | .consumer place field => s.consumers[place]?.map (fieldValue · field)

/-! ## Scalars that a place does not take -/

/-- Values that a place does not take: null, a scalar of another type, a number that is negative, a fraction or too large for a
word, and a text that names no mode. -/
inductive Misfit : Kind → Value → Prop where
  | null (k : Kind) : Misfit k .null
  | flag {k : Kind} (hkind : k ≠ .flag) (b : Bool) : Misfit k (.bool b)
  | number {k : Kind} (hkind : k ≠ .word) (n : Int) : Misfit k (.integer n)
  | fraction (k : Kind) (x : Float) : Misfit k (.double x)
  | text {k : Kind} (htext : k ≠ .text) (hmode : k ≠ .mode) (s : String) : Misfit k (.text s)
  | negative {n : Int} (hnegative : n < 0) : Misfit .word (.integer n)
  | tooLarge {n : Int} (hlarge : lastWord < n) : Misfit .word (.integer n)
  | unknownMode {s : String} (hunknown : ∀ m : ReadMode, s ≠ m.name) : Misfit .mode (.text s)

theorem Misfit.word? {v : Value} (h : Misfit .word v) : v.word? = none := by
  cases h with
  | negative hnegative => exact if_neg fun hword => absurd hword.1 (by omega)
  | tooLarge hlarge => exact if_neg fun hword => absurd hword.2 (by omega)
  | number hkind => exact absurd rfl hkind
  | null | flag | fraction | text => rfl

theorem Misfit.text? {v : Value} (h : Misfit .text v) : v.text? = none := by
  cases h with
  | text htext => exact absurd rfl htext
  | null | flag | number | fraction => rfl

theorem Misfit.bool? {v : Value} (h : Misfit .flag v) : v.bool? = none := by
  cases h with
  | flag hkind => exact absurd rfl hkind
  | null | number | fraction | text => rfl

theorem Misfit.mode? {v : Value} (h : Misfit .mode v) : ReadMode.decode? v = none := by
  cases h with
  | text _ hmode => exact absurd rfl hmode
  | unknownMode hunknown => exact (if_neg (hunknown .windowed)).trans (if_neg (hunknown .continuous))
  | null | flag | number | fraction => rfl

/-! ## Reading back what was written -/

theorem word?_ofWord (w : UInt64) : (Value.ofWord w).word? = some w := by
  have hfit : 0 ≤ (w.toNat : Int) ∧ (w.toNat : Int) ≤ lastWord := by
    have hlt : w.toNat ≤ lastWord := Nat.le_of_lt_succ w.toNat_lt
    omega
  simp [Value.ofWord, Value.word?, hfit]

theorem text?_text (text : String) : (Value.text text).text? = some text := rfl

theorem bool?_bool (b : Bool) : (Value.bool b).bool? = some b := rfl

theorem mode?_name (m : ReadMode) : ReadMode.decode? (.text m.name) = some m := by
  cases m <;> rfl

end Settings

end Lookback
