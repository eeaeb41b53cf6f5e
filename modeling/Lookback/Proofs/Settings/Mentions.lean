import Lookback.Proofs.Settings.Leaves

/-!
# Sections with nothing in them

A section that is given, but says nothing, is not the same as one that is left out. The producer and the log have the same standard
values both ways; the history has not: settings as a whole have a small history for their standard, and a history by itself has a large
one. So a section for the history with no capacity in it changes settings that had none (`Settings.empty_section_kept_false`), while
no other section does (`Settings.empty_section_decoded`).
-/

namespace Lookback

namespace Entries

variable {α : Type} {t t' : Entries} {key : String} {v : Value} {standard : α} {decode : Value → Option α}

theorem optional?_append_cons_ne {other : String} (h : other ≠ key) :
    (t ++ (key, v) :: t').optional? other standard decode = (t ++ t').optional? other standard decode := by
  rw [optional?, optional?, get?_append_cons_ne h]

theorem optional?_append_cons (hlacks : (t ++ t').get? key = none) :
    (t ++ (key, v) :: t').optional? key standard decode = decode v := by
  have habsent : t.get? key = none :=
    get?_eq_none_iff.mpr fun e he => get?_eq_none_iff.mp hlacks e (List.mem_append_left t' he)
  exact optional?_of_get? (get?_append_cons habsent) standard decode

/-- A field that is given its standard value is as if it were not given. -/
theorem optional?_append_cons_standard (hlacks : (t ++ t').get? key = none) (hstandard : decode v = some standard) :
    (t ++ (key, v) :: t').optional? key standard decode = (t ++ t').optional? key standard decode := by
  rw [optional?_append_cons hlacks, optional?_of_absent hlacks, hstandard]

theorem get?_of_unlisted {names : List String} (h : ∀ e ∈ t, e.1 ∉ names) (hkey : key ∈ names) : t.get? key = none :=
  get?_eq_none_iff.mpr fun e he heq => h e he (heq ▸ hkey)

end Entries

namespace Settings

/-- The names of the fields that a section knows. -/
def Part.fields : Part → List String
  | buffer => ["capacity"]
  | producer => ["interval_ms", "samples"]
  | consumers => []
  | log => ["level", "json"]

/-- What a document gives for a place of a section. -/
def given? (v : Value) (l : Leaf) : Option Value := (v.get? l.part.key).bind (·.get? l.key)

/-! ## What an empty section decodes to -/

section EmptySections

variable {t t' u : Entries} {s : Settings}

theorem decode_empty_buffer (h : ∀ e ∈ u, e.1 ∉ Part.buffer.fields) :
    BufferSettings.decode? (.table u) = some BufferSettings.standard :=
  BufferSettings.decode?_table.mpr (Entries.optional?_of_absent (Entries.get?_of_unlisted h (by decide)))

theorem decode_empty_producer (h : ∀ e ∈ u, e.1 ∉ Part.producer.fields) :
    ProducerSettings.decode? (.table u) = some standard.producer :=
  ProducerSettings.decode?_table.mpr ⟨Entries.optional?_of_absent (Entries.get?_of_unlisted h (by decide)),
    Entries.optional?_of_absent (Entries.get?_of_unlisted h (by decide))⟩

theorem decode_empty_log (h : ∀ e ∈ u, e.1 ∉ Part.log.fields) :
    LogSettings.decode? (.table u) = some standard.log :=
  LogSettings.decode?_table.mpr ⟨Entries.optional?_of_absent (Entries.get?_of_unlisted h (by decide)),
    Entries.optional?_of_absent (Entries.get?_of_unlisted h (by decide))⟩

/-- A section for the history takes the place of the small one. -/
theorem decode_with_empty_buffer (hlacks : (t ++ t').get? "buffer" = none) (hempty : ∀ e ∈ u, e.1 ∉ Part.buffer.fields)
    (hs : decode? (.table (t ++ t')) = some s) :
    decode? (.table (t ++ ("buffer", .table u) :: t')) = some { s with buffer := ⟨3000⟩ } ∧ s.buffer.capacity = 64 := by
  obtain ⟨hbuffer, hproducer, hconsumers, hlog⟩ := decode?_table.mp hs
  rw [Entries.optional?_of_absent hlacks] at hbuffer
  refine ⟨decode?_table.mpr ⟨?_, ?_, ?_, ?_⟩, by rw [← Option.some.inj hbuffer]; rfl⟩
  · rw [Entries.optional?_append_cons hlacks, decode_empty_buffer hempty]
    rfl
  · rw [Entries.optional?_append_cons_ne (by decide), hproducer]
  · rw [Entries.optional?_append_cons_ne (by decide), hconsumers]
  · rw [Entries.optional?_append_cons_ne (by decide), hlog]

/-- A section for the producer says what its absence says. -/
theorem decode_with_empty_producer (hlacks : (t ++ t').get? "producer" = none) (hempty : ∀ e ∈ u, e.1 ∉ Part.producer.fields)
    (hs : decode? (.table (t ++ t')) = some s) : decode? (.table (t ++ ("producer", .table u) :: t')) = some s := by
  rw [decode?_table, Entries.optional?_append_cons_ne (by decide),
    Entries.optional?_append_cons_standard hlacks (decode_empty_producer hempty), Entries.optional?_append_cons_ne (by decide),
    Entries.optional?_append_cons_ne (by decide), ← decode?_table]
  exact hs

/-- A section for the log says what its absence says. -/
theorem decode_with_empty_log (hlacks : (t ++ t').get? "log" = none) (hempty : ∀ e ∈ u, e.1 ∉ Part.log.fields)
    (hs : decode? (.table (t ++ t')) = some s) : decode? (.table (t ++ ("log", .table u) :: t')) = some s := by
  rw [decode?_table, Entries.optional?_append_cons_ne (by decide), Entries.optional?_append_cons_ne (by decide),
    Entries.optional?_append_cons_ne (by decide), Entries.optional?_append_cons_standard hlacks (decode_empty_log hempty),
    ← decode?_table]
  exact hs

end EmptySections

/-! ## Leaves that are not given -/

section NotGiven

variable {v : Value} {t : Entries} {s : Settings}

/-- What is decoded field by field is a table. -/
theorem exists_table {α : Type} {fields : Entries → Option α} {x : α} (h : v.entries? >>= fields = some x) : ∃ t, v = .table t := by
  cases v with
  | table t => exact ⟨t, rfl⟩
  | null | bool | integer | double | text | array => cases h

theorem capacity_of_lacking {b : BufferSettings} (h : BufferSettings.decode? v = some b) (hlacks : v.get? "capacity" = none) :
    b.capacity = 3000 := by
  obtain ⟨u, rfl⟩ := exists_table h
  exact Entries.eq_standard_of_absent (BufferSettings.decode?_table.mp h) hlacks

theorem interval_of_lacking {p : ProducerSettings} (h : ProducerSettings.decode? v = some p)
    (hlacks : v.get? "interval_ms" = none) : p.intervalMs = standard.producer.intervalMs := by
  obtain ⟨u, rfl⟩ := exists_table h
  exact Entries.eq_standard_of_absent (ProducerSettings.decode?_table.mp h).1 hlacks

theorem samples_of_lacking {p : ProducerSettings} (h : ProducerSettings.decode? v = some p) (hlacks : v.get? "samples" = none) :
    p.samples = standard.producer.samples := by
  obtain ⟨u, rfl⟩ := exists_table h
  exact Entries.eq_standard_of_absent (ProducerSettings.decode?_table.mp h).2 hlacks

theorem level_of_lacking {l : LogSettings} (h : LogSettings.decode? v = some l) (hlacks : v.get? "level" = none) :
    l.level = standard.log.level := by
  obtain ⟨u, rfl⟩ := exists_table h
  exact Entries.eq_standard_of_absent (LogSettings.decode?_table.mp h).1 hlacks

theorem json_of_lacking {l : LogSettings} (h : LogSettings.decode? v = some l) (hlacks : v.get? "json" = none) :
    l.json = standard.log.json := by
  obtain ⟨u, rfl⟩ := exists_table h
  exact Entries.eq_standard_of_absent (LogSettings.decode?_table.mp h).2 hlacks

/-- A field that a document does not give has the standard value of its section where that is given, and of the standard settings
where it is not. -/
theorem field_not_given {α β : Type} {part key : String} {standard x : α} {decode : Value → Option α} (field : α → β) {own : β}
    (hpart : t.optional? part standard decode = some x) (hnot : (t.get? part).bind (·.get? key) = none)
    (hown : ∀ v x, decode v = some x → v.get? key = none → field x = own) :
    field x = if (t.get? part).isSome then own else field standard := by
  cases hget : t.get? part with
  | none => exact congrArg field (Entries.eq_standard_of_absent hpart hget)
  | some v =>
    rw [hget] at hnot
    exact hown v x (Entries.eq_some_of_given hpart hget) hnot

/-- A place of a section that a document does not give has the standard value, unless it is the capacity of a section that is there. -/
theorem leaf_not_given {l : Leaf} (hsection : l.part ≠ .consumers) (hs : decode? v = some s) (hnot : given? v l = none) :
    s.leafValue? l = if l = .capacity ∧ (v.get? "buffer").isSome then some (.ofWord 3000) else standard.leafValue? l := by
  obtain ⟨t, rfl⟩ := exists_table hs
  obtain ⟨hbuffer, hproducer, -, hlog⟩ := decode?_table.mp hs
  cases l with
  | capacity =>
    have hcapacity := field_not_given (·.capacity) hbuffer hnot fun _ _ => capacity_of_lacking
    rw [leafValue?, hcapacity, Value.get?]
    by_cases hgiven : (Entries.get? "buffer" t).isSome = true
    · rw [if_pos hgiven, if_pos ⟨rfl, hgiven⟩]
    · rw [if_neg hgiven, if_neg fun h => hgiven h.2]
      rfl
  | interval =>
    have hinterval := field_not_given (·.intervalMs) hproducer hnot fun _ _ => interval_of_lacking
    rw [leafValue?, hinterval, ite_self]
    rfl
  | samples =>
    have hsamples := field_not_given (·.samples) hproducer hnot fun _ _ => samples_of_lacking
    rw [leafValue?, hsamples, ite_self]
    rfl
  | level =>
    have hlevel := field_not_given (·.level) hlog hnot fun _ _ => level_of_lacking
    rw [leafValue?, hlevel, ite_self]
    rfl
  | json =>
    have hjson := field_not_given (·.json) hlog hnot fun _ _ => json_of_lacking
    rw [leafValue?, hjson, ite_self]
    rfl
  | consumer place field => exact absurd rfl hsection

end NotGiven

/-! ## Mentioning a section -/

/-- A section with nothing in it changes nothing, unless it is that of the history, which then is a large one and no more the small
one of the standard settings. So a place that is not given has its standard value, unless it is the capacity in such a section. -/
theorem empty_section_decoded :
    (∀ (t t' u : Entries) (p : Part) (s : Settings), p ≠ .consumers → (t ++ t').get? p.key = none →
      (∀ e ∈ u, e.1 ∉ p.fields) → decode? (.table (t ++ t')) = some s →
      (p = .buffer → s.buffer.capacity = 64) ∧
      decode? (.table (t ++ (p.key, .table u) :: t')) = some (if p = .buffer then { s with buffer := ⟨3000⟩ } else s)) ∧
    (∀ (v : Value) (s : Settings) (l : Leaf), l.part ≠ .consumers → decode? v = some s → given? v l = none →
      s.leafValue? l = if l = .capacity ∧ (v.get? "buffer").isSome then some (.ofWord 3000) else standard.leafValue? l) := by
  refine ⟨?_, fun v s l => leaf_not_given⟩
  intro t t' u p s hsection hlacks hempty hs
  cases p with
  | buffer =>
    obtain ⟨hlarge, hsmall⟩ := decode_with_empty_buffer hlacks hempty hs
    exact ⟨fun _ => hsmall, hlarge⟩
  | producer => exact ⟨nofun, decode_with_empty_producer hlacks hempty hs⟩
  | consumers => exact absurd rfl hsection
  | log => exact ⟨nofun, decode_with_empty_log hlacks hempty hs⟩

/-- A section for the history with a misspelt capacity, and none for the producer: the history is a large one, the producer the
standard one. -/
theorem misspelt_capacity_decoded :
    decode? (.table [("log", .table []), ("buffer", .table [("capcity", .integer 8)])]) =
      some { standard with buffer := ⟨3000⟩ } ∧
    standard.leafValue? .interval = some (.ofWord 20) := by
  obtain ⟨hmention, hleaf⟩ := empty_section_decoded
  have hlog : decode? (.table [("log", .table [])]) = some standard := (hmention [] [] [] .log standard (by decide) rfl (by simp) rfl).2
  exact ⟨(hmention [("log", .table [])] [] [("capcity", .integer 8)] .buffer standard (by decide) rfl (by simp [Part.fields]) hlog).2,
    (hleaf _ standard .interval (by decide) hlog rfl).trans rfl⟩

/-- That an empty section never changes anything is false: one for the history does. -/
theorem empty_section_kept_false :
    ¬∀ (t u : Entries) (p : Part) (s : Settings), p ≠ .consumers → t.get? p.key = none → (∀ e ∈ u, e.1 ∉ p.fields) →
      decode? (.table t) = some s → decode? (.table ((p.key, .table u) :: t)) = some s := by
  intro h
  have hsmall : decode? (.table [("buffer", .table [])]) = some standard := h [] [] .buffer standard (by decide) rfl (by simp) rfl
  have hlarge : decode? (.table [("buffer", .table [])]) = some { standard with buffer := ⟨3000⟩ } := rfl
  exact absurd (hsmall.symm.trans hlarge) (by decide)

end Settings

end Lookback
