import Lookback.Proofs.Settings.Leaves
import Lookback.Proofs.Settings.Names
import Lookback.Settings.Load

/-!
# What a layer gives for a place

A place of a document is named by the keys that lead to it through tables within tables. What a layer gives for a place are the values
it has there that are no tables (`Settings.Layer.given`); one whose keys differ in case only may give several.

The order of keys has no influence on that (`Settings.Layer.mem_given_inOrder`).
-/

namespace Lookback

namespace Value

/-- The values that are no tables which a value has at a place within it. The keys of the place are in lower case. -/
def given : (place : List String) → Value → List Value
  | [], v => if v.isTable then [] else [v]
  | n :: rest, v => (Entries.valuesOf n v.entriesOrNone).flatMap (given rest)

section

variable {rank : Ranking} {v w : Value} {e x : String × Value} {t : Entries} {place above : List String} {n : String}

theorem mem_given_cons : w ∈ given (n :: place) v ↔ ∃ e ∈ v.entriesOrNone, Key.lower e.1 = n ∧ w ∈ given place e.2 := by
  rw [given, List.mem_flatMap]
  constructor
  · rintro ⟨u, hu, hw⟩
    obtain ⟨e, he, hkey, rfl⟩ := mem_valuesOf.mp hu
    exact ⟨e, he, hkey, hw⟩
  · rintro ⟨e, he, hkey, hw⟩
    exact ⟨e.2, mem_valuesOf.mpr ⟨e, he, hkey, rfl⟩, hw⟩

theorem mem_given_table : w ∈ given place (table t) ↔ ∃ e ∈ t, w ∈ given place (table [e]) := by
  cases place with
  | nil => simp [given, isTable]
  | cons n rest => simp [mem_given_cons, entriesOrNone]

theorem given_of_not_table (h : v.isTable = false) : given place v = if place = [] then [v] else [] := by
  cases place with
  | nil => simp [given, h]
  | cons n rest => simp [given, entriesOrNone_of_not_table h, Entries.valuesOf]

theorem given_singleton {k : String} (place : List String) (v : Value) :
    given (n :: place) (table [(k, v)]) = if Key.lower k = n then given place v else [] := by
  by_cases hk : Key.lower k = n <;> simp [given, entriesOrNone, Entries.valuesOf, hk]

/-- Behind names there is what stands behind all of them. -/
theorem given_nest {first : String} {rest : List String} (hv : v.isTable = false) (hlower : ∀ n ∈ first :: rest, Key.lower n = n) :
    given place (table [KeyPath.nest first rest v]) = if first :: rest = place then [v] else [] := by
  obtain ⟨hfirst, hrest⟩ := List.forall_mem_cons.mp hlower
  induction rest generalizing first place with
  | nil =>
    cases place with
    | nil => rfl
    | cons n place => simp [KeyPath.nest, given_singleton, given_of_not_table hv, hfirst, ite_and, eq_comm]
  | cons m rest ih =>
    cases place with
    | nil => rfl
    | cons n place =>
      have hinner : given place (table [KeyPath.nest m rest v]) = _ :=
        ih hrest (hrest m List.mem_cons_self) fun n hn => hrest n (List.mem_cons_of_mem _ hn)
      simp [KeyPath.nest, given_singleton, hinner, hfirst, ite_and]

/-! ## The order of keys -/

theorem mem_insertRanked {r : String → Nat} : x ∈ insertRanked r e t ↔ x = e ∨ x ∈ t := by
  induction t with
  | nil => simp [insertRanked]
  | cons y rest ih =>
    rw [insertRanked]
    split
    · simp
    · simp [ih, or_left_comm]

theorem mem_arrangedAll : x ∈ arrangedAll rank above t ↔ ∃ e ∈ t, x = (e.1, arranged rank (e.1 :: above) e.2) := by
  induction t with
  | nil => simp [arrangedAll]
  | cons e rest ih => simp [arrangedAll, mem_insertRanked, ih]

theorem arranged_of_not_table (h : v.isTable = false) : arranged rank above v = v := by
  cases v with
  | table t => cases h
  | null | bool | integer | double | text | array => rfl

theorem isTable_arranged (v : Value) : (arranged rank above v).isTable = v.isTable := by
  cases v with
  | table t => rfl
  | null | bool | integer | double | text | array => rfl

theorem entriesOrNone_arranged (v : Value) :
    (arranged rank above v).entriesOrNone = arrangedAll rank above v.entriesOrNone := by
  cases v with
  | table t => rfl
  | null | bool | integer | double | text | array => rfl

/-- What a value gives for a place within it does not depend on the order of its keys. -/
theorem mem_given_arranged : w ∈ given place (arranged rank above v) ↔ w ∈ given place v := by
  induction place generalizing v above with
  | nil =>
    cases hv : v.isTable with
    | true => simp [given, isTable_arranged, hv]
    | false => rw [arranged_of_not_table hv]
  | cons n rest ih => simp [mem_given_cons, entriesOrNone_arranged, mem_arrangedAll, ih]

/-- The same of a value behind some names. -/
theorem mem_given_nest {first : String} {names : List String} {v' : Value}
    (h : ∀ place, w ∈ given place v' ↔ w ∈ given place v) :
    w ∈ given place (table [KeyPath.nest first names v']) ↔ w ∈ given place (table [KeyPath.nest first names v]) := by
  induction names generalizing first place with
  | nil =>
    cases place with
    | nil => simp [given, isTable]
    | cons n rest => simp [mem_given_cons, entriesOrNone, KeyPath.nest, h]
  | cons m names ih =>
    cases place with
    | nil => simp [given, isTable]
    | cons n rest =>
      have hrest : w ∈ given rest (table [KeyPath.nest m names v']) ↔ w ∈ given rest (table [KeyPath.nest m names v]) := ih
      simp [mem_given_cons, entriesOrNone, KeyPath.nest, hrest]

end

end Value

namespace Settings

/-- The place of a leaf of a section. -/
def Leaf.place (leaf : Leaf) : List String := [leaf.part.key, leaf.key]

namespace Layer

/-- An entry of a layer, with tables within tables for a key of several names. -/
def nested (e : String × Value) : String × Value :=
  match Key.names e.1 with
  | first :: rest => KeyPath.nest first rest e.2
  | [] => e

/-- The entries of a layer, with tables within tables for keys of several names. -/
def opened (l : Layer) : Entries := l.map nested

/-- The values that are no tables which a layer has at a place. -/
def given (l : Layer) (place : List String) : List Value := Value.given place (.table l.opened)

/-- The entries that a layer has in a section. -/
def within (l : Layer) (key : String) : Entries := (l.opened.valuesOf key).flatMap Value.entriesOrNone

/-- Layers with plain keys in which every section is a table. -/
structure Orderly (l : Layer) : Prop where
  plain : ∀ e ∈ l, Key.IsPlain e.1
  sections : ∀ p : Part, p ≠ .consumers → l.given [p.key] = []

/-- The sections are all parts but the consumers. -/
theorem forall_section {P : Part → Prop} : (∀ p : Part, p ≠ .consumers → P p) ↔ ∀ p ∈ [Part.buffer, .producer, .log], P p := by
  constructor
  · intro h p hp
    refine h p ?_
    rintro rfl
    simp at hp
  · intro h p hp
    refine h p ?_
    cases p <;> simp at hp ⊢

instance (l : Layer) : Decidable l.Orderly :=
  decidable_of_iff ((∀ e ∈ l, Key.IsPlain e.1) ∧ ∀ p ∈ [Part.buffer, .producer, .log], (l.given [p.key]).isEmpty = true) <| by
    simp only [List.isEmpty_iff, ← forall_section]
    exact ⟨fun h => ⟨h.1, h.2⟩, fun h => ⟨h.plain, h.sections⟩⟩

section

variable {l : Layer} {rank : Ranking} {place : List String} {w : Value}

theorem mem_given : w ∈ l.given place ↔ ∃ e ∈ l, w ∈ Value.given place (.table [nested e]) := by
  rw [given, Value.mem_given_table]
  simp only [opened, List.mem_map, exists_exists_and_eq_and]

theorem given_cons (e : String × Value) (l : Layer) :
    given (e :: l) place = Value.given place (.table [nested e]) ++ l.given place := by
  cases place with
  | nil => rfl
  | cons n place =>
    have hvalues : Entries.valuesOf n (nested e :: l.opened) = Entries.valuesOf n [nested e] ++ Entries.valuesOf n l.opened :=
      Value.valuesOf_append n [nested e] l.opened
    rw [given, opened, List.map_cons, ← opened, Value.given, Value.entriesOrNone, hvalues, List.flatMap_append]
    rfl

theorem mem_given_nested (e : String × Value) :
    w ∈ Value.given place (.table [nested (e.1, Value.arranged rank [e.1] e.2)]) ↔ w ∈ Value.given place (.table [nested e]) := by
  obtain ⟨first, rest, hnames⟩ := Key.exists_names e.1
  simp only [nested, hnames]
  exact Value.mem_given_nest fun place => Value.mem_given_arranged

/-- What a layer gives for a place does not depend on the order of its keys. -/
theorem mem_given_inOrder : w ∈ (l.inOrder rank).given place ↔ w ∈ l.given place := by
  rw [mem_given, mem_given, inOrder]
  constructor
  · rintro ⟨e, he, hw⟩
    obtain ⟨e', he', rfl⟩ := Value.mem_arrangedAll.mp he
    exact ⟨e', he', (mem_given_nested e').mp hw⟩
  · rintro ⟨e, he, hw⟩
    exact ⟨_, Value.mem_arrangedAll.mpr ⟨e, he, rfl⟩, (mem_given_nested e).mpr hw⟩

theorem Orderly.inOrder (h : l.Orderly) (rank : Ranking) : (l.inOrder rank).Orderly := by
  constructor
  case plain =>
    intro e he
    obtain ⟨e', he', rfl⟩ := Value.mem_arrangedAll.mp he
    exact h.plain e' he'
  case sections =>
    intro p hp
    rw [List.eq_nil_iff_forall_not_mem]
    intro w hw
    rw [mem_given_inOrder, h.sections p hp] at hw
    cases hw

end

end Layer

end Settings

end Lookback
