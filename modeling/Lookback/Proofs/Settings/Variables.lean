import Mathlib
import Lookback.Proofs.Settings.Given

/-!
# What variables give

A variable gives a place its value if its name is `SAMPLER_` with the names of the place behind it and two underscores between them, in
any case (`Environment.given`). Loading finds these values by another way: it turns pairs of underscores into dots, and reads what
comes of that as a path. As long as no name has dots of its own, and names of the place are such that underscores can be told apart
(`Environment.Spelled`), both come to the same (`Environment.given_entries`).
-/

namespace Lookback

namespace Environment

open Settings

variable {env : Environment} {name text key : String} {place : List String} {cs : List Char} {v : Value}

/-- The values of the variables that are named for a place. -/
def given (env : Environment) (place : List String) : List Value :=
  (env.filter fun e => Key.lower e.1 = "sampler_" ++ "__".intercalate place).map fun e => value e.2

/-- Variables whose names are made of plain names, where none gives a value to a whole section. -/
structure Orderly (env : Environment) : Prop where
  plain : ∀ e ∈ env, ∀ key ∈ key? e.1, '.' ∉ (Key.lower e.1).toList ∧ Key.IsPlain key
  sections : ∀ p : Part, p ≠ .consumers → env.given [p.key] = []

instance (env : Environment) : Decidable env.Orderly :=
  decidable_of_iff ((∀ e ∈ env, ∀ key ∈ key? e.1, '.' ∉ (Key.lower e.1).toList ∧ Key.IsPlain key) ∧
      ∀ p ∈ [Part.buffer, .producer, .log], (env.given [p.key]).isEmpty = true) <| by
    simp only [List.isEmpty_iff, ← Layer.forall_section]
    exact ⟨fun h => ⟨h.1, h.2⟩, fun h => ⟨h.plain, h.sections⟩⟩

/-- Places whose names can be told apart with dots between them, and with two underscores. -/
structure Spelled (place : List String) : Prop where
  names : Key.names (".".intercalate place) = place
  lower : Key.lower (".".intercalate place) = ".".intercalate place
  dotted : Environment.dotted ("__".intercalate place).toList = (".".intercalate place).toList
  dotless : '.' ∉ ("__".intercalate place).toList

/-- A text is no table. -/
theorem isTable_value (text : String) : (value text).isTable = false := by
  unfold value
  split
  · rfl
  · split
    · rfl
    · split
      · rfl
      · rfl
      · rfl

/-! ## Names of variables -/

/-- A text without dots is what it was before its underscores were taken in pairs. -/
theorem flatMap_dotted (h : '.' ∉ cs) : (dotted cs).flatMap (fun c => if c = '.' then ['_', '_'] else [c]) = cs := by
  induction cs using dotted.induct with
  | case1 rest ih =>
    simp only [List.mem_cons, not_or] at h
    simp [dotted, ih h.2.2]
  | case2 c rest hpair ih =>
    simp only [List.mem_cons, not_or] at h
    rw [dotted]
    · simp [Ne.symm h.1, ih h.2]
    · exact hpair
  | case3 => rfl

theorem dotted_inj {cs' : List Char} (h : '.' ∉ cs) (h' : '.' ∉ cs') (heq : dotted cs = dotted cs') : cs = cs' := by
  rw [← flatMap_dotted h, heq, flatMap_dotted h']

theorem key?_of_marked (h : (Key.lower name).toList = "sampler_".toList ++ cs) : key? name = some (String.ofList (dotted cs)) := by
  have hmark : mark.toList.isPrefixOf (Key.lower name).toList = true := List.isPrefixOf_iff_prefix.mpr ⟨cs, h.symm⟩
  have hdrop : (Key.lower name).toList.drop mark.length = cs := by
    rw [h]
    rfl
  rw [key?, if_pos hmark, hdrop]

/-- Only a name that begins as it should gives a key. -/
theorem key?_eq_some (h : key? name = some key) :
    ∃ cs, (Key.lower name).toList = "sampler_".toList ++ cs ∧ key.toList = dotted cs := by
  by_cases hmark : mark.toList.isPrefixOf (Key.lower name).toList = true
  · obtain ⟨cs, hcs⟩ := List.isPrefixOf_iff_prefix.mp hmark
    rw [key?_of_marked hcs.symm] at h
    exact ⟨cs, hcs.symm, by rw [← Option.some.inj h, String.toList_ofList]⟩
  · rw [key?, if_neg hmark] at h
    cases h

theorem mem_of_mem_dotted {c : Char} (h : c ∈ dotted cs) : c = '.' ∨ c ∈ cs := by
  induction cs using dotted.induct with
  | case1 rest ih =>
    rcases List.mem_cons.mp h with hdot | h
    · exact Or.inl hdot
    · exact (ih h).imp_right fun h => List.mem_cons_of_mem _ (List.mem_cons_of_mem _ h)
  | case2 d rest hpair ih =>
    rw [dotted] at h
    · rcases List.mem_cons.mp h with rfl | h
      · exact Or.inr List.mem_cons_self
      · exact (ih h).imp_right (List.mem_cons_of_mem _)
    · exact hpair
  | case3 => cases h

/-- A key is in lower case, as it comes of a name that is. -/
theorem lower_key (h : key? name = some key) : Key.lower key = key := by
  obtain ⟨cs, hname, hkey⟩ := key?_eq_some h
  refine Key.lower_eq_self fun c hc => ?_
  rcases mem_of_mem_dotted (hkey ▸ hc) with rfl | hc
  · rfl
  · exact Key.lowerChar_of_mem_lower (hname ▸ List.mem_append_right _ hc)

/-- The names of a key are those of a place exactly if the variable is named for it. -/
theorem names_key (hplace : Spelled place) (h : key? name = some key) (hdotless : '.' ∉ (Key.lower name).toList) :
    Key.names key = place ↔ Key.lower name = "sampler_" ++ "__".intercalate place := by
  obtain ⟨cs, hname, hkey⟩ := key?_eq_some h
  have hcs : '.' ∉ cs := fun hdot => hdotless (hname ▸ List.mem_append_right _ hdot)
  obtain ⟨first, rest, hnames⟩ := Key.exists_names (".".intercalate place)
  have hdots : Key.names key = place ↔ key = ".".intercalate place := by
    constructor
    · intro hsame
      have hlists := (Key.toList_lower (hsame.trans (hplace.names.symm.trans hnames))).trans (Key.toList_lower hnames).symm
      rw [lower_key h, hplace.lower] at hlists
      exact String.toList_injective hlists
    · rintro rfl
      exact hplace.names
  have hunderscores : key = ".".intercalate place ↔ cs = ("__".intercalate place).toList := by
    rw [← String.toList_inj, hkey, ← hplace.dotted]
    exact ⟨dotted_inj hcs hplace.dotless, congrArg dotted⟩
  rw [hdots, hunderscores, ← String.toList_inj, hname, String.toList_append, List.append_cancel_left_eq]

/-! ## What loading finds -/

/-- What the keys of variables give for a place are the values of those that are named for it. -/
theorem given_entries (hdotless : ∀ e ∈ env, ∀ key ∈ key? e.1, '.' ∉ (Key.lower e.1).toList) (hplace : Spelled place) :
    Layer.given env.entries place = env.given place := by
  induction env with
  | nil =>
    cases place with
    | nil => rfl
    | cons n rest => rfl
  | cons e env ih =>
    obtain ⟨he, hrest⟩ := List.forall_mem_cons.mp hdotless
    rw [given, List.filter_cons]
    cases hkey : key? e.1 with
    | none =>
      have hother : Key.lower e.1 ≠ "sampler_" ++ "__".intercalate place := by
        intro hname
        rw [key?_of_marked (by rw [hname, String.toList_append])] at hkey
        cases hkey
      rw [entries, List.filterMap_cons_none (by rw [hkey]; rfl), if_neg (by simpa using hother)]
      exact ih hrest
    | some key =>
      obtain ⟨first, rest, hnames⟩ := Key.exists_names key
      have hsame := names_key hplace hkey (he key hkey)
      have hone : Value.given place (.table [Layer.nested (key, value e.2)]) = if first :: rest = place then [value e.2] else [] := by
        rw [Layer.nested]
        simp only [hnames]
        exact Value.given_nest (isTable_value e.2) fun n hn => Key.lower_name (hnames ▸ hn)
      rw [entries, List.filterMap_cons_some (by rw [hkey]; rfl), Layer.given_cons, hone, ← hnames]
      have hentries := ih hrest
      rw [entries, given] at hentries
      by_cases hname : Key.lower e.1 = "sampler_" ++ "__".intercalate place
      · rw [if_pos (hsame.mpr hname), if_pos (by simpa using hname), List.map_cons, hentries]
        rfl
      · rw [if_neg (mt hsame.mp hname), if_neg (by simpa using hname), hentries]
        rfl

/-! ## Places of settings -/

/-- The parts of settings can be spelled as places. -/
theorem spelled_part (p : Part) : Spelled [p.key] := by
  cases p <;> exact ⟨by cbv, by cbv, by cbv, by decide⟩

theorem Orderly.given_entries (h : env.Orderly) (hplace : Spelled place) : Layer.given env.entries place = env.given place :=
  Environment.given_entries (fun e he key hkey => (h.plain e he key hkey).1) hplace

theorem Orderly.entries (h : env.Orderly) : Layer.Orderly env.entries := by
  constructor
  case plain =>
    intro e he
    obtain ⟨e', he', hgives⟩ := List.mem_filterMap.mp he
    obtain ⟨key, hkey, rfl⟩ := Option.map_eq_some_iff.mp hgives
    exact (h.plain e' he' key hkey).2
  case sections =>
    intro p hp
    rw [h.given_entries (spelled_part p), h.sections p hp]

end Environment

end Lookback
