import Lookback.History
import Lookback.Proofs.Ring.Past

/-!
# What edits leave behind

A list of edits has a past of its own, without slots or counters: the values it inserts (`Edit.inserted`), and those of them
that came after its last clear (`Edit.sinceClear`). No edit of a history fails, and the ring of an edited history records
exactly the past of the edits made (`edits_eq_ok`).
-/

namespace Lookback

namespace History

variable {α : Type}

namespace Edit

/-- The values that one edit inserts. -/
def values : Edit α → List α
  | insert value => [value]
  | insertMany values => values
  | clear => []

/-- The values that edits insert, in order. -/
def inserted (es : List (Edit α)) : List α := es.flatMap values

/-- The values inserted since the last clear, one edit further. -/
def extend (recent : List α) : Edit α → List α
  | insert value => recent ++ [value]
  | insertMany values => recent ++ values
  | clear => []

/-- The values inserted since the last clear, or all of them where nothing was cleared. -/
def sinceClear (es : List (Edit α)) : List α := es.foldl extend []

@[simp] theorem inserted_nil : inserted ([] : List (Edit α)) = [] :=
  rfl

@[simp] theorem inserted_append (es es' : List (Edit α)) : inserted (es ++ es') = inserted es ++ inserted es' :=
  List.flatMap_append

@[simp] theorem inserted_singleton (e : Edit α) : inserted [e] = e.values :=
  List.flatMap_singleton _ _

@[simp] theorem sinceClear_snoc (es : List (Edit α)) (e : Edit α) :
    sinceClear (es ++ [e]) = e.extend (sinceClear es) := by
  simp [sinceClear]

/-- What came after a clear is the end of what came at all. -/
theorem extend_suffix {recent past : List α} (h : recent <:+ past) (e : Edit α) : e.extend recent <:+ past ++ e.values := by
  obtain ⟨older, rfl⟩ := h
  cases e with
  | insert value => exact ⟨older, by simp [extend, values]⟩
  | insertMany many => exact ⟨older, by simp [extend, values]⟩
  | clear => exact List.nil_suffix

/-- The values inserted since the last clear are the last ones inserted. -/
theorem sinceClear_suffix (es : List (Edit α)) : sinceClear es <:+ inserted es := by
  have hfold : ∀ (es : List (Edit α)) (recent past : List α), recent <:+ past →
      es.foldl extend recent <:+ past ++ inserted es := by
    intro es
    induction es with
    | nil => intro recent past h; simpa using h
    | cons e es ih =>
      intro recent past h
      have hnext := ih _ _ (extend_suffix h e)
      rwa [List.append_assoc] at hnext
  exact hfold es [] [] (List.suffix_refl [])

/-- An edit that clears nothing only adds. -/
theorem extend_of_ne_clear {e : Edit α} (hkept : e ≠ .clear) (recent : List α) : e.extend recent = recent ++ e.values := by
  cases e with
  | insert value => rfl
  | insertMany values => rfl
  | clear => exact absurd rfl hkept

/-- As long as nothing is cleared, all values inserted were inserted since the last clear. -/
theorem foldl_extend_of_kept {es : List (Edit α)} (hkept : .clear ∉ es) (recent : List α) :
    es.foldl extend recent = recent ++ inserted es := by
  induction es generalizing recent with
  | nil => simp
  | cons e es ih =>
    rw [List.mem_cons, not_or] at hkept
    rw [List.foldl_cons, ih hkept.2, extend_of_ne_clear (Ne.symm hkept.1), List.append_assoc]
    rfl

end Edit

/-! ## Edits of a history that records a past -/

variable {h : History α} {start : Nat} {past recent : List α}

/-- Edits may go on with others. -/
theorem edits_append {h₁ : History α} {es : List (Edit α)} (hedits : h.edits es = .ok h₁) (es' : List (Edit α)) :
    h.edits (es ++ es') = h₁.edits es' := by
  induction es generalizing h with
  | nil =>
    obtain rfl := Except.ok.inj hedits
    rfl
  | cons e es ih =>
    rw [edits] at hedits
    cases hedit : h.edit e with
    | error failure =>
      rw [hedit] at hedits
      nomatch hedits
    | ok h₂ =>
      rw [hedit, ok_bind] at hedits
      rw [List.cons_append, edits, hedit, ok_bind, ih hedits]

/-- One edit succeeds and goes on with the past. -/
theorem edit_eq_ok (hrec : h.ring.Records start past recent.length) (e : Edit α) :
    ∃ h', h.edit e = .ok h' ∧ h'.capacity = h.capacity ∧
      h'.ring.Records start (past ++ e.values) (e.extend recent).length := by
  cases e with
  | insert value =>
    obtain ⟨r, hr, hcapacity, hrec'⟩ := hrec.insert value
    refine ⟨⟨r⟩, ?_, hcapacity, ?_⟩
    · rw [edit, History.insert, hr, ok_bind]
    · simpa [Edit.extend, Edit.values] using hrec'
  | insertMany values =>
    obtain ⟨r, hr, hcapacity, hrec'⟩ := hrec.insertMany values
    refine ⟨⟨r⟩, ?_, hcapacity, ?_⟩
    · rw [edit, History.insertMany, hr, ok_bind]
    · simpa [Edit.extend, Edit.values] using hrec'
  | clear =>
    have hrec' : h.clear.ring.Records start past 0 := hrec.clear
    refine ⟨h.clear, rfl, rfl, ?_⟩
    simpa [Edit.extend, Edit.values] using hrec'

/-- Edits succeed one after the other and go on with the past. -/
theorem edits_records (hrec : h.ring.Records start past recent.length) (es : List (Edit α)) :
    ∃ h', h.edits es = .ok h' ∧ h'.capacity = h.capacity ∧
      h'.ring.Records start (past ++ Edit.inserted es) (es.foldl Edit.extend recent).length := by
  induction es generalizing h past recent with
  | nil => exact ⟨h, rfl, rfl, by simpa using hrec⟩
  | cons e es ih =>
    obtain ⟨h₁, hedit, hcapacity₁, hrec₁⟩ := edit_eq_ok hrec e
    obtain ⟨h₂, hedits, hcapacity₂, hrec₂⟩ := ih hrec₁
    refine ⟨h₂, ?_, hcapacity₂.trans hcapacity₁, ?_⟩
    · rw [edits, hedit, ok_bind, hedits]
    · rw [List.append_assoc] at hrec₂
      exact hrec₂

/-- Edits of a new history succeed, and its ring records the past of these edits. -/
theorem edits_eq_ok {capacity : Nat} (hpos : 0 < capacity) (hfit : capacity ≤ lastWord) (hstart : start ≤ lastWord)
    (es : List (Edit α)) :
    ∃ h, (startingAt capacity start : History α).edits es = .ok h ∧ h.capacity = capacity ∧
      h.ring.Records start (Edit.inserted es) (Edit.sinceClear es).length := by
  have hnew : (startingAt capacity start : History α).ring.Records start [] ([] : List α).length :=
    Ring.records_startingAt hpos hfit hstart
  exact edits_records hnew es

theorem edits_empty {capacity : Nat} (hpos : 0 < capacity) (hfit : capacity ≤ lastWord) (es : List (Edit α)) :
    ∃ h, (empty capacity : History α).edits es = .ok h ∧ h.capacity = capacity ∧
      h.ring.Records 0 (Edit.inserted es) (Edit.sinceClear es).length :=
  edits_eq_ok hpos hfit (Nat.zero_le lastWord) es

end History

end Lookback
