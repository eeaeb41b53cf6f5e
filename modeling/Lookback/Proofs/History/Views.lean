import Lookback.Proofs.History.Edits
import Lookback.Proofs.Ring.Reading

/-!
# Three views of one past

A history is looked at from its oldest value, from its newest value, and through the newest few of its values. The three
find slots in ways of their own; `views_agree` says that they see one list, the end of the past that the edits made.
-/

namespace Lookback

namespace History

variable {α : Type} {h : History α} {start recent : Nat} {past : List α}

/-- Where a history has slots at all, it is created empty once there is room for them, and fails as that does. -/
theorem create_eq {capacity : Nat} (hpos : 0 < capacity) (memory : Memory) (valueSize : Nat) :
    (create memory valueSize capacity : Except Failure (History α)) =
      (fun _ => empty capacity) <$> memory.reserve capacity valueSize := by
  have hcapacity : capacity ≠ 0 := by omega
  unfold create Ring.create
  rw [if_neg hcapacity, if_neg hcapacity]
  cases memory.reserve capacity valueSize with
  | error failure => rfl
  | ok => rfl

/-- Of valid settings a history is created with the slots they ask for. -/
theorem ofValidSettings_eq {b : BufferSettings} (hvalid : b.validate = .ok ()) (memory : Memory) (valueSize : Nat) :
    (ofValidSettings memory valueSize b : Except Failure (History α)) = create memory valueSize b.capacity.toNat := by
  rw [ofValidSettings, hvalid, ok_bind, ofSettings]

/-- A projection sees the value that the projection is taken of. -/
theorem mapFromNewest_eq_ok {β : Type} {i : Nat} {a : α} (hvalue : h.fromNewest i = .ok a) (f : α → β) :
    h.mapFromNewest f i = .ok (f a) := by
  rw [mapFromNewest, hvalue, ok_bind]

/-- Past the values held every view fails, with the place asked for and the number of values held. -/
theorem views_eq_error {β : Type} {i : Nat} (hi : h.size ≤ i) (f : α → β) :
    h.fromOldest i = .error (.outOfBounds i h.size) ∧ h.fromNewest i = .error (.outOfBounds i h.size) ∧
      h.mapFromNewest f i = .error (.outOfBounds i h.size) := by
  have hnewest : h.fromNewest i = .error (.outOfBounds i h.size) := Ring.fromNewest_eq_error hi
  refine ⟨Ring.fromOldest_eq_error hi, hnewest, ?_⟩
  rw [mapFromNewest, hnewest]
  rfl

/-- The newest `amount` values are the last ones of the past, as far as they are live. -/
theorem latest_eq_ok (hrec : h.ring.Records start past recent) (amount : Nat) :
    h.latest amount = .ok (past.drop (past.length - min amount h.size)) := by
  have hopen : openValues h.ring.written h.ring.live amount 0 = min amount h.ring.live := if_neg (by omega)
  unfold latest read
  rw [hrec.read_eq_ok _ (Nat.zero_le _), ok_bind]
  by_cases hnone : min amount h.ring.live = 0
  · have hend : past.drop (past.length - min amount h.size) = [] := by
      rw [size, hnone, Nat.sub_zero, List.drop_length]
    rw [hend]
    by_cases hamount : amount = 0
    · rw [if_pos hamount]
    · simp only [hamount, hopen, hnone, if_true, if_false, Bool.false_eq_true, false_and]
  · have hamount : amount ≠ 0 := by omega
    have hwindow : min (min amount h.ring.live) amount = min amount h.ring.live := by omega
    simp only [hamount, hopen, hnone, Request.window, hwindow, size, if_false, Bool.false_eq_true, false_and, Nat.sub_zero,
      List.drop_eq_extract]

/-- Whatever edits were made of a new history, all views show the end of the one list of values inserted: as many as came
since the last clear, the capacity at most. Counted from the oldest value, counted from the newest one and taken from the
newest few, the values are those of this list, and no view shows a value from before a clear. -/
theorem views_agree {capacity : Nat} (hpos : 0 < capacity) (hfit : capacity ≤ lastWord) (es : List (Edit α)) :
    ∃ h, (empty capacity).edits es = .ok h ∧
      h.size = min (Edit.sinceClear es).length capacity ∧
      (∀ i, i < h.size → ∃ a, (Edit.inserted es)[(Edit.inserted es).length - h.size + i]? = some a ∧
        h.fromOldest i = .ok a) ∧
      (∀ i, i < h.size → ∃ a, (Edit.inserted es)[(Edit.inserted es).length - 1 - i]? = some a ∧
        h.fromNewest i = .ok a ∧ ∀ (β : Type) (f : α → β), h.mapFromNewest f i = .ok (f a)) ∧
      (∀ i, h.size ≤ i → ∀ (β : Type) (f : α → β), h.fromOldest i = .error (.outOfBounds i h.size) ∧
        h.fromNewest i = .error (.outOfBounds i h.size) ∧ h.mapFromNewest f i = .error (.outOfBounds i h.size)) ∧
      (∀ amount, h.latest amount =
        .ok ((Edit.inserted es).drop ((Edit.inserted es).length - min amount h.size))) ∧
      (Edit.inserted es).drop ((Edit.inserted es).length - h.size) <:+ Edit.sinceClear es := by
  obtain ⟨h, hedits, hcapacity, hrec⟩ := edits_empty hpos hfit es
  have hsize : h.size = min (Edit.sinceClear es).length capacity := by
    rw [size, hrec.live_eq, ← hcapacity, History.capacity]
  refine ⟨h, hedits, hsize, ?_, ?_, ?_, latest_eq_ok hrec, ?_⟩
  · intro i hi
    exact hrec.fromOldest_eq_ok hi
  · intro i hi
    obtain ⟨a, ha, hvalue⟩ := hrec.fromNewest_eq_ok hi
    exact ⟨a, ha, hvalue, fun β f => mapFromNewest_eq_ok hvalue f⟩
  · intro i hi β f
    exact views_eq_error hi f
  · apply List.suffix_of_suffix_length_le (List.drop_suffix _ _) (Edit.sinceClear_suffix es)
    rw [List.length_drop]
    omega

/-- A history of three slots, cleared at a turn of its slots and written past the last one again. -/
theorem views_agree_after_clear :
    0 < 3 ∧ 3 ≤ lastWord ∧
      ∃ new h, create .boundless 8 3 = .ok new ∧
        new.edits [.insertMany [1, 2, 3, 4], .clear, .insertMany [5, 6, 7], .insert 8] = .ok h ∧
        h.size = 3 ∧ h.fromOldest 0 = .ok 6 ∧ h.fromNewest 0 = .ok 8 ∧
        h.fromNewest 3 = .error (.outOfBounds 3 3) ∧ h.latest 2 = .ok [7, 8] := by
  have hpos : 0 < 3 := by decide
  have hfit : 3 ≤ lastWord := by decide
  obtain ⟨h, hedits, hsize, holdest, hnewest, hbeyond, hlatest, -⟩ :=
    views_agree hpos hfit [.insertMany [1, 2, 3, 4], .clear, .insertMany [5, 6, 7], .insert 8]
  have hthree : h.size = 3 := hsize
  rw [hthree] at holdest hnewest hbeyond hlatest
  obtain ⟨a, ha, hoa⟩ := holdest 0 hpos
  obtain ⟨b, hb, hnb, -⟩ := hnewest 0 hpos
  obtain rfl : 6 = a := Option.some.inj ha
  obtain rfl : 8 = b := Option.some.inj hb
  exact ⟨hpos, hfit, empty 3, h, create_eq hpos .boundless 8, hedits, hthree, hoa, hnb,
    (hbeyond 3 (Nat.le_refl 3) Nat id).2.1, hlatest 2⟩

end History

end Lookback
