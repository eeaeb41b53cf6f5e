import Lookback.Proofs.History.Edits
import Lookback.Proofs.Ring.Copying
import Lookback.Proofs.Ring.Lookup
import Lookback.Proofs.Stretch

/-!
# Copying windows

`Ring.windowInto` copies a window to the end of a list, one span of slots after the other, and a step that fails leaves the list
as it is by then. On a ring that records a past nothing fails once the window is found to be live, so the list either grows by the
values of the ages asked for, the oldest first, or is left as it was (`windows_copied`).
-/

namespace Lookback

namespace Ring

variable {α : Type} {r : Ring α} {start recent low high : Nat} {past : List α}

/-- A window that is not live is refused before anything is copied. -/
theorem windowInto_eq_error (target : List α) (h : ¬(low < high ∧ high ≤ r.live)) :
    r.windowInto target low high = .error ⟨target, .unbackedWindow low high r.live⟩ := by
  have hunbacked : high ≤ low ∨ r.live < high := by omega
  unfold windowInto
  rw [if_pos hunbacked]

namespace Records

/-- A live window holds one value of each of its ages. -/
theorem length_ages (h : r.Records start past recent) (low : Nat) (hhigh : high ≤ r.live) :
    (past.extract (past.length - high) (past.length - low)).length = high - low := by
  have hlive := h.live_le_length
  rw [Stretch.length_extract (Nat.sub_le _ _)]
  omega

/-- The values of a window are found one by one by their ages, the oldest value first. -/
theorem map_extract_ages (h : r.Records start past recent) (hlow : low < high) (hhigh : high ≤ r.live) :
    (past.extract (past.length - high) (past.length - low)).map Except.ok =
      (List.range' low (high - low)).reverse.map r.fromNewest := by
  have hlive := h.live_le_length
  have hlength := h.length_ages low hhigh
  apply List.ext_getElem?
  intro i
  rw [List.getElem?_map, List.getElem?_map]
  by_cases hi : i < high - low
  · have hage : low + (high - low - 1 - i) = high - 1 - i := by omega
    have hplace : past.length - 1 - (high - 1 - i) = past.length - high + i := by omega
    obtain ⟨a, ha, hvalue⟩ := h.fromNewest_eq_ok (i := high - 1 - i) (by omega)
    rw [hplace] at ha
    rw [Stretch.getElem?_extract (by omega), ha, List.getElem?_reverse (by rw [List.length_range']; exact hi),
      List.length_range', List.getElem?_range' (by omega), Nat.one_mul, hage]
    exact congrArg some hvalue.symm
  · rw [List.getElem?_eq_none (by omega), List.getElem?_eq_none (by rw [List.length_reverse, List.length_range']; omega)]
    rfl

/-- A live window is copied to the end of the list, whatever stands there already. -/
theorem windowInto_eq_ok (h : r.Records start past recent) (target : List α) (hlow : low < high) (hhigh : high ≤ r.live) :
    r.windowInto target low high =
      .ok ⟨high - low, target ++ past.extract (past.length - high) (past.length - low)⟩ := by
  have hcopy := windowInto_eq_window r target low high
  rw [h.window_eq_ok hlow hhigh] at hcopy
  rw [Interrupted.eq_ok_of_mapError hcopy]
  simp only [h.length_ages low hhigh]

end Records

end Ring

namespace History

variable {α : Type}

/-- Whatever edits were made of a new history, wherever its counter began, and whatever list a window is to be copied to: the
window of the ages from `low` up to `high` is appended if it holds a value and all its values are live. What is appended are the
`high - low` values found one by one at these ages, the oldest first, which are also those that a read of this window brings. Any
other window is refused, and the list stays as it was. -/
theorem windows_copied {capacity start : Nat} (hpos : 0 < capacity) (hfit : capacity ≤ lastWord) (hstart : start ≤ lastWord)
    (es : List (Edit α)) :
    ∃ h, (startingAt capacity start).edits es = .ok h ∧
      ∀ (target : List α) (low high : Nat),
        (low < high → high ≤ h.size →
          ∃ batch, h.ring.windowInto target low high = .ok ⟨high - low, target ++ batch⟩ ∧
            h.ring.window low high = .ok batch ∧
            batch.map Except.ok = (List.range' low (high - low)).reverse.map h.ring.fromNewest) ∧
        (¬(low < high ∧ high ≤ h.size) →
          h.ring.windowInto target low high = .error ⟨target, .unbackedWindow low high h.size⟩) := by
  obtain ⟨h, hedits, -, hrec⟩ := edits_eq_ok hpos hfit hstart es
  refine ⟨h, hedits, ?_⟩
  intro target low high
  constructor
  · intro hlow hhigh
    exact ⟨_, hrec.windowInto_eq_ok target hlow hhigh, hrec.window_eq_ok hlow hhigh, hrec.map_extract_ages hlow hhigh⟩
  · intro hunbacked
    exact Ring.windowInto_eq_error target hunbacked

/-- Five slots, four of them written over again: a window across the last slot is copied behind a value that is there already,
and a window without values is refused. -/
theorem windows_copied_across_last_slot :
    0 < 5 ∧ 5 ≤ lastWord ∧ 0 ≤ lastWord ∧
      ∃ h, (startingAt 5 0).edits [.insertMany [0, 1, 2], .clear, .insertMany [3, 4, 5, 6], .insertMany [7, 8]] = .ok h ∧
        1 < 5 ∧ 5 ≤ h.size ∧ h.ring.windowInto [99] 1 5 = .ok ⟨4, [99, 4, 5, 6, 7]⟩ ∧
        ¬(1 < 1 ∧ 1 ≤ h.size) ∧ h.ring.windowInto [99] 1 1 = .error ⟨[99], .unbackedWindow 1 1 5⟩ := by
  have hpos : 0 < 5 := by decide
  have hfit : 5 ≤ lastWord := by decide
  obtain ⟨h, hedits, hwindows⟩ := windows_copied hpos hfit (Nat.zero_le _)
    [.insertMany [0, 1, 2], .clear, .insertMany [3, 4, 5, 6], .insertMany [7, 8]]
  have hring : (startingAt 5 0).edits [.insertMany [0, 1, 2], .clear, .insertMany [3, 4, 5, 6], .insertMany [7, 8]] =
      .ok ⟨⟨#[5, 6, 7, 8, 4], 5, 4, 5, 9⟩⟩ := by cbv
  obtain rfl := Except.ok.inj (hring.symm.trans hedits)
  obtain ⟨hbacked, -⟩ := hwindows [99] 1 5
  obtain ⟨-, hunbacked⟩ := hwindows [99] 1 1
  obtain ⟨batch, hcopy, -, hvalues⟩ := hbacked (by decide) (by decide)
  have hages : (List.range' 1 (5 - 1)).reverse.map (Ring.fromNewest ⟨#[5, 6, 7, 8, 4], 5, 4, 5, 9⟩) =
      [4, 5, 6, 7].map Except.ok := by cbv
  obtain rfl : batch = [4, 5, 6, 7] := (List.map_inj_right fun _ _ => Except.ok.inj).mp (hvalues.trans hages)
  exact ⟨hpos, hfit, Nat.zero_le _, _, hedits, by decide, by decide, hcopy, by decide, hunbacked (by decide)⟩

end History

end Lookback
