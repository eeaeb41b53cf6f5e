import Lookback.Settings.Basic

/-!
# What validation promises

Settings that pass validation have a slot at least, and consumers that a history of so many slots can serve: each takes samples, and
one that waits for full batches waits for no more samples than can be held at once. Nothing bounds the capacity from above.
-/

namespace Lookback

/-- A consumer takes samples, and no larger batches than a history of so many slots can hold. -/
structure ConsumerSettings.Fits (s : ConsumerSettings) (capacity : Nat) : Prop where
  amount_ne : s.amount.toNat ≠ 0
  exact_le : s.exact = true → s.amount.toNat ≤ capacity

/-- A consumer that passes its check takes samples, and no more at once than there are slots. -/
theorem ConsumerSettings.fits_of_validate {c : ConsumerSettings} {capacity : UInt64} (h : c.validate capacity = .ok ()) :
    c.Fits capacity.toNat := by
  unfold validate at h
  split at h
  · nomatch h
  · rename_i hamount
    split at h
    · nomatch h
    · rename_i hroom
      constructor
      · intro hzero
        exact hamount (UInt64.toNat_inj.mp hzero)
      · intro hexact
        have hnot : ¬capacity < c.amount := fun hless => hroom ⟨hexact, hless⟩
        rwa [UInt64.lt_iff_toNat_lt, Nat.not_lt] at hnot

namespace Settings

variable {s : Settings}

theorem fits_of_validateConsumers {capacity : UInt64} {consumers : List ConsumerSettings}
    (h : validateConsumers capacity consumers = .ok ()) : ∀ c ∈ consumers, c.Fits capacity.toNat := by
  induction consumers with
  | nil => simp
  | cons c rest ih =>
    cases hc : c.validate capacity with
    | error e =>
      rw [validateConsumers, hc] at h
      nomatch h
    | ok =>
      rw [validateConsumers, hc, ok_bind] at h
      exact List.forall_mem_cons.mpr ⟨ConsumerSettings.fits_of_validate hc, ih h⟩

/-- Valid settings have a slot at least, and consumers that fit. -/
theorem fits_of_validate (h : s.validate = .ok ()) :
    s.buffer.validate = .ok () ∧ 0 < s.buffer.capacity.toNat ∧ ∀ c ∈ s.consumers, c.Fits s.buffer.capacity.toNat := by
  cases hbuffer : s.buffer.validate with
  | error e =>
    simp only [validate, hbuffer] at h
    nomatch h
  | ok =>
    simp only [validate, hbuffer] at h
    split at h
    · nomatch h
    · refine ⟨rfl, ?_, fits_of_validateConsumers h⟩
      unfold BufferSettings.validate at hbuffer
      split at hbuffer
      · nomatch hbuffer
      · rename_i hcapacity
        exact Nat.pos_of_ne_zero fun hzero => hcapacity (UInt64.toNat_inj.mp hzero)

end Settings

end Lookback
