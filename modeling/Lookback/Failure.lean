/-!
# What can end an operation early

Every operation on a history is a function into `Except Failure`. Two failures answer a request: `outOfBounds`, when no
live value stands at the index asked for, and `zeroCapacity`, when settings ask for a history without slots. All others
are alarms: each marks a check that found a number out of its range, a constructor called against its contract, or a
system that does not give what it is asked for. Each failure has one text, `Failure.message`.

Work that changes a state step by step leaves that state as it is by then when it is cut short (`Interrupted`).
-/

namespace Lookback

/-- The two operations on machine words whose result may not fit. -/
inductive Arithmetic where
  | add | subtract
  deriving DecidableEq, Repr

/-- Why an operation ended early. -/
inductive Failure where
  /-- No live value stands at `index`: the history holds `held` of them. -/
  | outOfBounds (index held : Nat)
  /-- Settings describe a history without slots. -/
  | zeroCapacity
  /-- A history was to be created without slots. -/
  | emptyHistory
  /-- A ring was to be created without slots. -/
  | emptyRing
  /-- More room was asked for than memory can address. -/
  | unaddressable
  /-- The system did not grant a block of so many bytes. -/
  | notGranted (bytes : Nat)
  /-- A moment was to be told that lies past the end of the clock. -/
  | pastClock
  /-- A worker was to get a name with a null character, here given with its bytes and the place of that character. -/
  | nullInName (place : Nat) (name : List Nat)
  /-- An operand of cyclic arithmetic lies past the limit of its cycle. -/
  | aboveLimit (operand limit : Nat)
  /-- A sum is too large for its word, or a difference would be negative. -/
  | overflow (operation : Arithmetic)
  /-- A slot was read or written that is not among the `slots` filled so far. -/
  | slotOutOfRange (slot slots : Nat)
  /-- A window `[start, stop)` of ages was asked for that the `held` live values do not cover. -/
  | unbackedWindow (start stop held : Nat)
  /-- A window was copied with a wrong number of values. -/
  | shortWindow (copied requested : Nat)
  deriving DecidableEq, Repr

namespace Failure

/-- The text of a failure. -/
def message : Failure → String
  | outOfBounds index held => s!"Index {index} out of bounds for buffer holding {held} elements"
  | zeroCapacity => "Buffer capacity must be greater than zero"
  | emptyHistory => "History buffer capacity must be > 0"
  | emptyRing => "assertion failed: capacity > 0"
  | unaddressable => "capacity overflow"
  | notGranted bytes => s!"memory allocation of {bytes} bytes failed"
  | pastClock => "overflow when adding duration to instant"
  | nullInName place name =>
    let bytes := ", ".intercalate (name.map toString)
    s!"thread name may not contain interior null bytes: NulError({place}, [{bytes}])"
  | aboveLimit operand limit => s!"operand {operand} exceeds limit {limit}"
  | overflow .add => "attempt to add with overflow"
  | overflow .subtract => "attempt to subtract with overflow"
  | slotOutOfRange slot slots => s!"index out of bounds: the len is {slots} but the index is {slot}"
  | unbackedWindow start stop held =>
    s!"history buffer invariant violated: window [{start}, {stop}) not backed by {held} live elements"
  | shortWindow copied requested =>
    s!"history buffer invariant violated: extracted {copied} elements for a window of {requested}"

end Failure

/-- A step that succeeds hands its result to the steps after it. -/
@[simp] theorem ok_bind {ε α β : Type} (a : α) (f : α → Except ε β) : (Except.ok a >>= f) = f a :=
  rfl

/-- A step that fails keeps the steps after it from being taken. -/
@[simp] theorem error_bind {ε α β : Type} (e : ε) (f : α → Except ε β) : (Except.error e >>= f) = .error e :=
  rfl

/-- Steps have a result only if the first of them does. -/
theorem bind_eq_ok {ε α β : Type} {x : Except ε α} {f : α → Except ε β} {b : β} (h : x >>= f = .ok b) :
    ∃ a, x = .ok a ∧ f a = .ok b := by
  cases x with
  | error e => cases h
  | ok a => exact ⟨a, rfl, h⟩

/-! ## Work on a state -/

/-- What is left when work on a state was cut short. -/
structure Interrupted (σ : Type) where
  state : σ
  failure : Failure
  deriving Repr

/-- Goes on with a result, or is cut short in a given state. -/
def Interrupted.guard {σ α : Type} (state : σ) (result : Except Failure α) : Except (Interrupted σ) α :=
  result.mapError fun failure => ⟨state, failure⟩

@[simp] theorem Interrupted.guard_ok {σ α : Type} (state : σ) (a : α) : Interrupted.guard state (.ok a) = .ok a :=
  rfl

@[simp] theorem Interrupted.guard_error {σ α : Type} (state : σ) (failure : Failure) :
    Interrupted.guard (α := α) state (.error failure) = .error ⟨state, failure⟩ :=
  rfl

/-- What two steps fail with is what the first fails with, or else the second. -/
theorem mapError_bind {ε ε' α β : Type} (f : ε → ε') (x : Except ε α) (g : α → Except ε β) :
    (x >>= g).mapError f = x.mapError f >>= fun a => (g a).mapError f := by
  cases x with
  | error e => rfl
  | ok a => rfl

/-- Without the state it leaves behind, guarded work is the work itself. -/
theorem Interrupted.mapError_guard_bind {σ α β : Type} (state : σ) (x : Except Failure α)
    (f : α → Except (Interrupted σ) β) :
    (Interrupted.guard state x >>= f).mapError Interrupted.failure = x >>= fun a => (f a).mapError Interrupted.failure := by
  cases x with
  | error failure => rfl
  | ok a => rfl

/-- Work that ends in no failure has its result, whatever state it would have left behind. -/
theorem Interrupted.eq_ok_of_mapError {σ α : Type} {x : Except (Interrupted σ) α} {a : α}
    (h : x.mapError Interrupted.failure = .ok a) : x = .ok a := by
  cases x with
  | error e => cases h
  | ok b => exact congrArg Except.ok (Except.ok.inj h)

end Lookback
