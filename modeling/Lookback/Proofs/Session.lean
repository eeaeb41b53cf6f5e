import Lookback.Proofs.History.Cursors

/-!
# Sessions: one reader of a history that is being edited

A session is a history with one reader of it: edits and reads come in any order (`Event`), and each read starts from the
cursor that the one before it left. A session keeps a journal of its edits, and each read leaves a `Delivery`: what was
asked and brought, from which cursor, after which edits. The journal decides nothing; it is there to say what a read
should have brought.

`Follows` is the account of a run that needs no slots: the journal grows by the edits, the reads are answered from its
past. Every run of a session follows it as long as the counter does not come round (`run_follows`), so what holds of
these accounts holds of sessions.
-/

namespace Lookback

open History

/-- What one read of a session brought. -/
structure Delivery (α : Type) where
  /-- The edits made before the read. -/
  journal : List (Edit α)
  /-- What the reader asked for. -/
  request : Request
  /-- The cursor the reader came with. -/
  cursor : Nat
  /-- The batch and the cursor the reader left with. -/
  reading : Reading α

/-- A history with one reader, and the edits made so far. -/
structure Session (α : Type) where
  journal : List (Edit α)
  history : History α
  cursor : Nat

namespace Session

variable {α : Type}

/-- What happens in a session. -/
inductive Event (α : Type) where
  | edit (e : Edit α)
  | read (q : Request)

/-- The edits among events, in order. -/
def Event.edits : List (Event α) → List (Edit α)
  | [] => []
  | .edit e :: rest => e :: edits rest
  | .read _ :: rest => edits rest

theorem Event.edits_append (events events' : List (Event α)) :
    edits (events ++ events') = edits events ++ edits events' := by
  induction events with
  | nil => rfl
  | cons event rest ih => cases event <;> simp [edits, ih]

/-- One event, and the delivery it leaves if it is a read. -/
def step (s : Session α) : Event α → Except Failure (Session α × List (Delivery α))
  | .edit e => do
    let history ← s.history.edit e
    .ok (⟨s.journal ++ [e], history, s.cursor⟩, [])
  | .read q => do
    let reading ← s.history.read q s.cursor
    .ok ({ s with cursor := reading.cursor }, [⟨s.journal, q, s.cursor, reading⟩])

/-- Events in order, and the deliveries they leave. -/
def run (s : Session α) : List (Event α) → Except Failure (Session α × List (Delivery α))
  | [] => .ok (s, [])
  | e :: rest => do
    let (s, first) ← s.step e
    let (s, later) ← s.run rest
    .ok (s, first ++ later)

/-- All values inserted so far. -/
def past (s : Session α) : List α := Edit.inserted s.journal

/-! ## What a session should do -/

/-- The number of values that `capacity` slots still hold after the edits of a journal: those since the last clear, as far
as they were not overwritten. -/
def heldAfter (capacity : Nat) (journal : List (Edit α)) : Nat := min (Edit.sinceClear journal).length capacity

theorem heldAfter_le (capacity : Nat) (s : Session α) : heldAfter capacity s.journal ≤ s.past.length :=
  Nat.le_trans (Nat.min_le_left _ _) (Edit.sinceClear_suffix s.journal).length_le

/-- The value at place `j` of the past is still held: it is one of the last ones, as many as are held. -/
def Held (capacity : Nat) (journal : List (Edit α)) (j : Nat) : Prop :=
  j < (Edit.inserted journal).length ∧ (Edit.inserted journal).length ≤ j + heldAfter capacity journal

/-- Sessions with one journal have one past. -/
theorem past_eq {s s₁ : Session α} (h : s₁.journal = s.journal) : s₁.past = s.past := by
  rw [past, past, h]

/-- What a request should be answered now. -/
def answer (capacity : Nat) (s : Session α) (q : Request) : Reading α :=
  q.answer s.past (heldAfter capacity s.journal) s.cursor

/-- The account of a run in a history of `capacity` slots: from `s` to `t` by `events`, with the deliveries they leave. -/
inductive Follows (capacity : Nat) : Session α → List (Event α) → Session α → List (Delivery α) → Prop where
  | done (s : Session α) : Follows capacity s [] s []
  | edit {s s₁ t : Session α} {e : Edit α} {rest : List (Event α)} {ds : List (Delivery α)}
      (journal_eq : s₁.journal = s.journal ++ [e]) (cursor_eq : s₁.cursor = s.cursor) (later : Follows capacity s₁ rest t ds) :
      Follows capacity s (.edit e :: rest) t ds
  | read {s s₁ t : Session α} {q : Request} {rest : List (Event α)} {ds : List (Delivery α)}
      (journal_eq : s₁.journal = s.journal) (cursor_eq : s₁.cursor = (s.answer capacity q).cursor)
      (later : Follows capacity s₁ rest t ds) :
      Follows capacity s (.read q :: rest) t (⟨s.journal, q, s.cursor, s.answer capacity q⟩ :: ds)

/-- A session is sound if its history is what its journal makes of a new one, and its cursor is a word. -/
structure Sound (capacity : Nat) (s : Session α) : Prop where
  capacity_eq : s.history.capacity = capacity
  records : s.history.ring.Records 0 s.past (Edit.sinceClear s.journal).length
  cursor_le : s.cursor ≤ lastWord

variable {capacity : Nat} {s t : Session α} {events : List (Event α)} {ds : List (Delivery α)}

/-- The number of values held is that of the journal. -/
theorem Sound.size_eq (h : s.Sound capacity) : s.history.size = heldAfter capacity s.journal := by
  rw [size, h.records.live_eq, heldAfter, ← h.capacity_eq, History.capacity]

/-- An edit of a sound session goes into its journal. -/
theorem Sound.step_edit (h : s.Sound capacity) (e : Edit α) :
    ∃ s₁, s.step (.edit e) = .ok (s₁, []) ∧ s₁.Sound capacity ∧ s₁.journal = s.journal ++ [e] ∧ s₁.cursor = s.cursor := by
  obtain ⟨history, hedit, hcapacity, hrec⟩ := edit_eq_ok h.records e
  refine ⟨⟨s.journal ++ [e], history, s.cursor⟩, ?_, ⟨hcapacity.trans h.capacity_eq, ?_, h.cursor_le⟩, rfl, rfl⟩
  · rw [step, hedit, ok_bind]
  · simpa [past] using hrec

/-- A read of a sound session is answered from its past, and the cursor it leaves is a word again. -/
theorem Sound.step_read (h : s.Sound capacity) (hfew : s.past.length ≤ lastWord) (q : Request) :
    ∃ s₁, s.step (.read q) = .ok (s₁, [⟨s.journal, q, s.cursor, s.answer capacity q⟩]) ∧ s₁.Sound capacity ∧
      s₁.journal = s.journal ∧ s₁.cursor = (s.answer capacity q).cursor := by
  have hread : s.history.read q s.cursor = .ok (s.answer capacity q) := by
    rw [answer, ← h.size_eq]
    exact h.records.read_eq_answer (cursor_eq_length h.records hfew) q h.cursor_le
  have hnext : (s.answer capacity q).cursor ≤ lastWord :=
    Nat.le_trans (Request.answer_cursor_le_max (heldAfter_le capacity s)) (Nat.max_le.mpr ⟨h.cursor_le, hfew⟩)
  refine ⟨{ s with cursor := (s.answer capacity q).cursor }, ?_, ⟨h.capacity_eq, h.records, hnext⟩, rfl, rfl⟩
  rw [step, hread, ok_bind]

/-- Every run of a sound session, fewer than `2 ^ 64` insertions in all, succeeds and follows its account. -/
theorem run_follows (h : s.Sound capacity)
    (hfew : (Edit.inserted (s.journal ++ Event.edits events)).length ≤ lastWord) :
    ∃ t ds, s.run events = .ok (t, ds) ∧ t.Sound capacity ∧ Follows capacity s events t ds := by
  induction events generalizing s with
  | nil => exact ⟨s, [], rfl, h, .done s⟩
  | cons event rest ih =>
    cases event with
    | edit e =>
      obtain ⟨s₁, hstep, h₁, hjournal, hcursor⟩ := h.step_edit e
      have hfew₁ : (Edit.inserted (s₁.journal ++ Event.edits rest)).length ≤ lastWord := by
        rw [hjournal, List.append_assoc]
        exact hfew
      obtain ⟨t, ds, hrun, ht, hfollows⟩ := ih h₁ hfew₁
      refine ⟨t, ds, ?_, ht, .edit hjournal hcursor hfollows⟩
      rw [run, hstep, ok_bind]
      simp only [hrun, ok_bind, List.nil_append]
    | read q =>
      have hfew₀ : s.past.length ≤ lastWord := by
        rw [Edit.inserted_append, List.length_append] at hfew
        exact Nat.le_trans (Nat.le_add_right _ _) hfew
      obtain ⟨s₁, hstep, h₁, hjournal, hcursor⟩ := h.step_read hfew₀ q
      have hfew₁ : (Edit.inserted (s₁.journal ++ Event.edits rest)).length ≤ lastWord := by
        rw [hjournal]
        exact hfew
      obtain ⟨t, ds, hrun, ht, hfollows⟩ := ih h₁ hfew₁
      refine ⟨t, _, ?_, ht, .read hjournal hcursor hfollows⟩
      rw [run, hstep, ok_bind]
      simp only [hrun, ok_bind, List.singleton_append]

/-- Edits of a new history and then a run, fewer than `2 ^ 64` insertions in all, succeed, and the run follows its account. -/
theorem exists_run (hpos : 0 < capacity) (hfit : capacity ≤ lastWord) (es : List (Edit α)) (events : List (Event α))
    {cursor : Nat} (hcursor : cursor ≤ lastWord)
    (hfew : (Edit.inserted (es ++ Event.edits events)).length ≤ lastWord) :
    ∃ h t ds, (empty capacity).edits es = .ok h ∧ (⟨es, h, cursor⟩ : Session α).run events = .ok (t, ds) ∧
      t.Sound capacity ∧ Follows capacity ⟨es, h, cursor⟩ events t ds := by
  obtain ⟨h, hedits, hcapacity, hrec⟩ := edits_empty hpos hfit es
  have hsound : (⟨es, h, cursor⟩ : Session α).Sound capacity := ⟨hcapacity, hrec, hcursor⟩
  obtain ⟨t, ds, hrun, ht, hfollows⟩ := run_follows hsound hfew
  exact ⟨h, t, ds, hedits, hrun, ht, hfollows⟩

/-! ## Parts of a run -/

/-- A run adds its edits to the journal. -/
theorem Follows.journal_eq (h : Follows capacity s events t ds) : t.journal = s.journal ++ Event.edits events := by
  induction h with
  | done s => simp [Event.edits]
  | edit hjournal _ _ ih => rw [ih, hjournal, Event.edits, List.append_assoc, List.singleton_append]
  | read hjournal _ _ ih => rw [ih, hjournal, Event.edits]

/-- A run adds to the past. -/
theorem Follows.past_prefix (h : Follows capacity s events t ds) : s.past <+: t.past := by
  rw [past, past, h.journal_eq, Edit.inserted_append]
  exact List.prefix_append _ _

/-- A run may go on with another. -/
theorem Follows.append {u : Session α} {events' : List (Event α)} {ds' : List (Delivery α)}
    (h : Follows capacity s events t ds) (h' : Follows capacity t events' u ds') :
    Follows capacity s (events ++ events') u (ds ++ ds') := by
  induction h with
  | done s => exact h'
  | edit hjournal hcursor _ ih => exact .edit hjournal hcursor (ih h')
  | read hjournal hcursor _ ih => exact .read hjournal hcursor (ih h')

/-- Every delivery was made at one moment of the run: by a read in a session `u` that the run came to, and it left the session
`u₁` from which the run went on. -/
theorem Follows.moment (h : Follows capacity s events t ds) {d : Delivery α} (hd : d ∈ ds) :
    ∃ u u₁ : Session α, (∃ events₁ ds₁, Follows capacity s events₁ u ds₁) ∧
      d = ⟨u.journal, d.request, u.cursor, u.answer capacity d.request⟩ ∧ u₁.journal = u.journal ∧
      u₁.cursor = d.reading.cursor ∧ ∃ events₂ ds₂, Follows capacity u₁ events₂ t ds₂ := by
  induction h with
  | done s => exact absurd hd List.not_mem_nil
  | edit hjournal hcursor _ ih =>
    obtain ⟨u, u₁, ⟨_, _, hbefore⟩, hrest⟩ := ih hd
    exact ⟨u, u₁, ⟨_, _, .edit hjournal hcursor hbefore⟩, hrest⟩
  | @read s s₁ t q rest ds hjournal hcursor hlater ih =>
    rcases List.mem_cons.mp hd with rfl | hd
    · exact ⟨s, s₁, ⟨[], [], .done s⟩, rfl, hjournal, hcursor, rest, ds, hlater⟩
    · obtain ⟨u, u₁, ⟨_, _, hbefore⟩, hrest⟩ := ih hd
      exact ⟨u, u₁, ⟨_, _, .read hjournal hcursor hbefore⟩, hrest⟩

/-- A delivery answers one of the requests made. -/
theorem Follows.mem_events (h : Follows capacity s events t ds) {d : Delivery α} (hd : d ∈ ds) :
    Event.read d.request ∈ events := by
  induction h with
  | done s => exact absurd hd List.not_mem_nil
  | edit _ _ _ ih => exact List.mem_cons_of_mem _ (ih hd)
  | read _ _ _ ih =>
    rcases List.mem_cons.mp hd with rfl | hd
    · exact List.mem_cons_self
    · exact List.mem_cons_of_mem _ (ih hd)

/-! ## The cursor of a run -/

/-- A cursor within the past moves on with each answer, past nothing of the batch, and stays within the past. -/
theorem answer_cursor (capacity : Nat) (hs : s.cursor ≤ s.past.length) (q : Request) :
    s.cursor ≤ (s.answer capacity q).first ∧ (s.answer capacity q).first ≤ (s.answer capacity q).cursor ∧
      (s.answer capacity q).cursor ≤ s.past.length :=
  Request.answer_cursor (heldAfter_le capacity s) hs

/-- An edit leaves a cursor within the past there. -/
theorem cursor_le_of_edit {s₁ : Session α} {e : Edit α} (hjournal : s₁.journal = s.journal ++ [e])
    (hcursor : s₁.cursor = s.cursor) (hs : s.cursor ≤ s.past.length) : s₁.cursor ≤ s₁.past.length := by
  rw [hcursor, past, hjournal, Edit.inserted_append, List.length_append]
  exact Nat.le_trans hs (Nat.le_add_right _ _)

/-- A read leaves a cursor within the past there. -/
theorem cursor_le_of_read {s₁ : Session α} {q : Request} (hjournal : s₁.journal = s.journal)
    (hcursor : s₁.cursor = (s.answer capacity q).cursor) (hs : s.cursor ≤ s.past.length) :
    s₁.cursor ≤ s₁.past.length := by
  rw [hcursor, past_eq hjournal]
  exact (answer_cursor capacity hs q).2.2

/-- A cursor within the past moves on, and stays within the past. -/
theorem Follows.cursor_le (h : Follows capacity s events t ds) (hs : s.cursor ≤ s.past.length) :
    s.cursor ≤ t.cursor ∧ t.cursor ≤ t.past.length := by
  induction h with
  | done s => exact ⟨Nat.le_refl _, hs⟩
  | edit hjournal hcursor _ ih =>
    rw [← hcursor]
    exact ih (cursor_le_of_edit hjournal hcursor hs)
  | @read s s₁ t q rest ds hjournal hcursor _ ih =>
    obtain ⟨hfirst, hlast, -⟩ := answer_cursor capacity hs q
    obtain ⟨hmove, hwithin⟩ := ih (cursor_le_of_read hjournal hcursor hs)
    rw [hcursor] at hmove
    exact ⟨Nat.le_trans (Nat.le_trans hfirst hlast) hmove, hwithin⟩

/-- A read of a run comes with a cursor no earlier than the first one, and brings nothing from before its own cursor. -/
theorem Follows.cursor_le_first (h : Follows capacity s events t ds) (hs : s.cursor ≤ s.past.length) {d : Delivery α}
    (hd : d ∈ ds) : s.cursor ≤ d.cursor ∧ d.cursor ≤ d.reading.first := by
  obtain ⟨u, u₁, ⟨_, _, hbefore⟩, hread, -⟩ := h.moment hd
  obtain ⟨hmove, hwithin⟩ := hbefore.cursor_le hs
  rw [hread]
  exact ⟨hmove, (answer_cursor capacity hwithin d.request).1⟩

end Session

end Lookback
