import Lookback.Proofs.History.Backlog
import Lookback.Proofs.History.Unread

/-!
# Fetching until nothing comes

A reader that repeats one request of a history nobody writes to gets batches until a read brings nothing (`Fetches`). How many
batches these are, the number of values unread at the start tells. A continuous reader with a cursor that marks a past insertion
takes the unread values in order: all of them, or as many full batches as they make (`exists_fetches_continuous`). Any other
reader has one batch of the newest values, if enough are unread, and is then at the end of the past (`exists_fetches_newest`).

The cursor 0 marks nothing, and a read with it sees the newest values again and again. No read that brings something leaves that
cursor behind: it leaves the place behind the last value of its batch, which is not the first place of the past.
-/

namespace Lookback

/-- The number of values unread at `cursor`, of a past of so many values of which the last `held` are held. -/
def unreadValues (length held cursor : Nat) : Nat := min (insertionsSince length cursor) held

theorem unreadValues_le (length held cursor : Nat) : unreadValues length held cursor ≤ held :=
  Nat.min_le_right _ _

/-- Counted back from the end of the past, as many values are unread as are behind the cursor. -/
theorem unreadValues_back {length held low : Nat} (hfew : length ≤ lastWord) (hlow : low ≤ held) (hheld : held ≤ length) :
    unreadValues length held (length - low) = low := by
  rw [unreadValues, insertionsSince_of_le (Nat.sub_le _ _) hfew]
  omega

namespace Request

variable {α : Type} {q : Request} {past : List α} {held cursor w : Nat}

/-- The least number of unread values of which a request brings something. -/
def enough (q : Request) : Nat := if q.exact then q.amount else 1

/-- The number of batches that a continuous reader takes from `w` unread values. -/
def rounds (q : Request) (w : Nat) : Nat := if q.exact then w / q.amount else (w + q.amount - 1) / q.amount

/-- The number of values that a continuous reader leaves of `w` unread ones. -/
def rest (q : Request) (w : Nat) : Nat := if q.exact then w % q.amount else 0

theorem enough_pos (hamount : q.amount ≠ 0) : 0 < q.enough := by
  unfold enough
  split <;> omega

theorem rest_le (q : Request) (w : Nat) : q.rest w ≤ w := by
  unfold rest
  split
  · exact Nat.mod_le _ _
  · exact Nat.zero_le _

/-- Too few values for a batch are all left. -/
theorem rounds_of_few (hfew : w < q.enough) : q.rounds w = 0 ∧ q.rest w = w := by
  unfold enough at hfew
  cases hexact : q.exact with
  | true =>
    rw [hexact, if_pos rfl] at hfew
    simp only [rounds, rest, hexact, if_true]
    exact ⟨Nat.div_eq_of_lt hfew, Nat.mod_eq_of_lt hfew⟩
  | false =>
    obtain rfl : w = 0 := by simpa [hexact] using hfew
    simp only [rounds, rest, hexact, Bool.false_eq_true, if_false, and_true, Nat.zero_add]
    rcases Nat.eq_zero_or_pos q.amount with hzero | hpos
    · simp [hzero]
    · exact Nat.div_eq_of_lt (by omega)

/-- A batch counts one round, and the values behind it the others. -/
theorem rounds_of_enough (hamount : q.amount ≠ 0) (henough : q.enough ≤ w) :
    q.rounds w = q.rounds (w - q.amount) + 1 ∧ q.rest w = q.rest (w - q.amount) := by
  have hpos : 0 < q.amount := Nat.pos_of_ne_zero hamount
  unfold enough at henough
  cases hexact : q.exact with
  | true =>
    rw [hexact, if_pos rfl] at henough
    simp only [rounds, rest, hexact, if_true]
    exact ⟨Nat.div_eq_sub_div hpos henough, Nat.mod_eq_sub_mod henough⟩
  | false =>
    rw [hexact, if_neg Bool.false_ne_true] at henough
    simp only [rounds, rest, hexact, Bool.false_eq_true, if_false, and_true]
    rw [← Nat.add_div_right _ hpos]
    by_cases hover : q.amount ≤ w
    · congr 1
      omega
    · have hall : w - q.amount = 0 := by omega
      have hfirst : w + q.amount - 1 = w - 1 + q.amount := by omega
      rw [hall, Nat.zero_add, hfirst, Nat.add_div_right _ hpos, Nat.div_eq_of_lt (by omega),
        Nat.add_div_right _ hpos, Nat.div_eq_of_lt (by omega)]

/-! ## One answer -/

/-- Where too few values are unread for a batch, an answer brings nothing and changes nothing. -/
theorem answer_of_few (hamount : q.amount ≠ 0) (hheld : held ≤ past.length) (hlength : past.length ≤ lastWord)
    (hcursor : cursor ≤ lastWord) (hfew : unreadValues past.length held cursor < q.enough) :
    ∃ last ≤ lastWord, q.answer past held cursor = ⟨[], last⟩ ∧
      unreadValues past.length held last = unreadValues past.length held cursor := by
  unfold enough at hfew
  by_cases hshort : q.exact = true ∧ min (insertionsSince past.length cursor) held < q.amount
  · exact ⟨cursor, hcursor, answer_of_short hamount hshort, rfl⟩
  · have hany : q.exact = false := by
      cases hexact : q.exact with
      | true =>
        rw [hexact, if_pos rfl] at hfew
        exact absurd ⟨hexact, hfew⟩ hshort
      | false => rfl
    have hnone : unreadValues past.length held cursor = 0 := by simpa [hany] using hfew
    have hforetold := min_openValues hheld hlength hcursor q.amount
    unfold unreadValues at hnone
    refine ⟨past.length, hlength, answer_of_none_open hamount hshort (by omega), ?_⟩
    rw [unreadValues, unreadValues, hnone, insertionsSince_of_le (Nat.le_refl _) hlength]
    omega

/-- Where enough values are unread, a request is not refused. -/
theorem granted_of_enough (henough : q.enough ≤ unreadValues past.length held cursor) :
    ¬(q.exact = true ∧ min (insertionsSince past.length cursor) held < q.amount) := by
  rintro ⟨hexact, hshort⟩
  rw [enough, if_pos hexact] at henough
  exact absurd hshort (Nat.not_lt.mpr henough)

/-- Where enough values are unread, a continuous request from a cursor that marks a past insertion brings the first of them. -/
theorem answer_of_continuous (hamount : q.amount ≠ 0) (hmode : q.mode = .continuous) (hheld : held ≤ past.length)
    (hlength : past.length ≤ lastWord) (hpos : 0 < cursor) (hcursor : cursor ≤ past.length)
    (henough : q.enough ≤ unreadValues past.length held cursor) :
    q.answer past held cursor =
      ⟨past.extract (past.length - unreadValues past.length held cursor)
          (past.length - (unreadValues past.length held cursor - q.amount)),
        past.length - (unreadValues past.length held cursor - q.amount)⟩ := by
  have hopen : openValues past.length held q.amount cursor = unreadValues past.length held cursor := by
    rw [unreadValues, insertionsSince_of_le hcursor hlength]
    exact if_pos ⟨hpos, hcursor⟩
  have hsome := enough_pos hamount
  rw [answer_of_open hamount (granted_of_enough henough) (by omega) hheld, hopen]
  simp only [window, hmode]

/-- Where enough values are unread, any other request brings the newest values, and leaves none unread. -/
theorem answer_of_newest (hamount : q.amount ≠ 0) (hheld : held ≤ past.length) (hlength : past.length ≤ lastWord)
    (hcursor : cursor ≤ lastWord) (hnewest : q.mode = .windowed ∨ cursor = 0 ∨ past.length < cursor)
    (henough : q.enough ≤ unreadValues past.length held cursor) :
    q.answer past held cursor =
      ⟨past.extract (past.length - min q.amount (unreadValues past.length held cursor)) past.length, past.length⟩ := by
  have hforetold := min_openValues hheld hlength hcursor q.amount
  have hsome := enough_pos hamount
  unfold unreadValues at henough ⊢
  rw [answer_of_open hamount (granted_of_enough henough) (by omega) hheld, ← hforetold]
  cases hmode : q.mode with
  | windowed => simp only [window, hmode, Nat.sub_zero, Nat.min_comm]
  | continuous =>
    have hstray : cursor = 0 ∨ past.length < cursor := by simpa [hmode] using hnewest
    have hopen : openValues past.length held q.amount cursor = min q.amount held := if_neg (by omega)
    have hwhole : min q.amount held - q.amount = 0 := by omega
    simp only [window, hmode, hopen, hwhole, Nat.sub_zero, ← Nat.min_assoc, Nat.min_self]

end Request

namespace History

variable {α : Type} {h : History α} {q : Request} {past : List α} {recent cursor last : Nat} {batches : List (List α)}

/-- Reads of an unchanged history with one request until one brings nothing: the cursor before, the batches of the reads that bring
something, and the cursor after. -/
inductive Fetches (h : History α) (q : Request) : Nat → List (List α) → Nat → Prop where
  | stop {cursor last : Nat} (read_eq : h.read q cursor = .ok ⟨[], last⟩) : Fetches h q cursor [] last
  | more {cursor next last : Nat} {batch : List α} {later : List (List α)} (read_eq : h.read q cursor = .ok ⟨batch, next⟩)
      (some : batch ≠ []) (rest : Fetches h q next later last) : Fetches h q cursor (batch :: later) last

/-- Each batch takes from what is open to the reader. -/
theorem Fetches.length_le (hf : Fetches h q cursor batches last) (hrec : h.ring.Records 0 past recent)
    (hlength : past.length ≤ lastWord) (hcursor : cursor ≤ lastWord) :
    batches.length ≤ openValues past.length h.size q.amount cursor := by
  have hheld : h.size ≤ past.length := hrec.live_le_length
  induction hf with
  | stop _ => exact Nat.zero_le _
  | @more cursor next last batch later read_eq some rest ih =>
    have hread := hrec.read_eq_answer (cursor_eq_length hrec hlength) q hcursor
    have hanswer : q.answer past h.size cursor = ⟨batch, next⟩ := Except.ok.inj (hread.symm.trans read_eq)
    have hbatch : (q.answer past h.size cursor).batch ≠ [] := by
      rw [hanswer]
      exact some
    have hle : (q.answer past h.size cursor).cursor ≤ max cursor past.length := Request.answer_cursor_le_max hheld
    have hless := Request.openValues_answer_lt hheld hbatch
    simp only [hanswer] at hle hless
    have hrest := ih (Nat.le_trans hle (Nat.max_le.mpr ⟨hcursor, hlength⟩))
    exact Nat.lt_of_le_of_lt hrest hless

/-- Where too few values are unread for a batch, nothing comes and nothing changes. -/
theorem fetches_of_few (hrec : h.ring.Records 0 past recent) (hlength : past.length ≤ lastWord) (hamount : q.amount ≠ 0)
    (hcursor : cursor ≤ lastWord) (hfew : unreadValues past.length h.size cursor < q.enough) :
    ∃ last ≤ lastWord, Fetches h q cursor [] last ∧
      unreadValues past.length h.size last = unreadValues past.length h.size cursor := by
  obtain ⟨last, hlast, hanswer, hunread⟩ := Request.answer_of_few hamount hrec.live_le_length hlength hcursor hfew
  have hread := hrec.read_eq_answer (cursor_eq_length hrec hlength) q hcursor
  rw [hanswer] at hread
  exact ⟨last, hlast, .stop hread, hunread⟩

/-- One round of a continuous reader with a cursor that marks a past insertion: it takes the first of the unread values, leaves the
others, and its next cursor marks a past insertion again. -/
theorem read_round (hrec : h.ring.Records 0 past recent) (hlength : past.length ≤ lastWord) (hamount : q.amount ≠ 0)
    (hmode : q.mode = .continuous) (hpos : 0 < cursor) (hcursor : cursor ≤ past.length) {w : Nat}
    (hw : unreadValues past.length h.size cursor = w) (henough : q.enough ≤ w) :
    h.read q cursor = .ok ⟨past.extract (past.length - w) (past.length - (w - q.amount)), past.length - (w - q.amount)⟩ ∧
      past.extract (past.length - w) (past.length - (w - q.amount)) ≠ [] ∧ 0 < past.length - (w - q.amount) ∧
      unreadValues past.length h.size (past.length - (w - q.amount)) = w - q.amount := by
  have hheld : h.size ≤ past.length := hrec.live_le_length
  have hsome := Request.enough_pos hamount
  have hunread := unreadValues_le past.length h.size cursor
  have hread := hrec.read_eq_answer (cursor_eq_length hrec hlength) q (Nat.le_trans hcursor hlength)
  have hanswer := Request.answer_of_continuous hamount hmode hheld hlength hpos hcursor (by rw [hw]; exact henough)
  have hbatch := Stretch.length_extract (i := past.length - w) (Nat.sub_le past.length (w - q.amount))
  rw [hw] at hanswer hunread
  refine ⟨hread.trans (congrArg Except.ok hanswer), ?_, by omega, unreadValues_back hlength (by omega) hheld⟩
  intro hnone
  rw [hnone, List.length_nil] at hbatch
  omega

/-- A continuous reader with a cursor that marks a past insertion takes the unread values in order, round after round. -/
theorem exists_fetches_continuous (hrec : h.ring.Records 0 past recent) (hlength : past.length ≤ lastWord)
    (hamount : q.amount ≠ 0) (hmode : q.mode = .continuous) (hpos : 0 < cursor) (hcursor : cursor ≤ past.length) {w : Nat}
    (hw : unreadValues past.length h.size cursor = w) :
    ∃ batches, ∃ last ≤ lastWord, Fetches h q cursor batches last ∧ batches.length = q.rounds w ∧
      batches.flatten = past.extract (past.length - w) (past.length - q.rest w) ∧
      unreadValues past.length h.size last = q.rest w := by
  induction w using Nat.strongRecOn generalizing cursor with
  | ind w ih =>
    by_cases henough : q.enough ≤ w
    · obtain ⟨hread, hsome, hnext, hleft⟩ := read_round hrec hlength hamount hmode hpos hcursor hw henough
      obtain ⟨hrounds, hrest⟩ := Request.rounds_of_enough hamount henough
      have hpositive := Request.enough_pos hamount
      obtain ⟨batches, last, hlast, hfetches, hcount, hflatten, hunread⟩ :=
        ih (w - q.amount) (by omega) hnext (Nat.sub_le _ _) hleft
      have hbehind := q.rest_le (w - q.amount)
      refine ⟨_, last, hlast, .more hread hsome hfetches, ?_, ?_, ?_⟩
      · rw [List.length_cons, hcount, hrounds]
      · rw [List.flatten_cons, hflatten, Stretch.extract_append_extract (by omega) (by omega), hrest]
      · rw [hunread, hrest]
    · have hfew := Nat.lt_of_not_le henough
      obtain ⟨hrounds, hrest⟩ := Request.rounds_of_few hfew
      obtain ⟨last, hlast, hfetches, hunread⟩ :=
        fetches_of_few hrec hlength hamount (Nat.le_trans hcursor hlength) (by rw [hw]; exact hfew)
      refine ⟨[], last, hlast, hfetches, hrounds.symm, ?_, ?_⟩
      · rw [hrest, Stretch.extract_self]
        rfl
      · rw [hunread, hw, hrest]

/-- Any other reader gets one batch of the newest values, if enough are unread. -/
theorem exists_fetches_newest (hrec : h.ring.Records 0 past recent) (hlength : past.length ≤ lastWord)
    (hamount : q.amount ≠ 0) (hnewest : q.mode = .windowed ∨ cursor = 0 ∨ past.length < cursor) (hcursor : cursor ≤ lastWord) :
    ∃ batches, ∃ last ≤ lastWord, Fetches h q cursor batches last ∧
      batches.length = if q.enough ≤ unreadValues past.length h.size cursor then 1 else 0 := by
  have hheld : h.size ≤ past.length := hrec.live_le_length
  by_cases henough : q.enough ≤ unreadValues past.length h.size cursor
  · have hsome := Request.enough_pos hamount
    have hread := hrec.read_eq_answer (cursor_eq_length hrec hlength) q hcursor
    have hanswer := Request.answer_of_newest hamount hheld hlength hcursor hnewest henough
    have hnone : unreadValues past.length h.size past.length = 0 := unreadValues_back hlength (Nat.zero_le _) hheld
    obtain ⟨last, hlast, hfetches, -⟩ :=
      fetches_of_few hrec hlength hamount hlength (by rw [hnone]; exact hsome)
    have hread' := hread.trans (congrArg Except.ok hanswer)
    have hbatch := Stretch.length_extract
      (i := past.length - min q.amount (unreadValues past.length h.size cursor)) (Nat.le_refl past.length)
    have hunread := unreadValues_le past.length h.size cursor
    refine ⟨_, last, hlast, .more hread' ?_ hfetches, ?_⟩
    · intro hempty
      rw [hempty, List.length_nil] at hbatch
      omega
    · rw [if_pos henough]
      rfl
  · obtain ⟨last, hlast, hfetches, -⟩ := fetches_of_few hrec hlength hamount hcursor (Nat.lt_of_not_le henough)
    refine ⟨[], last, hlast, hfetches, ?_⟩
    rw [if_neg henough]
    rfl

/-- What a reader gets who fetches until nothing comes, where `w` values were unread at the start: with a cursor that marks a past
insertion a continuous reader gets all of these, or as many full batches as they make; any other reader gets one batch, if enough
are unread. -/
structure Fetched (h : History α) (q : Request) (past : List α) (cursor w : Nat) (batches : List (List α)) (last : Nat) :
    Prop where
  none_asked : q.amount = 0 → batches = []
  any_batches : q.amount ≠ 0 → q.mode = .continuous → 0 < cursor → cursor ≤ past.length → q.exact = false →
    batches.length = (w + q.amount - 1) / q.amount ∧ batches.flatten = past.drop (past.length - w)
  full_batches : q.amount ≠ 0 → q.mode = .continuous → 0 < cursor → cursor ≤ past.length → q.exact = true →
    batches.length = w / q.amount ∧ batches.flatten = (past.drop (past.length - w)).take (q.amount * (w / q.amount)) ∧
      h.unread last = .ok (w % q.amount)
  newest_batch : q.amount ≠ 0 → q.mode = .windowed ∨ cursor = 0 ∨ past.length < cursor →
    batches.length = if q.enough ≤ w then 1 else 0

/-- What is unread is counted from the past. -/
theorem unread_eq_unreadValues (hrec : h.ring.Records 0 past recent) (hlength : past.length ≤ lastWord)
    (hcursor : cursor ≤ lastWord) : h.unread cursor = .ok (unreadValues past.length h.size cursor) := by
  have hunread := Ring.unread_eq_ok hrec.written_le hcursor
  rwa [show h.ring.written = past.length from cursor_eq_length hrec hlength] at hunread

/-- What a continuous reader with a cursor that marks a past insertion gets, as the request has it. -/
theorem exists_fetched_continuous (hrec : h.ring.Records 0 past recent) (hlength : past.length ≤ lastWord)
    (hamount : q.amount ≠ 0) (hmode : q.mode = .continuous) (hpos : 0 < cursor) (hcursor : cursor ≤ past.length) :
    ∃ batches last, Fetches h q cursor batches last ∧
      Fetched h q past cursor (unreadValues past.length h.size cursor) batches last := by
  obtain ⟨batches, last, hlast, hfetches, hcount, hflatten, hleft⟩ :=
    exists_fetches_continuous hrec hlength hamount hmode hpos hcursor rfl
  have hunread := unreadValues_le past.length h.size cursor
  have hheld : h.size ≤ past.length := hrec.live_le_length
  refine ⟨batches, last, hfetches, ?_⟩
  constructor
  case none_asked => exact fun hzero => absurd hzero hamount
  case any_batches =>
    intro _ _ _ _ hany
    simp only [Request.rounds, Request.rest, hany, Bool.false_eq_true, if_false] at hcount hflatten
    refine ⟨hcount, ?_⟩
    rw [hflatten, List.extract_eq_take_drop, List.take_of_length_le (by rw [List.length_drop]; omega)]
  case full_batches =>
    intro _ _ _ _ hexact
    simp only [Request.rounds, Request.rest, hexact, if_true] at hcount hflatten hleft
    refine ⟨hcount, ?_, ?_⟩
    · have htaken := Nat.div_add_mod (unreadValues past.length h.size cursor) q.amount
      rw [hflatten, List.extract_eq_take_drop]
      congr 1
      omega
    · rw [unread_eq_unreadValues hrec hlength hlast, hleft]
  case newest_batch =>
    intro _ hnewest
    rcases hnewest with hwindowed | hzero | hahead
    · rw [hmode] at hwindowed
      nomatch hwindowed
    · omega
    · omega

/-- Every reader gets to a read that brings nothing, and by then what it should get. -/
theorem exists_fetched (hrec : h.ring.Records 0 past recent) (hlength : past.length ≤ lastWord) (q : Request)
    (hcursor : cursor ≤ lastWord) :
    ∃ batches last, Fetches h q cursor batches last ∧
      Fetched h q past cursor (unreadValues past.length h.size cursor) batches last := by
  by_cases hamount : q.amount = 0
  · have hread := hrec.read_eq_answer (cursor_eq_length hrec hlength) q hcursor
    rw [Request.answer_of_zero hamount] at hread
    exact ⟨[], past.length, .stop hread, fun _ => rfl, fun h => absurd hamount h, fun h => absurd hamount h,
      fun h => absurd hamount h⟩
  by_cases hmarks : q.mode = .continuous ∧ 0 < cursor ∧ cursor ≤ past.length
  · exact exists_fetched_continuous hrec hlength hamount hmarks.1 hmarks.2.1 hmarks.2.2
  · have hnewest : q.mode = .windowed ∨ cursor = 0 ∨ past.length < cursor := by
      cases hmode : q.mode with
      | windowed => exact Or.inl rfl
      | continuous =>
        simp only [hmode, true_and] at hmarks
        omega
    obtain ⟨batches, last, -, hfetches, hcount⟩ := exists_fetches_newest hrec hlength hamount hnewest hcursor
    exact ⟨batches, last, hfetches, fun h => absurd h hamount, fun _ hmode hpos hpast => absurd ⟨hmode, hpos, hpast⟩ hmarks,
      fun _ hmode hpos hpast => absurd ⟨hmode, hpos, hpast⟩ hmarks, fun _ _ => hcount⟩

end History

end Lookback
