import Mathlib.Algebra.BigOperators.Ring.List
import Mathlib.Algebra.Group.Hom.Defs
import Mathlib.Algebra.Order.BigOperators.Group.List
import Mathlib.Tactic.Linarith
import Py20305.History.Intervals
import Py20305.Lib.Spans

/-!
Interval integration conserves energy.

What a step adds to the buckets is `recorded`; whatever is additive in the sums is
conserved by writing, flushing and the writer thread (`weigh_step`). The time a device
holds its readings is a list of gaps, read off the calls alone (`Hold`), and the
recorded pieces of a gap cover it once (`weigh_pieces`).
-/

namespace Py20305.Intervals

section Weights

variable {s : Settings} {h : History}

/-- A measure of rows that is additive in their sums. -/
abbrev Weight := Key → Sums →+ ℚ

def weigh (φ : Weight) (rows : List Row) : ℚ := (rows.map fun r => φ r.1 r.2).sum

@[simp] theorem weigh_nil (φ : Weight) : weigh φ [] = 0 := rfl

@[simp] theorem weigh_cons (φ : Weight) (r : Row) (rows : List Row) :
    weigh φ (r :: rows) = φ r.1 r.2 + weigh φ rows := by
  simp [weigh]

@[simp] theorem weigh_append (φ : Weight) (a b : List Row) :
    weigh φ (a ++ b) = weigh φ a + weigh φ b := by
  simp [weigh]

/-- Every row handed to the database. -/
def Database.rows (db : Database) : List Row := db.accepted.flatten ++ db.refused

/-- Every bucket of the history: those handed to the database and those in memory. -/
def History.rows (h : History) : List Row := h.db.rows ++ h.openBuckets.map Bucket.row

/-- What the buckets of a device weigh. -/
def Device.weigh (φ : Weight) (name : String) (d : Device) : ℚ :=
  (d.buckets.entries.map fun e => φ (name, e.1) e.2.sums).sum

theorem weigh_keyed (φ : Weight) (name : String) (es : List (ℚ × Bucket)) :
    weigh φ ((keyed name es).map Bucket.row) =
      (es.map fun e => φ (name, e.1) e.2.sums).sum := by
  simp [Intervals.weigh, keyed, Bucket.row, Function.comp_def]

theorem weigh_open (φ : Weight) (h : History) :
    weigh φ (h.openBuckets.map Bucket.row) =
      (h.devices.entries.map fun e => e.2.weigh φ e.1).sum := by
  rw [History.openBuckets]
  induction h.devices.entries with
  | nil => rfl
  | cons e rest ih =>
      rw [List.flatMap_cons, List.map_append, weigh_append, ih, weigh_keyed, List.map_cons,
        List.sum_cons]
      rfl

theorem weigh_rows (φ : Weight) (h : History) :
    weigh φ h.rows = weigh φ h.db.rows + (h.devices.entries.map fun e => e.2.weigh φ e.1).sum := by
  rw [History.rows, weigh_append, weigh_open]

theorem weigh_queueBatch (φ : Weight) (db : Database) (rows : List Row) :
    weigh φ (db.queueBatch rows).2.rows = weigh φ db.rows + weigh φ rows := by
  unfold Database.queueBatch
  split_ifs <;> simp [Database.rows] <;> ring

/-- Writing hands every row to the database. -/
theorem weigh_write (φ : Weight) (h : History) (done : List (Key × Bucket)) :
    weigh φ (h.write done).db.rows = weigh φ h.db.rows + weigh φ (done.map Bucket.row) := by
  by_cases none_done : done = []
  · subst none_done
    simp [History.write]
  · rw [db_write h done none_done, weigh_queueBatch]

/-- A device whose buckets were changed replaces the one stored under its name. -/
theorem weigh_setDevice (φ : Weight) (ds : Dict String Device) (name : String) (d : Device) :
    ((ds.set name d).entries.map fun e => e.2.weigh φ e.1).sum +
        (ds.getD name {}).weigh φ name =
      (ds.entries.map fun e => e.2.weigh φ e.1).sum + d.weigh φ name := by
  have changed := ds.sum_set (fun e => e.2.weigh φ e.1) name d
  rw [← changed, Dict.getD]
  cases ds.get? name <;> simp [Device.weigh, Dict.empty]

theorem weigh_flushBefore (φ : Weight) (h : History) (name : String) (d : Device) (start : ℚ) :
    weigh φ (h.flushBefore name d start).rows + (h.devices.getD name {}).weigh φ name =
      weigh φ h.rows + d.weigh φ name := by
  have split_up : d.weigh φ name =
      weigh φ ((keyed name ((d.buckets.entries.filter fun e => decide (e.1 < start)).mergeSort
        fun a b => decide (a.1 ≤ b.1))).map Bucket.row) +
      Device.weigh φ name
        { d with buckets := d.buckets.filter fun t _ => !decide (t < start) } := by
    have halves := List.filter_append_perm (fun e : ℚ × Bucket => decide (e.1 < start))
      d.buckets.entries
    have sorted := (d.buckets.entries.filter fun e => decide (e.1 < start)).mergeSort_perm
      fun a b => decide (a.1 ≤ b.1)
    rw [weigh_keyed, (sorted.map _).sum_eq, Device.weigh, ← (halves.map _).sum_eq,
      List.map_append, List.sum_append]
    rfl
  have replaced := weigh_setDevice φ h.devices name
    { d with buckets := d.buckets.filter fun t _ => !decide (t < start) }
  rw [split_up, weigh_rows, weigh_rows, History.flushBefore, weigh_write, devices_write]
  linarith

theorem weigh_deposit (φ : Weight) (name : String) (d : Device) (start : ℚ) (reading : ℕ)
    {f : Sums → Sums} {δ : Sums} (adds : ∀ b, f b = b + δ) :
    (d.deposit start reading f).weigh φ name = d.weigh φ name + φ (name, start) δ := by
  have changed := d.buckets.sum_set (fun e => φ (name, e.1) e.2.sums) start
    { d.buckets.getD start ⟨0, reading⟩ with
      sums := f (d.buckets.getD start ⟨0, reading⟩).sums }
  rw [Device.weigh, Device.weigh, Device.deposit]
  simp only [Dict.getD, adds, map_add] at changed ⊢
  cases found : d.buckets.get? start <;> simp [found] at changed ⊢ <;> linarith

theorem weigh_holdUntil (φ : Weight) (name : String) (avail : Option ℚ) (reading : ℕ) (t1 : ℚ)
    (turns : ℕ) (t0 : ℚ) (d : Device) :
    (d.holdUntil s avail reading t1 turns t0).weigh φ name =
      d.weigh φ name + weigh φ ((s.piecesFrom t1 turns t0).map fun (start, dt) =>
        ((name, start), Sums.hold 0 d.w d.var avail dt)) := by
  induction turns generalizing t0 d with
  | zero => simp [Device.holdUntil, Settings.piecesFrom]
  | succ turns ih =>
      simp only [Device.holdUntil, Settings.piecesFrom]
      split
      · rw [ih, weigh_deposit φ name d _ _ fun b => Sums.hold_eq_add b _ _ _ _]
        simp only [w_deposit, var_deposit, List.map_cons, weigh_cons]
        ring
      · simp

theorem weigh_integrate (φ : Weight) (name : String) (d : Device) (reading : ℕ) (t0 t1 : ℚ) :
    (d.integrate s reading t0 t1).weigh φ name =
      d.weigh φ name + weigh φ (d.heldRows s name t0 t1) :=
  weigh_holdUntil φ name _ reading t1 _ t0 d

theorem weigh_reading (φ : Weight) (name : String) (d : Device) (reading : ℕ) (t : ℚ)
    (w var : Value) :
    ((d.heldTo s reading t).takeReading s reading t w var).weigh φ name =
      d.weigh φ name + weigh φ (d.readRows s name t w) := by
  have held : (d.heldTo s reading t).weigh φ name =
      d.weigh φ name + weigh φ (d.bridgedRows s name t) := by
    unfold Device.heldTo Device.bridgedRows
    cases d.seenAt with
    | none => simp
    | some t0 =>
        by_cases near : t - t0 ≤ s.maxGapSeconds
        · simp only [near, if_true]
          exact weigh_integrate φ name d reading t0 t
        · simp [near]
  have noted := weigh_deposit φ name
    { d.heldTo s reading t with seenAt := some t, w := number w, var := number var }
    (s.floor t) reading fun b => Sums.sample_eq_add b (number w)
  have unread : Device.weigh φ name
      { d.heldTo s reading t with seenAt := some t, w := number w, var := number var } =
      (d.heldTo s reading t).weigh φ name := rfl
  rw [Device.takeReading, noted, unread, held, Device.readRows, weigh_append, weigh_cons,
    weigh_nil]
  ring

theorem weigh_observe (φ : Weight) (h : History) (lfdi : String) (t : ℚ) (w var : Value) :
    weigh φ (h.observe s lfdi t w var).rows =
      weigh φ h.rows + weigh φ (h.recorded s (.observe lfdi t w var)) := by
  simp only [History.observe, History.recorded]
  split
  · have same := weigh_setDevice φ h.devices lfdi.toLower (h.device lfdi)
    rw [weigh_rows, weigh_rows, weigh_nil]
    simp only [History.device] at same ⊢
    linarith
  · have flushed := weigh_flushBefore φ { h with readings := h.readings + 1 } lfdi.toLower
      (((h.device lfdi).heldTo s h.readings t).takeReading s h.readings t w var) (s.floor t)
    rw [weigh_reading] at flushed
    have rows_same : weigh φ { h with readings := h.readings + 1 }.rows = weigh φ h.rows := rfl
    simp only [History.device] at flushed ⊢
    linarith

theorem sum_modify_device (φ : Weight) (ds : Dict String Device) (name : String)
    {f : Device → Device} (same : ∀ d, (f d).weigh φ name = d.weigh φ name) :
    ((ds.modify name f).entries.map fun e => e.2.weigh φ e.1).sum =
      (ds.entries.map fun e => e.2.weigh φ e.1).sum := by
  unfold Dict.modify
  split
  · rfl
  · rename_i d found
    have replaced := weigh_setDevice φ ds name (f d)
    rw [Dict.getD, found, Option.getD_some, same] at replaced
    exact add_right_cancel replaced

theorem weigh_flush (φ : Weight) (h : History) : weigh φ h.flush.rows = weigh φ h.rows := by
  have nothing_open : ∀ es : List (String × Device),
      ((es.map fun e => (e.1, { e.2 with buckets := Dict.empty })).map
        fun e : String × Device => e.2.weigh φ e.1).sum = 0 := by
    intro es
    induction es with
    | nil => rfl
    | cons e rest ih =>
        rw [List.map_cons, List.map_cons, List.sum_cons, ih]
        simp [Device.weigh, Dict.empty]
  rw [weigh_rows, History.flush, weigh_write, devices_write, Dict.mapValues, nothing_open,
    History.rows, weigh_append, add_zero]

/-- The writer moves no row. -/
theorem rows_runBatch (db : Database) (fails : Bool) (cutoff : Option ℚ) :
    (db.runBatch fails cutoff).rows = db.rows := by
  unfold Database.runBatch
  split <;> rfl

theorem rows_take (db : Database) : db.take.rows = db.rows := by
  unfold Database.take
  split <;> rfl

/-- A step adds to the buckets what it records, and nothing else. -/
theorem weigh_step (φ : Weight) (h : History) (x : Step) :
    weigh φ (h.step s x).rows = weigh φ h.rows + weigh φ (h.recorded s x) := by
  cases x with
  | observe lfdi t w var => exact weigh_observe φ h lfdi t w var
  | observeAvailability lfdi t wAvail =>
      simp only [History.step, History.recorded, weigh_nil, add_zero]
      have same := weigh_setDevice φ h.devices lfdi.toLower
        { h.device lfdi with
          avail := activePower wAvail, availAt := (activePower wAvail).map fun _ => t }
      have unchanged : Device.weigh φ lfdi.toLower
          { h.device lfdi with
            avail := activePower wAvail, availAt := (activePower wAvail).map fun _ => t } =
          (h.devices.getD lfdi.toLower {}).weigh φ lfdi.toLower := rfl
      rw [unchanged] at same
      rw [weigh_rows, weigh_rows]
      exact congrArg _ (add_right_cancel same)
  | interrupt lfdi =>
      simp only [History.step, History.recorded, weigh_nil, add_zero]
      rw [weigh_rows, weigh_rows]
      exact congrArg _ (sum_modify_device φ h.devices lfdi.toLower fun _ => rfl)
  | flush =>
      simp only [History.step, History.recorded, weigh_nil, add_zero]
      exact weigh_flush φ h
  | queueOther =>
      simp only [History.step, History.recorded, weigh_nil, add_zero]
      rw [weigh_rows, weigh_rows, weigh_queueBatch, weigh_nil, add_zero]
  | take =>
      simp only [History.step, History.recorded, weigh_nil, add_zero]
      rw [weigh_rows, weigh_rows, rows_take]
  | runBatch fails cutoff =>
      simp only [History.step, History.recorded, weigh_nil, add_zero]
      rw [weigh_rows, weigh_rows, rows_runBatch]
  | close =>
      simp only [History.step, History.recorded, weigh_nil, add_zero]
      rw [weigh_rows, weigh_rows]
      rfl

end Weights

section Pieces

variable (s : Settings)

theorem Settings.seconds_pos : (0 : ℚ) < s.intervalSeconds := by exact_mod_cast s.positive

theorem Settings.floor_le (t : ℚ) : s.floor t ≤ t := by
  have below := Int.floor_le (t / s.intervalSeconds)
  exact (le_div_iff₀ s.seconds_pos).mp below

theorem Settings.lt_floor_add (t : ℚ) : t < s.floor t + s.intervalSeconds := by
  have above := Int.lt_floor_add_one (t / s.intervalSeconds)
  have := (div_lt_iff₀ s.seconds_pos).mp above
  simpa [Settings.floor, add_mul] using this

/-- The interval of a point is the one it lies in. -/
theorem Settings.floor_eq_iff (t start : ℚ) (aligned : s.floor start = start) :
    s.floor t = start ↔ start ≤ t ∧ t < start + s.intervalSeconds := by
  constructor
  · rintro rfl
    exact ⟨s.floor_le t, s.lt_floor_add t⟩
  · rintro ⟨lower, upper⟩
    have pos := s.seconds_pos
    rw [← aligned]
    unfold Settings.floor at aligned ⊢
    have whole : (⌊t / s.intervalSeconds⌋ : ℤ) = ⌊start / s.intervalSeconds⌋ := by
      rw [Int.floor_eq_iff]
      rw [← aligned] at lower upper
      constructor
      · exact (le_div_iff₀ pos).mpr lower
      · rw [div_lt_iff₀ pos, add_mul, one_mul]
        exact upper
    rw [whole]

theorem Settings.floor_floor (t : ℚ) : s.floor (s.floor t) = s.floor t := by
  have pos := s.seconds_pos
  unfold Settings.floor
  rw [mul_div_cancel_right₀ _ pos.ne', Int.floor_intCast]

/-- The starts of intervals are a whole interval apart. -/
theorem Settings.floor_add_le {a b : ℚ} (b_start : s.floor b = b) (a_start : s.floor a = a)
    (before : a < b) : a + s.intervalSeconds ≤ b := by
  by_contra short
  have same := (s.floor_eq_iff b a a_start).mpr ⟨before.le, not_le.mp short⟩
  linarith

/-- Whatever adds up along the axis, and is what a piece inside one interval counts, is
the sum over the pieces of a hold. -/
theorem sum_piecesFrom (m : ℚ → ℚ → ℚ) (g : ℚ × ℚ → ℚ)
    (additive : ∀ a b c, a ≤ b → b ≤ c → m a c = m a b + m b c)
    (inside : ∀ a b, a < b → b ≤ s.floor a + s.intervalSeconds → g (s.floor a, b - a) = m a b)
    (t1 : ℚ) (turns : ℕ) (t0 : ℚ) (ordered : t0 ≤ t1)
    (enough : (⌊t1 / s.intervalSeconds⌋ - ⌊t0 / s.intervalSeconds⌋).toNat + 1 ≤ turns) :
    ((s.piecesFrom t1 turns t0).map g).sum = m t0 t1 := by
  have pos := s.seconds_pos
  have nothing : ∀ a, m a a = 0 := fun a => by
    have := additive a a a le_rfl le_rfl
    linarith
  induction turns generalizing t0 with
  | zero => omega
  | succ turns ih =>
      rw [Settings.piecesFrom]
      split
      · rename_i before
        simp only [List.map_cons, List.sum_cons]
        by_cases last_piece : t1 ≤ s.floor t0 + s.intervalSeconds
        · rw [min_eq_left last_piece, inside t0 t1 before last_piece]
          cases turns <;> simp [Settings.piecesFrom]
        · have passed := not_le.mp last_piece
          have start_lt : t0 < s.floor t0 + s.intervalSeconds := s.lt_floor_add t0
          have next_floor : ⌊(s.floor t0 + s.intervalSeconds) / s.intervalSeconds⌋ =
              ⌊t0 / s.intervalSeconds⌋ + 1 := by
            rw [Settings.floor, add_div, mul_div_cancel_right₀ _ pos.ne', div_self pos.ne']
            exact_mod_cast Int.floor_intCast (R := ℚ) _
          have later : ⌊t0 / s.intervalSeconds⌋ + 1 ≤ ⌊t1 / s.intervalSeconds⌋ := by
            rw [← next_floor]
            exact Int.floor_le_floor (div_le_div_of_nonneg_right passed.le pos.le)
          rw [min_eq_right passed.le, inside t0 _ start_lt le_rfl,
            ih _ passed.le (by rw [next_floor]; omega)]
          exact (additive _ _ _ start_lt.le passed.le).symm
      · rename_i not_before
        have same : t0 = t1 := le_antisymm ordered (not_lt.mp not_before)
        simp [same, nothing]

theorem sum_pieces (m : ℚ → ℚ → ℚ) (g : ℚ × ℚ → ℚ)
    (additive : ∀ a b c, a ≤ b → b ≤ c → m a c = m a b + m b c)
    (inside : ∀ a b, a < b → b ≤ s.floor a + s.intervalSeconds → g (s.floor a, b - a) = m a b)
    {t0 t1 : ℚ} (ordered : t0 ≤ t1) : ((s.pieces t0 t1).map g).sum = m t0 t1 :=
  sum_piecesFrom s m g additive inside t1 _ t0 ordered le_rfl

/-- The pieces of a hold have its length. -/
theorem sum_pieces_length {t0 t1 : ℚ} (ordered : t0 ≤ t1) :
    ((s.pieces t0 t1).map Prod.snd).sum = t1 - t0 := by
  apply sum_pieces s (fun a b => b - a) Prod.snd _ _ ordered
  · intros
    ring
  · intros
    rfl

/-- The pieces that go to one interval have the length the hold overlaps it. -/
theorem sum_pieces_at {t0 t1 : ℚ} (start : ℚ) (ordered : t0 ≤ t1) :
    ((s.pieces t0 t1).map fun p => if p.1 = start then p.2 else 0).sum =
      if s.floor start = start then Span.overlap t0 t1 start (start + s.intervalSeconds)
      else 0 := by
  by_cases aligned : s.floor start = start
  · rw [if_pos aligned]
    refine sum_pieces s (fun a b => Span.overlap a b start (start + s.intervalSeconds)) _ ?_ ?_
      ordered
    · intro a b c before after
      exact Span.overlap_add _ _ before after
    · intro a b before within
      by_cases here : s.floor a = start
      · have lower := s.floor_le a
        rw [here] at within lower
        rw [if_pos here]
        exact (Span.overlap_inside lower within before.le).symm
      · rw [if_neg here]
        refine (Span.overlap_outside ?_).symm
        by_contra inside
        push Not at inside
        obtain ⟨after, early⟩ := inside
        have bounds := (s.floor_eq_iff a start aligned).not.mp here
        have floor_lt : s.floor a < start := by
          by_contra reached
          exact bounds ⟨(not_lt.mp reached).trans (s.floor_le a), early⟩
        exact bounds ⟨by linarith [s.floor_add_le aligned (s.floor_floor a) floor_lt], early⟩
  · rw [if_neg aligned]
    refine sum_pieces s (fun _ _ => 0) _ (fun _ _ _ _ _ => by simp) ?_ ordered
    intro a b _ _
    rw [if_neg]
    rintro rfl
    exact aligned (s.floor_floor a)

end Pieces

section Holds

/-- The time a reading was held to the next one. -/
structure Gap where
  span : Span ℚ
  w : Option ℚ

/-- One device as its calls alone show it. -/
structure Hold where
  /-- When its last accepted reading was taken. -/
  last : Option ℚ := none
  /-- The reading still held, with its W: none once the device could not be read. -/
  held : Option (ℚ × Option ℚ) := none
  gaps : List Gap := []

variable (s : Settings) (name : String)

/-- The hold with a reading accepted at `t`. -/
def Hold.accept (k : Hold) (t : ℚ) (w : Value) : Hold where
  last := some t
  held := some (t, number w)
  gaps :=
    match k.held with
    | none => k.gaps
    | some (t0, w0) => if t - t0 ≤ s.maxGapSeconds then k.gaps ++ [⟨⟨t0, t⟩, w0⟩] else k.gaps

/-- A reading is accepted unless it is no newer than the one held. -/
def Hold.step (k : Hold) : Step → Hold
  | .observe lfdi t w _ =>
      if lfdi.toLower = name then
        if k.held.any fun r => decide (t ≤ r.1) then k else k.accept s t w
      else k
  | .interrupt lfdi => if lfdi.toLower = name then { k with held := none } else k
  | _ => k

def Hold.run (k : Hold) (steps : List Step) : Hold := steps.foldl (fun k x => k.step s name x) k

/-- After an interruption the device's next reading is no older than its last one. -/
def Hold.InOrder (k : Hold) : Step → Prop
  | .observe lfdi t _ _ => lfdi.toLower = name → k.held = none → ∀ t0 ∈ k.last, t0 ≤ t
  | _ => True

instance (k : Hold) : (x : Step) → Decidable (k.InOrder name x)
  | .observe lfdi t _ _ =>
      inferInstanceAs (Decidable (lfdi.toLower = name → k.held = none → ∀ t0 ∈ k.last, t0 ≤ t))
  | .observeAvailability .. => inferInstanceAs (Decidable True)
  | .interrupt _ => inferInstanceAs (Decidable True)
  | .flush => inferInstanceAs (Decidable True)
  | .queueOther => inferInstanceAs (Decidable True)
  | .take => inferInstanceAs (Decidable True)
  | .runBatch .. => inferInstanceAs (Decidable True)
  | .close => inferInstanceAs (Decidable True)

/-- Steps that are all in order, each where it is taken. -/
def Orderly : Hold → List Step → Prop
  | _, [] => True
  | k, x :: rest => k.InOrder name x ∧ Orderly (k.step s name x) rest

instance decidableOrderly : (k : Hold) → (steps : List Step) → Decidable (Orderly s name k steps)
  | _, [] => inferInstanceAs (Decidable True)
  | k, x :: rest =>
      let _ := decidableOrderly (k.step s name x) rest
      inferInstanceAs (Decidable (_ ∧ _))

/-- Gaps that follow one another, up to the last accepted reading. -/
structure Hold.Sound (k : Hold) : Prop where
  ordered : (k.gaps.map Gap.span).Pairwise Span.Before
  wide : ∀ g ∈ k.gaps, g.span.first < g.span.last
  past : ∀ g ∈ k.gaps, ∃ t ∈ k.last, g.span.last ≤ t
  held_last : ∀ r ∈ k.held, k.last = some r.1

variable {s name}

theorem Hold.gaps_accept (k : Hold) (t : ℚ) (w : Value) :
    (k.accept s t w).gaps = k.gaps ∨
      ∃ r ∈ k.held, t - r.1 ≤ s.maxGapSeconds ∧
        (k.accept s t w).gaps = k.gaps ++ [⟨⟨r.1, t⟩, r.2⟩] := by
  cases found : k.held with
  | none => exact Or.inl (by simp [Hold.accept, found])
  | some r =>
      by_cases near : t - r.1 ≤ s.maxGapSeconds
      · exact Or.inr ⟨r, rfl, near, by simp [Hold.accept, found, near]⟩
      · exact Or.inl (by simp [Hold.accept, found, near])

theorem Hold.Sound.accept {k : Hold} (sound : k.Sound) {t : ℚ} (w : Value)
    (newer : ∀ r ∈ k.held, r.1 < t) (in_order : k.held = none → ∀ t0 ∈ k.last, t0 ≤ t) :
    (k.accept s t w).Sound := by
  have later : ∀ t0 ∈ k.last, t0 ≤ t := by
    intro t0 was
    cases found : k.held with
    | none => exact in_order found t0 was
    | some r =>
        have same := sound.held_last r found
        rw [Option.mem_def, same, Option.some.injEq] at was
        exact was ▸ (newer r found).le
  have past : ∀ g ∈ k.gaps, ∃ u ∈ some t, g.span.last ≤ u := by
    intro g listed
    obtain ⟨t0, was, before⟩ := sound.past g listed
    exact ⟨t, rfl, before.trans (later t0 was)⟩
  have held_last : ∀ r ∈ (k.accept s t w).held, (k.accept s t w).last = some r.1 := by
    rintro r ⟨⟩
    rfl
  rcases k.gaps_accept t w with same | ⟨r, held, _, added⟩
  · constructor
    · rw [same]
      exact sound.ordered
    · rw [same]
      exact sound.wide
    · rw [same]
      exact past
    · exact held_last
  · -- the new gap begins at the reading held, which every earlier gap precedes
    have before : ∀ g ∈ k.gaps, g.span.last ≤ r.1 := by
      intro g listed
      obtain ⟨u, last, le⟩ := sound.past g listed
      rw [sound.held_last r held, Option.mem_def, Option.some.injEq] at last
      rw [last]
      exact le
    constructor
    · rw [added, List.map_append, List.pairwise_append]
      refine ⟨sound.ordered, List.pairwise_singleton _ _, ?_⟩
      simp only [List.mem_map, List.map_cons, List.map_nil, List.mem_singleton]
      rintro _ ⟨g, listed, rfl⟩ _ rfl
      exact before g listed
    · rw [added]
      intro g listed
      rcases List.mem_append.mp listed with old | new
      · exact sound.wide g old
      · obtain rfl := List.mem_singleton.mp new
        exact newer r held
    · rw [added]
      intro g listed
      rcases List.mem_append.mp listed with old | new
      · exact past g old
      · obtain rfl := List.mem_singleton.mp new
        exact ⟨t, rfl, le_rfl⟩
    · exact held_last

/-- No reading held at `t` or later. -/
theorem Hold.newer_of_fresh {k : Hold} {t : ℚ}
    (fresh : ¬ k.held.any (fun r => decide (t ≤ r.1)) = true) : ∀ r ∈ k.held, r.1 < t := by
  intro r held
  rw [Option.mem_def.mp held, Option.any_some, decide_eq_true_eq] at fresh
  exact not_le.mp fresh

theorem Hold.Sound.step {k : Hold} (sound : k.Sound) (x : Step) (in_order : k.InOrder name x) :
    (k.step s name x).Sound := by
  cases x with
  | observe lfdi t w var =>
      simp only [Hold.step]
      split
      · rename_i mine
        split
        · exact sound
        · rename_i fresh
          exact sound.accept w (Hold.newer_of_fresh fresh) (in_order mine)
      · exact sound
  | interrupt lfdi =>
      simp only [Hold.step]
      split
      · exact ⟨sound.ordered, sound.wide, sound.past, fun _ h => nomatch h⟩
      · exact sound
  | _ => exact sound

theorem Hold.Sound.run {k : Hold} (sound : k.Sound) (steps : List Step)
    (orderly : Orderly s name k steps) : (k.run s name steps).Sound := by
  induction steps generalizing k with
  | nil => exact sound
  | cons x rest ih => exact ih (sound.step x orderly.1) orderly.2

end Holds

section Conservation

variable {s : Settings} {name : String}

/-- The device holds what its calls show. -/
structure Tracks (name : String) (h : History) (k : Hold) : Prop where
  seen : (h.devices.getD name {}).seenAt = k.held.map Prod.fst
  w : ∀ r ∈ k.held, (h.devices.getD name {}).w = r.2

/-- Only the reading a device holds matters to what it tracks. -/
theorem Tracks.of_same {h h' : History} {k : Hold} (tracks : Tracks name h k)
    (seen : (h'.devices.getD name {}).seenAt = (h.devices.getD name {}).seenAt)
    (w : (h'.devices.getD name {}).w = (h.devices.getD name {}).w) : Tracks name h' k :=
  ⟨seen.trans tracks.seen, fun r held => w.trans (tracks.w r held)⟩

theorem alreadySeen_iff {h : History} {k : Hold} (tracks : Tracks name h k) (t : ℚ) :
    (h.devices.getD name {}).alreadySeen t = k.held.any fun r => decide (t ≤ r.1) := by
  rw [Device.alreadySeen, tracks.seen]
  cases k.held <;> rfl

theorem getD_set (ds : Dict String Device) (n q : String) (d : Device) :
    (ds.set n d).getD q {} = if q = n then d else ds.getD q {} := by
  simp only [Dict.getD, Dict.get?_set]
  split <;> rfl

theorem Tracks.step {h : History} {k : Hold} (tracks : Tracks name h k) (x : Step) :
    Tracks name (h.step s x) (k.step s name x) := by
  cases x with
  | observe lfdi t w var =>
      simp only [History.step, History.observe, Hold.step]
      by_cases mine : lfdi.toLower = name
      · subst mine
        simp only [History.device, alreadySeen_iff tracks, if_true]
        split
        · apply tracks.of_same <;> simp [getD_set]
        · simp only [History.flushBefore, Hold.accept]
          constructor
          · rw [devices_write, getD_set, if_pos rfl]
            rfl
          · rintro r ⟨⟩
            rw [devices_write, getD_set, if_pos rfl]
            rfl
      · have other : name ≠ lfdi.toLower := fun h => mine h.symm
        rw [if_neg mine]
        split
        · apply tracks.of_same <;> simp [getD_set, other]
        · apply tracks.of_same <;> simp [History.flushBefore, getD_set, other]
  | observeAvailability lfdi t wAvail =>
      by_cases mine : name = lfdi.toLower
      · apply tracks.of_same <;>
          simp [History.step, History.observeAvailability, getD_set, mine, History.device]
      · apply tracks.of_same <;>
          simp [History.step, History.observeAvailability, getD_set, mine]
  | interrupt lfdi =>
      simp only [History.step, History.interrupt, Hold.step]
      by_cases mine : lfdi.toLower = name
      · subst mine
        rw [if_pos rfl]
        constructor
        · simp only [Dict.getD, Dict.get?_modify, if_true]
          cases h.devices.get? lfdi.toLower <;> rfl
        · rintro r ⟨⟩
      · have other : name ≠ lfdi.toLower := fun h => mine h.symm
        rw [if_neg mine]
        apply tracks.of_same <;> simp [Dict.getD, Dict.get?_modify, other]
  | flush =>
      simp only [Hold.step]
      apply tracks.of_same <;>
        · simp only [History.step, History.flush, devices_write, Dict.getD, Dict.get?_mapValues]
          cases h.devices.get? name <;> rfl
  | _ => exact tracks.of_same rfl rfl

/-- A weight that counts, of one device, the time it holds its readings: `m` of the W held
and of the time it is held from and to. -/
structure Counts (s : Settings) (name : String) (φ : Weight) (m : Option ℚ → ℚ → ℚ → ℚ) :
    Prop where
  others : ∀ k : Key, k.1 ≠ name → φ k = 0
  sample : ∀ k w, φ k (Sums.sample 0 w) = 0
  held : ∀ (d : Device) t0 t1, t0 < t1 → weigh φ (d.heldRows s name t0 t1) = m d.w t0 t1

/-- What the gaps of a device come to. -/
def Hold.sum (k : Hold) (m : Option ℚ → ℚ → ℚ → ℚ) : ℚ :=
  (k.gaps.map fun g => m g.w g.span.first g.span.last).sum

variable {φ : Weight} {m : Option ℚ → ℚ → ℚ → ℚ}

theorem Counts.weigh_heldRows_other (counts : Counts s name φ m) {other : String}
    (differs : other ≠ name) (d : Device) (t0 t1 : ℚ) :
    weigh φ (d.heldRows s other t0 t1) = 0 := by
  unfold Device.heldRows weigh
  rw [List.map_map]
  apply List.sum_eq_zero
  intro q listed
  obtain ⟨p, _, rfl⟩ := List.mem_map.mp listed
  have nothing := counts.others (other, p.1) differs
  simp only [Function.comp_apply, nothing, AddMonoidHom.zero_apply]

/-- A step records what it adds to the gaps. -/
theorem Counts.weigh_recorded (counts : Counts s name φ m) {h : History} {k : Hold}
    (tracks : Tracks name h k) (x : Step) :
    (k.step s name x).sum m = k.sum m + weigh φ (h.recorded s x) := by
  cases x with
  | observe lfdi t w var =>
      simp only [Hold.step, History.recorded]
      by_cases mine : lfdi.toLower = name
      · subst mine
        simp only [History.device, alreadySeen_iff tracks, if_true]
        split
        · simp
        · rename_i fresh
          have newer := Hold.newer_of_fresh fresh
          simp only [Device.readRows, Device.bridgedRows, weigh_append, weigh_cons,
            counts.sample, weigh_nil, add_zero, tracks.seen]
          cases found : k.held with
          | none => simp [Hold.sum, Hold.accept, found]
          | some r =>
              by_cases near : t - r.1 ≤ s.maxGapSeconds
              · simp [Hold.sum, Hold.accept, found, near, counts.held _ _ _ (newer r found),
                  tracks.w r found]
              · simp [Hold.sum, Hold.accept, found, near]
      · rw [if_neg mine]
        split
        · simp
        · have nothing := counts.others (lfdi.toLower, s.floor t) mine
          simp only [Device.readRows, Device.bridgedRows, weigh_append, weigh_cons, nothing,
            AddMonoidHom.zero_apply, weigh_nil, add_zero]
          cases (h.device lfdi).seenAt with
          | none => simp
          | some t0 =>
              simp only
              split
              · rw [counts.weigh_heldRows_other mine, add_zero]
              · simp
  | interrupt lfdi =>
      simp only [Hold.step, History.recorded, weigh_nil, add_zero]
      split <;> rfl
  | _ => simp [Hold.step, History.recorded]

/-- All buckets together weigh what the gaps come to. -/
theorem Counts.run (counts : Counts s name φ m) (steps : List Step) {h : History} {k : Hold}
    (tracks : Tracks name h k) (equal : weigh φ h.rows = k.sum m) :
    weigh φ (h.run s steps).rows = (k.run s name steps).sum m := by
  induction steps generalizing h k with
  | nil => exact equal
  | cons x rest ih =>
      apply ih (tracks.step x)
      rw [weigh_step, counts.weigh_recorded tracks, equal]

/-- A sum of one column over the buckets that meet `p`, those in memory and those handed
to the database. -/
def History.total (h : History) (p : Key → Bool) (c : Sums →+ ℚ) : ℚ :=
  ((h.rows.filter fun r => p r.1).map fun r => c r.2).sum

/-- The weight of the buckets that meet `p`. -/
def Weight.only (p : Key → Bool) (c : Sums →+ ℚ) : Weight := fun k => if p k then c else 0

theorem weigh_only (p : Key → Bool) (c : Sums →+ ℚ) (h : History) :
    weigh (Weight.only p c) h.rows = h.total p c := by
  unfold History.total weigh
  induction h.rows with
  | nil => rfl
  | cons r rest ih =>
      rw [List.map_cons, List.sum_cons, ih]
      by_cases meets : p r.1 = true
      · rw [Weight.only, if_pos meets, List.filter_cons, if_pos meets, List.map_cons,
          List.sum_cons]
      · rw [Weight.only, if_neg meets, List.filter_cons, if_neg meets, AddMonoidHom.zero_apply,
          zero_add]

/-- `covered_seconds`. -/
def covered : Sums →+ ℚ where
  toFun b := b.coveredSeconds
  map_zero' := rfl
  map_add' _ _ := rfl

/-- `ws_positive + ws_negative`. -/
def energy : Sums →+ ℚ where
  toFun b := b.wsPositive + b.wsNegative
  map_zero' := by simp [Sums.zero_def]
  map_add' a b := by
    simp only [Sums.add_def, Sums.add]
    ring

@[simp] theorem covered_apply (b : Sums) : covered b = b.coveredSeconds := rfl

@[simp] theorem energy_apply (b : Sums) : energy b = b.wsPositive + b.wsNegative := rfl

/-- What a column counts for each second a reading is held. -/
structure Rate (c : Sums →+ ℚ) (r : Option ℚ → ℚ) : Prop where
  sample : ∀ w, c (Sums.sample 0 w) = 0
  hold : ∀ w var avail dt, c (Sums.hold 0 w var avail dt) = r w * dt

/-- A covered second is one with a W. -/
def measured (w : Option ℚ) : ℚ := if w.isSome then 1 else 0

theorem rate_covered : Rate covered measured where
  sample w := by simp [Sums.sample, Sums.zero_def]
  hold w var avail dt := by
    cases w <;> cases var <;> cases avail <;>
      simp [Sums.hold, Sums.zero_def, measured]

theorem rate_energy : Rate energy fun w => w.getD 0 where
  sample w := by simp [Sums.sample, Sums.zero_def]
  hold w var avail dt := by
    cases w <;> cases var <;> cases avail <;>
      simp [Sums.hold, Sums.zero_def] <;> split_ifs <;> simp

/-- All intervals of a device. -/
def ofDevice (name : String) (k : Key) : Bool := decide (k.1 = name)

theorem counts_device {c : Sums →+ ℚ} {r : Option ℚ → ℚ} (rate : Rate c r) :
    Counts s name (Weight.only (ofDevice name) c) fun w t0 t1 => r w * (t1 - t0) where
  others k differs := by simp [Weight.only, ofDevice, differs]
  sample k w := by
    unfold Weight.only
    split
    · exact rate.sample w
    · rfl
  held d t0 t1 before := by
    rw [← sum_pieces_length s before.le, ← List.sum_map_mul_left]
    simp [weigh, Device.heldRows, Weight.only, ofDevice, Function.comp_def, rate.hold]

/-- One interval of a device. -/
def inInterval (name : String) (start : ℚ) (k : Key) : Bool := decide (k = (name, start))

/-- How long `[t0, t1]` is in the interval that begins at `start`. -/
def Settings.within (s : Settings) (start t0 t1 : ℚ) : ℚ :=
  if s.floor start = start then Span.overlap t0 t1 start (start + s.intervalSeconds) else 0

theorem counts_interval {c : Sums →+ ℚ} {r : Option ℚ → ℚ} (rate : Rate c r) (start : ℚ) :
    Counts s name (Weight.only (inInterval name start) c)
      fun w t0 t1 => r w * s.within start t0 t1 where
  others k differs := by
    have other : k ≠ (name, start) := by
      rintro rfl
      exact differs rfl
    simp [Weight.only, inInterval, other]
  sample k w := by
    unfold Weight.only
    split
    · exact rate.sample w
    · rfl
  held d t0 t1 before := by
    rw [Settings.within, ← sum_pieces_at s start before.le, ← List.sum_map_mul_left]
    simp only [weigh, Device.heldRows, List.map_map, Function.comp_def]
    congr 1
    apply List.map_congr_left
    intro p _
    by_cases here : p.1 = start <;> simp [Weight.only, inInterval, here, rate.hold]

/-- The history and the gaps of a device after the steps, from the start. -/
def History.after (s : Settings) (steps : List Step) : History := ({} : History).run s steps

def gapsAfter (s : Settings) (name : String) (steps : List Step) : List Gap :=
  (({} : Hold).run s name steps).gaps

/-- Energy is conserved: no instant is in two gaps, no interval is covered longer than it
lasts, and what the buckets of a device hold is what its gaps come to. A gap whose reading
had no W covers nothing. -/
structure Conserved (s : Settings) (name : String) (steps : List Step) : Prop where
  once : ∀ t, ((gapsAfter s name steps).filter fun g =>
    decide (g.span.first ≤ t ∧ t < g.span.last)).length ≤ 1
  spread : ∀ start, (History.after s steps).total (inInterval name start) covered =
    ((gapsAfter s name steps).map fun g =>
      measured g.w * s.within start g.span.first g.span.last).sum
  bounded : ∀ start,
    (History.after s steps).total (inInterval name start) covered ≤ s.intervalSeconds
  covered : (History.after s steps).total (ofDevice name) covered =
    ((gapsAfter s name steps).map fun g => measured g.w * g.span.length).sum
  energy : (History.after s steps).total (ofDevice name) energy =
    ((gapsAfter s name steps).map fun g => g.w.getD 0 * g.span.length).sum

theorem total_after {p : Key → Bool} {c : Sums →+ ℚ}
    (counts : Counts s name (Weight.only p c) m) (steps : List Step) :
    (History.after s steps).total p c =
      ((gapsAfter s name steps).map fun g => m g.w g.span.first g.span.last).sum := by
  have start : Tracks name {} {} := ⟨rfl, fun _ h => nomatch h⟩
  rw [← weigh_only]
  exact counts.run steps start rfl

/-- No interval is covered longer than it lasts, by gaps that follow one another. -/
theorem sum_within_le {gaps : List Gap} (ordered : (gaps.map Gap.span).Pairwise Span.Before)
    (wide : ∀ g ∈ gaps, g.span.first < g.span.last) (start : ℚ) :
    (gaps.map fun g => measured g.w * s.within start g.span.first g.span.last).sum ≤
      s.intervalSeconds := by
  have pos := s.seconds_pos.le
  by_cases aligned : s.floor start = start
  · have each : ∀ g ∈ gaps, measured g.w * s.within start g.span.first g.span.last ≤
        Span.overlap g.span.first g.span.last start (start + s.intervalSeconds) := by
      intro g _
      rw [Settings.within, if_pos aligned]
      have := Span.overlap_nonneg g.span.first g.span.last start (start + s.intervalSeconds)
      unfold measured
      split <;> simp [this]
    have window : start ≤ start + s.intervalSeconds := le_add_of_nonneg_right pos
    have bounded := Span.sum_overlap_le window (gaps.map Gap.span) ordered (by
      intro x listed
      obtain ⟨g, member, rfl⟩ := List.mem_map.mp listed
      exact (wide g member).le)
    rw [List.map_map, add_sub_cancel_left] at bounded
    exact (List.sum_le_sum each).trans bounded
  · have nothing : (gaps.map fun g =>
        measured g.w * s.within start g.span.first g.span.last).sum = 0 := by
      apply List.sum_eq_zero
      intro q listed
      obtain ⟨g, _, rfl⟩ := List.mem_map.mp listed
      rw [Settings.within, if_neg aligned, mul_zero]
    rw [nothing]
    exact pos

/-- Where no device's first reading after an interruption is older than its last reading
before it, integration conserves energy. -/
theorem energy_conserved (s : Settings) (name : String) (steps : List Step)
    (orderly : Orderly s name {} steps) : Conserved s name steps := by
  have fresh : ({} : Hold).Sound :=
    ⟨List.Pairwise.nil, by simp, by simp, fun _ h => nomatch h⟩
  have sound := fresh.run steps orderly
  constructor
  · intro t
    have few := Span.atMostOne t _ sound.ordered
    rw [List.filter_map, List.length_map] at few
    exact few
  · intro start
    exact total_after (counts_interval rate_covered start) steps
  · intro start
    rw [total_after (counts_interval rate_covered start) steps]
    exact sum_within_le sound.ordered sound.wide start
  · exact total_after (counts_device rate_covered) steps
  · exact total_after (counts_device rate_energy) steps

/-- Quarter hours, and gaps of as long bridged. -/
def quarterHours : Settings where
  intervalSeconds := 900
  maxGapSeconds := 900
  positive := by decide
  divides := by decide
  gap := by decide +kernel

/-- Two readings, a failed one, and two more. -/
def interrupted (third fourth : ℚ) : List Step :=
  [.observe "A1" 0 (.int 5) .missing, .observe "a1" 900 (.int 5) .missing, .interrupt "A1",
    .observe "A1" third (.int 5) .missing, .observe "A1" fourth (.int 5) .missing]

theorem energy_conserved_interrupted : Conserved quarterHours "a1" (interrupted 900 1000) :=
  energy_conserved quarterHours "a1" (interrupted 900 1000) (by decide +kernel)

/-- Offered again after the failed reading, the two readings are integrated again: the
first quarter hour is covered for half an hour. -/
theorem hold_integrated_twice :
    (History.after quarterHours (interrupted 0 900)).total (inInterval "a1" 0) covered = 1800 ∧
      ¬ Conserved quarterHours "a1" (interrupted 0 900) := by
  have twice : (History.after quarterHours (interrupted 0 900)).total (inInterval "a1" 0)
      covered = 1800 := by decide +kernel
  refine ⟨twice, fun conserved => ?_⟩
  have bounded := conserved.bounded 0
  rw [twice] at bounded
  exact absurd bounded (by decide +kernel)

end Conservation

end Py20305.Intervals
