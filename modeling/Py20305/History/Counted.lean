import Py20305.History.Query

/-!
An interval query counts each contribution once.

The contributions to one interval are recorded one after the other, and each batch
holds the next stretch of them (`Accounted`). So whatever a read includes is the first
so many contributions, and the copies go on exactly where a read that lacks them stops
(`Followed`).
-/

namespace Py20305.Intervals

/-! ### Sums of rows -/

/-- The sum of the contributions to an interval, if there are any. -/
def combine : List Sums → Option Sums
  | [] => none
  | x :: rest => some (x + rest.sum)

theorem combine_eq (l : List Sums) : combine l = if l = [] then none else some l.sum := by
  cases l with
  | nil => rfl
  | cons x rest => rfl

theorem combine_eq_none {l : List Sums} : combine l = none ↔ l = [] := by
  cases l <;> simp [combine]

theorem combine_some {l : List Sums} {x : Sums} (sum : combine l = some x) :
    l ≠ [] ∧ x = l.sum := by
  cases l with
  | nil => cases sum
  | cons y rest =>
      cases sum
      exact ⟨List.cons_ne_nil _ _, rfl⟩

@[simp] theorem combine_toList (o : Option Sums) : combine o.toList = o := by
  cases o <;> simp [combine]

theorem combine_append_left {a b : List Sums} (c : List Sums) (same : combine a = combine b) :
    combine (a ++ c) = combine (b ++ c) := by
  rw [combine_eq, combine_eq] at same
  cases a with
  | nil =>
      cases b with
      | nil => rfl
      | cons y b => simp at same
  | cons x a =>
      cases b with
      | nil => simp at same
      | cons y b =>
          simp only [reduceCtorEq, if_false, Option.some.injEq] at same
          rw [combine_eq, combine_eq, List.sum_append, List.sum_append, same]
          simp

theorem combine_append_right {a b : List Sums} (c : List Sums) (same : combine a = combine b) :
    combine (c ++ a) = combine (c ++ b) := by
  have swap : ∀ x y : List Sums, combine (x ++ y) = combine (y ++ x) := by
    intro x y
    rw [combine_eq, combine_eq, List.sum_append, List.sum_append, add_comm]
    simp [and_comm]
  rw [swap c a, swap c b]
  exact combine_append_left c same

@[simp] theorem combine_combine_append (a b : List Sums) :
    combine ((combine a).toList ++ b) = combine (a ++ b) :=
  combine_append_left b (combine_toList _)

/-- The sums of the rows of one interval, in order. -/
def rowsOf (k : Key) (rows : List Row) : List Sums :=
  (rows.filter fun r => decide (r.1 = k)).map Prod.snd

@[simp] theorem rowsOf_nil (k : Key) : rowsOf k [] = [] := rfl

@[simp] theorem rowsOf_append (k : Key) (a b : List Row) :
    rowsOf k (a ++ b) = rowsOf k a ++ rowsOf k b := by
  simp [rowsOf]

theorem rowsOf_cons (k : Key) (r : Row) (rows : List Row) :
    rowsOf k (r :: rows) = if r.1 = k then r.2 :: rowsOf k rows else rowsOf k rows := by
  by_cases same : r.1 = k <;> simp [rowsOf, same]

/-- Where each interval has one row, its rows are the one there is. -/
theorem rowsOf_of_nodup {rows : List Row} (distinct : (rows.map Prod.fst).Nodup) (k : Key) :
    rowsOf k rows = (Dict.lookupEntry k rows).toList := by
  induction rows with
  | nil => rfl
  | cons r rest ih =>
      obtain ⟨new, distinct⟩ := List.nodup_cons.mp distinct
      rw [rowsOf_cons, ih distinct, Dict.lookupEntry]
      by_cases same : r.1 = k
      · have absent := (Dict.lookupEntry_eq_none_iff k rest).mpr (same ▸ new)
        simp [same, absent]
      · simp [same]

theorem get?_upsert (table : Dict Key Sums) (r : Row) (k : Key) :
    (upsert table r).get? k = combine ((table.get? k).toList ++ rowsOf k [r]) := by
  unfold upsert
  rw [rowsOf_cons]
  by_cases same : r.1 = k
  · subst same
    cases found : table.get? r.1 <;> simp [combine]
  · have other : k ≠ r.1 := fun h => same h.symm
    cases found : table.get? r.1 <;> simp [Dict.get?_set, other, same]

theorem get?_upserts (table : Dict Key Sums) (rows : List Row) (k : Key) :
    (rows.foldl upsert table).get? k = combine ((table.get? k).toList ++ rowsOf k rows) := by
  induction rows generalizing table with
  | nil => simp
  | cons r rest ih =>
      rw [List.foldl_cons, ih, get?_upsert, combine_combine_append, List.append_assoc,
        ← rowsOf_append, List.singleton_append]

/-! ### Open buckets -/

/-- The bucket of an interval in memory. -/
def History.openAt (h : History) (k : Key) : Option Bucket :=
  (h.devices.get? k.1).bind fun d => d.buckets.get? k.2

theorem mem_keyed {name : String} {es : List (ℚ × Bucket)} {k : Key} {b : Bucket} :
    (k, b) ∈ keyed name es ↔ k.1 = name ∧ (k.2, b) ∈ es := by
  unfold keyed
  constructor
  · intro listed
    obtain ⟨e, member, same⟩ := List.mem_map.mp listed
    cases same
    exact ⟨rfl, member⟩
  · rintro ⟨rfl, member⟩
    exact List.mem_map.mpr ⟨_, member, rfl⟩

theorem keys_keyed (name : String) (es : List (ℚ × Bucket)) :
    (keyed name es).map Prod.fst = (es.map Prod.fst).map fun start => (name, start) := by
  simp [keyed, Function.comp_def]

theorem mem_openBuckets (h : History) (k : Key) (b : Bucket) :
    (k, b) ∈ h.openBuckets ↔ h.openAt k = some b := by
  unfold History.openBuckets History.openAt
  rw [List.mem_flatMap, Option.bind_eq_some_iff]
  constructor
  · rintro ⟨⟨name, d⟩, member, listed⟩
    obtain ⟨rfl, inside⟩ := mem_keyed.mp listed
    exact ⟨d, (h.devices.mem_entries_iff _ _).mp member, (d.buckets.mem_entries_iff _ _).mp inside⟩
  · rintro ⟨d, found, inside⟩
    exact ⟨(k.1, d), (h.devices.mem_entries_iff _ _).mpr found,
      mem_keyed.mpr ⟨rfl, (d.buckets.mem_entries_iff _ _).mpr inside⟩⟩

theorem nodup_openBuckets (h : History) : (h.openBuckets.map Prod.fst).Nodup := by
  have distinct := h.devices.nodup
  unfold History.openBuckets
  revert distinct
  induction h.devices.entries with
  | nil => simp
  | cons e rest ih =>
      intro distinct
      obtain ⟨new, distinct⟩ := List.nodup_cons.mp distinct
      rw [List.flatMap_cons, List.map_append, List.nodup_append]
      refine ⟨?_, ih distinct, ?_⟩
      · rw [keys_keyed]
        exact e.2.buckets.nodup.map fun a b same => (Prod.mk.inj same).2
      · rintro k first _ second rfl
        rw [keys_keyed] at first
        obtain ⟨start, _, rfl⟩ := List.mem_map.mp first
        obtain ⟨⟨_, b⟩, listed, rfl⟩ := List.mem_map.mp second
        obtain ⟨e', member, inside⟩ := List.mem_flatMap.mp listed
        have same := (mem_keyed.mp inside).1
        exact new (List.mem_map.mpr ⟨e', member, same.symm⟩)

/-- A device whose buckets hold the contributions `l`. -/
def Device.Has (d : Device) (name : String) (l : Key → List Sums) : Prop :=
  ∀ start, (d.buckets.get? start).map Bucket.sums = combine (l (name, start))

/-- The buckets that were there are there still, and the others were opened by `reading`. -/
structure Grown (reading : ℕ) (d d' : Device) : Prop where
  kept : ∀ start b, d.buckets.get? start = some b →
    ∃ b', d'.buckets.get? start = some b' ∧ b'.opened = b.opened
  new : ∀ start b', d.buckets.get? start = none → d'.buckets.get? start = some b' →
    b'.opened = reading

theorem Grown.refl (reading : ℕ) (d : Device) : Grown reading d d where
  kept _ b found := ⟨b, found, rfl⟩
  new start b' absent found := by
    rw [absent] at found
    cases found

theorem Grown.trans {reading : ℕ} {d d' d'' : Device} (first : Grown reading d d')
    (second : Grown reading d' d'') : Grown reading d d'' where
  kept start b found := by
    obtain ⟨b', found', same⟩ := first.kept start b found
    obtain ⟨b'', found'', same'⟩ := second.kept start b' found'
    exact ⟨b'', found'', same'.trans same⟩
  new start b'' absent found := by
    cases mid : d'.buckets.get? start with
    | none => exact second.new start b'' mid found
    | some b' =>
        obtain ⟨b, found', same⟩ := second.kept start b' mid
        rw [found, Option.some.injEq] at found'
        rw [found', same]
        exact first.new start b' absent mid

theorem Device.get?_deposit (d : Device) (start q : ℚ) (reading : ℕ) (f : Sums → Sums) :
    (d.deposit start reading f).buckets.get? q =
      if q = start then
        some ⟨f (d.buckets.getD start ⟨0, reading⟩).sums,
          (d.buckets.getD start ⟨0, reading⟩).opened⟩
      else d.buckets.get? q := by
  simp only [Device.deposit, Dict.get?_set]

theorem Grown.deposit (d : Device) (start : ℚ) (reading : ℕ) (f : Sums → Sums) :
    Grown reading d (d.deposit start reading f) where
  kept q b found := by
    rw [Device.get?_deposit]
    by_cases here : q = start
    · subst here
      exact ⟨_, if_pos rfl, by simp [Dict.getD, found]⟩
    · exact ⟨b, by rw [if_neg here, found], rfl⟩
  new q b' absent found := by
    rw [Device.get?_deposit] at found
    by_cases here : q = start
    · subst here
      rw [if_pos rfl, Option.some.injEq] at found
      rw [← found]
      simp [Dict.getD, absent]
    · rw [if_neg here, absent] at found
      cases found

theorem Device.Has.deposit {d : Device} {name : String} {l : Key → List Sums}
    (holds : d.Has name l) (start : ℚ) (reading : ℕ) {f : Sums → Sums}
    {δ : Sums} (adds : ∀ b, f b = b + δ) :
    (d.deposit start reading f).Has name fun k => l k ++ rowsOf k [((name, start), δ)] := by
  intro q
  have was := holds q
  change _ = combine (l (name, q) ++ rowsOf (name, q) [((name, start), δ)])
  rw [Device.get?_deposit, rowsOf_cons]
  by_cases here : q = start
  · subst here
    rw [if_pos rfl, if_pos rfl, Option.map_some, adds, Dict.getD]
    cases found : d.buckets.get? q with
    | none =>
        rw [found] at was
        have nothing := combine_eq_none.mp was.symm
        simp [nothing, combine]
    | some b =>
        rw [found] at was
        obtain ⟨some_rows, sums⟩ := combine_some was.symm
        simp [combine_eq, sums]
  · have other : ((name, start) : Key) ≠ (name, q) := fun same => here (Prod.mk.inj same).2.symm
    rw [if_neg here, if_neg other]
    simpa using was

theorem holdUntil_spec {s : Settings} {name : String} (avail : Option ℚ) (reading : ℕ) (t1 : ℚ)
    (turns : ℕ) (t0 : ℚ) {d : Device} {l : Key → List Sums} (holds : d.Has name l) :
    (d.holdUntil s avail reading t1 turns t0).Has name (fun k => l k ++ rowsOf k
      ((s.piecesFrom t1 turns t0).map fun (start, dt) =>
        ((name, start), Sums.hold 0 d.w d.var avail dt))) ∧
      Grown reading d (d.holdUntil s avail reading t1 turns t0) := by
  induction turns generalizing t0 d l with
  | zero =>
      refine ⟨?_, Grown.refl _ _⟩
      simpa [Device.holdUntil, Settings.piecesFrom] using holds
  | succ turns ih =>
      simp only [Device.holdUntil, Settings.piecesFrom]
      split
      · have once := holds.deposit (s.floor t0) reading
          fun b => Sums.hold_eq_add b d.w d.var avail
            (min t1 (s.floor t0 + s.intervalSeconds) - t0)
        obtain ⟨rest, grown⟩ := ih (min t1 (s.floor t0 + s.intervalSeconds)) once
        constructor
        · intro q
          rw [rest q, List.map_cons]
          simp only [w_deposit, var_deposit, List.append_assoc, ← rowsOf_append,
            List.singleton_append]
        · exact (Grown.deposit _ _ _ _).trans grown
      · refine ⟨?_, Grown.refl _ _⟩
        simpa using holds

theorem heldTo_spec {s : Settings} {name : String} (reading : ℕ) (t : ℚ) {d : Device}
    {l : Key → List Sums} (holds : d.Has name l) :
    (d.heldTo s reading t).Has name (fun k => l k ++ rowsOf k (d.bridgedRows s name t)) ∧
      Grown reading d (d.heldTo s reading t) := by
  unfold Device.heldTo Device.bridgedRows
  cases d.seenAt with
  | none =>
      refine ⟨?_, Grown.refl _ _⟩
      simpa using holds
  | some t0 =>
      by_cases near : t - t0 ≤ s.maxGapSeconds
      · simp only [near, if_true]
        exact holdUntil_spec _ reading t _ t0 holds
      · simp only [near, if_false]
        refine ⟨?_, Grown.refl _ _⟩
        simpa using holds

/-- A reading taken: the device has what it records, in buckets it had or opens. -/
theorem takeReading_spec {s : Settings} {name : String} (reading : ℕ) (t : ℚ) (w var : Value)
    {d : Device} {l : Key → List Sums} (holds : d.Has name l) :
    ((d.heldTo s reading t).takeReading s reading t w var).Has name
        (fun k => l k ++ rowsOf k (d.readRows s name t w)) ∧
      Grown reading d ((d.heldTo s reading t).takeReading s reading t w var) := by
  obtain ⟨held, grown⟩ := heldTo_spec (s := s) reading t holds
  have read : Device.Has
      { d.heldTo s reading t with seenAt := some t, w := number w, var := number var } name
      fun k => l k ++ rowsOf k (d.bridgedRows s name t) := held
  have noted := read.deposit (s.floor t) reading fun b => Sums.sample_eq_add b (number w)
  constructor
  · intro q
    rw [Device.takeReading, noted q]
    simp only [Device.readRows, rowsOf_append, List.append_assoc]
  · obtain ⟨kept, new⟩ := Grown.deposit
      { d.heldTo s reading t with seenAt := some t, w := number w, var := number var }
      (s.floor t) reading fun b => b.sample (number w)
    exact grown.trans ⟨kept, new⟩

/-! ### Contributions and batches -/

/-- The contributions to an interval that the first `n` batches hold, with what was stored
before. -/
def Database.batched (db : Database) (stored : Dict Key Sums) (n : ℕ) (k : Key) : List Sums :=
  (stored.get? k).toList ++ rowsOf k (db.accepted.take n).flatten

/-- The history after `log` was recorded: the first `n` batches hold the first `cut n k`
contributions to `k`, and memory holds the rest. -/
structure Accounted (stored : Dict Key Sums) (log : List Row) (cut : ℕ → Key → ℕ)
    (h : History) : Prop where
  batches : ∀ n ≤ h.db.queued, ∀ k,
    combine (h.db.batched stored n k) = combine ((rowsOf k log).take (cut n k))
  forward : ∀ m n k, m ≤ n → n ≤ h.db.queued → cut m k ≤ cut n k
  within : ∀ n ≤ h.db.queued, ∀ k, cut n k ≤ (rowsOf k log).length
  memory : ∀ k, (h.openAt k).map Bucket.sums =
    combine ((rowsOf k log).drop (cut h.db.queued k))
  opened : ∀ k b, h.openAt k = some b →
    b.opened < h.readings ∧ h.batches.get? (k, b.opened) = none
  recorded : ∀ k o n, h.batches.get? (k, o) = some n → o < h.readings ∧ n ≤ h.db.queued
  table : ∀ k, h.db.table.get? k = combine (h.db.batched stored h.db.written k)
  taken : h.db.written ≤ h.db.taken ∧ h.db.taken ≤ h.db.queued
  running : h.db.closed = false

variable {s : Settings} {stored : Dict Key Sums} {log : List Row} {cut : ℕ → Key → ℕ}
  {h : History}

/-- The batches before the last one are what they were. -/
theorem batched_append (db : Database) (rows : List Row) {n : ℕ} (old : n ≤ db.queued)
    (k : Key) :
    { db with accepted := db.accepted ++ [rows] }.batched stored n k = db.batched stored n k := by
  simp only [Database.batched, List.take_append_of_le_length old]

theorem batched_last (db : Database) (rows : List Row) (k : Key) :
    { db with accepted := db.accepted ++ [rows] }.batched stored (db.queued + 1) k =
      db.batched stored db.queued k ++ rowsOf k rows := by
  have all : (db.accepted ++ [rows]).take (db.queued + 1) = db.accepted ++ [rows] :=
    List.take_of_length_le (by simp [Database.queued])
  have before : db.accepted.take db.queued = db.accepted := List.take_of_length_le le_rfl
  simp [Database.batched, all, before]

/-- More is recorded, and kept in memory. -/
theorem Accounted.record (acc : Accounted stored log cut h) {h' : History} {rows : List Row}
    (db : h'.db = h.db) (batches : h'.batches = h.batches) (later : h.readings ≤ h'.readings)
    (memory : ∀ k, (h'.openAt k).map Bucket.sums =
      combine ((rowsOf k log).drop (cut h.db.queued k) ++ rowsOf k rows))
    (opened : ∀ k b, h'.openAt k = some b →
      (∃ b', h.openAt k = some b' ∧ b.opened = b'.opened) ∨
        h.readings ≤ b.opened ∧ b.opened < h'.readings) :
    Accounted stored (log ++ rows) cut h' where
  batches n old k := by
    rw [db] at old ⊢
    rw [acc.batches n old k, rowsOf_append, List.take_append_of_le_length (acc.within n old k)]
  forward m n k before old := by
    rw [db] at old
    exact acc.forward m n k before old
  within n old k := by
    rw [db] at old
    rw [rowsOf_append, List.length_append]
    exact (acc.within n old k).trans (Nat.le_add_right _ _)
  memory k := by
    rw [memory k, db, rowsOf_append, List.drop_append_of_le_length (acc.within _ le_rfl k)]
  opened k b found := by
    rw [batches]
    rcases opened k b found with ⟨b', was, same⟩ | ⟨new, bound⟩
    · obtain ⟨old, free⟩ := acc.opened k b' was
      exact ⟨same ▸ old.trans_le later, same ▸ free⟩
    · refine ⟨bound, ?_⟩
      cases used : h.batches.get? (k, b.opened) with
      | none => rfl
      | some n => exact absurd (acc.recorded k _ n used).1 (not_lt.mpr new)
  recorded k o n used := by
    rw [batches] at used
    rw [db]
    obtain ⟨old, bound⟩ := acc.recorded k o n used
    exact ⟨old.trans_le later, bound⟩
  table k := by rw [db, acc.table k]
  taken := by rw [db]; exact acc.taken
  running := by rw [db]; exact acc.running

/-- The batch numbers of buckets that are written. -/
theorem get?_recorded (bs : Dict (Key × ℕ) ℕ) (done : List (Key × Bucket)) (n : ℕ)
    (q : Key × ℕ) :
    (done.foldl (fun bs e => bs.set (e.1, e.2.opened) n) bs).get? q =
      if q ∈ done.map (fun e => (e.1, e.2.opened)) then some n else bs.get? q := by
  induction done generalizing bs with
  | nil => simp
  | cons e rest ih =>
      rw [List.foldl_cons, ih, Dict.get?_set]
      by_cases later : q ∈ rest.map fun e => (e.1, e.2.opened)
      · simp [later]
      · by_cases here : q = (e.1, e.2.opened) <;> simp [later, here]

theorem queueBatch_accepts {db : Database} (rows : List Row) (running : db.closed = false)
    (room : db.queued - db.taken < maxPendingWrites) :
    db.queueBatch rows = (some (db.queued + 1), { db with accepted := db.accepted ++ [rows] }) := by
  simp [Database.queueBatch, running, room]

theorem queueBatch_full {db : Database} (rows : List Row) (running : db.closed = false)
    (full : ¬ db.queued - db.taken < maxPendingWrites) :
    db.queueBatch rows = (none, { db with refused := db.refused ++ rows }) := by
  simp [Database.queueBatch, running, full]

/-- What writing does where no batch is dropped. -/
theorem write_spec (h : History) {done : List (Key × Bucket)} (some_done : done ≠ [])
    (running : h.db.closed = false) (kept : (h.write done).db.refused = h.db.refused) :
    (h.write done).db = { h.db with accepted := h.db.accepted ++ [done.map Bucket.row] } ∧
      (h.write done).batches = done.foldl
        (fun bs e => bs.set (e.1, e.2.opened) (h.db.queued + 1)) h.batches := by
  have not_empty : done.isEmpty = false := by simpa using some_done
  have rows : done.map Bucket.row ≠ [] := by simpa using some_done
  rw [db_write h done some_done] at kept
  by_cases room : h.db.queued - h.db.taken < maxPendingWrites
  · simp only [History.write, not_empty, Bool.false_eq_true, if_false]
    rw [show (done.map fun e => (e.1, e.2.sums)) = done.map Bucket.row from rfl,
      queueBatch_accepts _ running room]
    exact ⟨rfl, rfl⟩
  · rw [queueBatch_full _ running room, List.append_right_eq_self] at kept
    exact absurd kept rows

/-- A batch was accepted that holds the buckets `done`, which left memory. -/
structure Batched (h h' : History) (done : List (Key × Bucket)) : Prop where
  db : h'.db = { h.db with accepted := h.db.accepted ++ [done.map Bucket.row] }
  batches : h'.batches =
    done.foldl (fun bs e => bs.set (e.1, e.2.opened) (h.db.queued + 1)) h.batches
  readings : h'.readings = h.readings
  distinct : (done.map Prod.fst).Nodup
  held : ∀ e ∈ done, h.openAt e.1 = some e.2
  opens : ∀ k, h'.openAt k = if k ∈ done.map Prod.fst then none else h.openAt k

/-- The cut with one more batch, which holds all that was recorded of `keys`. -/
def cutAt (cut : ℕ → Key → ℕ) (log : List Row) (queued : ℕ) (keys : List Key) (n : ℕ) (k : Key) :
    ℕ :=
  if n ≤ queued then cut n k
  else if k ∈ keys then (rowsOf k log).length else cut queued k

section Batch

variable {h' : History} {done : List (Key × Bucket)}

theorem Batched.queued (batch : Batched h h' done) : h'.db.queued = h.db.queued + 1 := by
  simp [batch.db, Database.queued]

theorem rows_in (once : (done.map Prod.fst).Nodup) {k : Key} {b : Bucket}
    (listed : (k, b) ∈ done) : rowsOf k (done.map Bucket.row) = [b.sums] := by
  have distinct : ((done.map Bucket.row).map Prod.fst).Nodup := by
    simpa [Function.comp_def, Bucket.row] using once
  have found : Dict.lookupEntry k (done.map Bucket.row) = some b.sums :=
    Dict.lookupEntry_of_mem distinct (List.mem_map.mpr ⟨_, listed, rfl⟩)
  rw [rowsOf_of_nodup distinct, found]
  rfl

theorem rows_out {k : Key} (absent : k ∉ done.map Prod.fst) :
    rowsOf k (done.map Bucket.row) = [] := by
  unfold rowsOf
  rw [List.map_eq_nil_iff, List.filter_eq_nil_iff]
  intro r listed
  obtain ⟨e, member, rfl⟩ := List.mem_map.mp listed
  rw [decide_eq_true_eq]
  exact fun same => absent (List.mem_map.mpr ⟨e, member, same⟩)

theorem Batched.old (batch : Batched h h' done) {n : ℕ} (old : n ≤ h.db.queued) (k : Key) :
    h'.db.batched stored n k = h.db.batched stored n k := by
  rw [batch.db]
  exact batched_append h.db _ old k

theorem Batched.last (batch : Batched h h' done) (k : Key) :
    h'.db.batched stored (h.db.queued + 1) k =
      h.db.batched stored h.db.queued k ++ rowsOf k (done.map Bucket.row) := by
  rw [batch.db]
  exact batched_last h.db _ k

/-- The number recorded on a bucket of the batch. -/
theorem Batched.number_in (batch : Batched h h' done) {k : Key} {b : Bucket}
    (listed : (k, b) ∈ done) : h'.batches.get? (k, b.opened) = some (h.db.queued + 1) := by
  rw [batch.batches, get?_recorded]
  exact if_pos (List.mem_map.mpr ⟨_, listed, rfl⟩)

/-- Buckets that have a number keep it. -/
theorem Batched.number_kept (batch : Batched h h' done) (acc : Accounted stored log cut h)
    {k : Key} {o n : ℕ} (used : h.batches.get? (k, o) = some n) :
    h'.batches.get? (k, o) = some n := by
  rw [batch.batches, get?_recorded, if_neg, used]
  intro listed
  obtain ⟨e, member, same⟩ := List.mem_map.mp listed
  cases same
  rw [(acc.opened e.1 e.2 (batch.held e member)).2] at used
  cases used

theorem Accounted.batch (acc : Accounted stored log cut h) (batch : Batched h h' done) :
    Accounted stored log (cutAt cut log h.db.queued (done.map Prod.fst)) h' := by
  have old_cut : ∀ n ≤ h.db.queued, ∀ k,
      cutAt cut log h.db.queued (done.map Prod.fst) n k = cut n k :=
    fun n old k => if_pos old
  have new_cut : ∀ k, cutAt cut log h.db.queued (done.map Prod.fst) (h.db.queued + 1) k =
      if k ∈ done.map Prod.fst then (rowsOf k log).length else cut h.db.queued k :=
    fun k => if_neg (by omega)
  have counters : h'.db.written = h.db.written ∧ h'.db.taken = h.db.taken := by
    rw [batch.db]
    exact ⟨rfl, rfl⟩
  constructor
  · intro n bound k
    rw [batch.queued] at bound
    rcases Nat.le_succ_iff.mp bound with old | rfl
    · rw [old_cut n old, batch.old old, acc.batches n old k]
    · rw [new_cut k, batch.last k]
      split
      · -- the batch takes over what memory held
        rename_i listed
        obtain ⟨⟨q, b⟩, member, same⟩ := List.mem_map.mp listed
        obtain rfl : k = q := same.symm
        have held := acc.memory k
        rw [batch.held _ member, Option.map_some] at held
        have sums : combine [b.sums] = combine ((rowsOf k log).drop (cut h.db.queued k)) := by
          rw [← held]
          simp [combine]
        rw [rows_in batch.distinct member, combine_append_left _ (acc.batches _ le_rfl k),
          combine_append_right _ sums, List.take_append_drop, List.take_length]
      · rename_i absent
        rw [rows_out absent, List.append_nil, acc.batches _ le_rfl k]
  · intro m n k before bound
    rw [batch.queued] at bound
    rcases Nat.le_succ_iff.mp bound with old | rfl
    · rw [old_cut n old, old_cut m (before.trans old)]
      exact acc.forward m n k before old
    · rcases Nat.le_succ_iff.mp before with early | rfl
      · rw [old_cut m early, new_cut k]
        split
        · exact acc.within m early k
        · exact acc.forward m _ k early le_rfl
      · exact le_rfl
  · intro n bound k
    rw [batch.queued] at bound
    rcases Nat.le_succ_iff.mp bound with old | rfl
    · rw [old_cut n old]
      exact acc.within n old k
    · rw [new_cut k]
      split
      · exact le_rfl
      · exact acc.within _ le_rfl k
  · intro k
    rw [batch.opens k, batch.queued, new_cut k]
    split
    · simp [combine]
    · exact acc.memory k
  · intro k b found
    rw [batch.opens k] at found
    split at found
    · cases found
    · rename_i absent
      obtain ⟨bound, free⟩ := acc.opened k b found
      refine ⟨batch.readings ▸ bound, ?_⟩
      rw [batch.batches, get?_recorded, if_neg, free]
      intro listed
      obtain ⟨e, member, same⟩ := List.mem_map.mp listed
      exact absent (List.mem_map.mpr ⟨e, member, (Prod.mk.inj same).1⟩)
  · intro k o n used
    rw [batch.batches, get?_recorded] at used
    rw [batch.readings, batch.queued]
    split at used
    · rename_i listed
      obtain ⟨e, member, same⟩ := List.mem_map.mp listed
      cases same
      rw [Option.some.injEq] at used
      exact ⟨(acc.opened e.1 e.2 (batch.held e member)).1, used.ge⟩
    · obtain ⟨bound, old⟩ := acc.recorded k o n used
      exact ⟨bound, old.trans (Nat.le_succ _)⟩
  · intro k
    rw [counters.1, batch.old (acc.taken.1.trans acc.taken.2), ← acc.table k, batch.db]
  · rw [counters.1, counters.2, batch.queued]
    exact ⟨acc.taken.1, acc.taken.2.trans (Nat.le_succ _)⟩
  · rw [batch.db]
    exact acc.running

end Batch

/-! ### What becomes of a bucket -/

/-- What a later history keeps of an earlier one, where `log` had been recorded: its
batches, and each bucket that was open: open still and in no batch since, or in the first
batch since that has rows of its interval. -/
structure Follows (stored : Dict Key Sums) (log : List Row) (cut cut' : ℕ → Key → ℕ)
    (h h' : History) : Prop where
  queued : h.db.queued ≤ h'.db.queued
  cuts : ∀ n ≤ h.db.queued, ∀ k, cut' n k = cut n k
  batched : ∀ n ≤ h.db.queued, ∀ k, h'.db.batched stored n k = h.db.batched stored n k
  numbers : ∀ q n, h.batches.get? q = some n → h'.batches.get? q = some n
  bucket : ∀ k b, h.openAt k = some b →
    ((∃ b', h'.openAt k = some b' ∧ b'.opened = b.opened) ∧
      ∀ n, h.db.queued ≤ n → n ≤ h'.db.queued →
        h'.db.batched stored n k = h.db.batched stored h.db.queued k) ∨
    ∃ n, h'.batches.get? (k, b.opened) = some n ∧ h.db.queued < n ∧ n ≤ h'.db.queued ∧
      (rowsOf k log).length ≤ cut' n k ∧
      ∀ j, h.db.queued ≤ j → j < n →
        h'.db.batched stored j k = h.db.batched stored h.db.queued k

theorem Follows.refl (stored : Dict Key Sums) (log : List Row) (cut : ℕ → Key → ℕ)
    (h : History) : Follows stored log cut cut h h where
  queued := le_rfl
  cuts _ _ _ := rfl
  batched _ _ _ := rfl
  numbers _ _ used := used
  bucket _ b found := by
    refine Or.inl ⟨⟨b, found, rfl⟩, fun n lower upper => ?_⟩
    rw [le_antisymm upper lower]

theorem Follows.trans {log' : List Row} {cut' cut'' : ℕ → Key → ℕ} {h' h'' : History}
    (first : Follows stored log cut cut' h h') (second : Follows stored log' cut' cut'' h' h'')
    (longer : ∀ k, (rowsOf k log).length ≤ (rowsOf k log').length) :
    Follows stored log cut cut'' h h'' where
  queued := first.queued.trans second.queued
  cuts n old k := by rw [second.cuts n (old.trans first.queued), first.cuts n old]
  batched n old k := by rw [second.batched n (old.trans first.queued), first.batched n old]
  numbers q n used := second.numbers q n (first.numbers q n used)
  bucket k b found := by
    rcases first.bucket k b found with
      ⟨⟨b', open', same⟩, idle⟩ | ⟨n, used, after, bound, count, idle⟩
    · rcases second.bucket k b' open' with
        ⟨⟨b'', open'', same'⟩, idle'⟩ | ⟨n, used, after, bound, count, idle'⟩
      · refine Or.inl ⟨⟨b'', open'', same'.trans same⟩, fun n lower upper => ?_⟩
        rcases le_total n h'.db.queued with early | late
        · rw [second.batched n early, idle n lower early]
        · rw [idle' n late upper, idle _ first.queued le_rfl]
      · refine Or.inr ⟨n, same ▸ used, first.queued.trans_lt after, bound,
          (longer k).trans count, fun j lower upper => ?_⟩
        rcases le_total j h'.db.queued with early | late
        · rw [second.batched j early, idle j lower early]
        · rw [idle' j late upper, idle _ first.queued le_rfl]
    · refine Or.inr ⟨n, second.numbers _ _ used, after, bound.trans second.queued, ?_,
        fun j lower upper => ?_⟩
      · rw [second.cuts n bound]
        exact count
      · rw [second.batched j (upper.le.trans bound), idle j lower upper]

/-- A batch takes the buckets it holds, and leaves the others. -/
theorem Batched.follows {h' : History} {done : List (Key × Bucket)}
    (batch : Batched h h' done) (acc : Accounted stored log cut h) :
    Follows stored log cut (cutAt cut log h.db.queued (done.map Prod.fst)) h h' where
  queued := by rw [batch.queued]; exact Nat.le_succ _
  cuts n old k := if_pos old
  batched n old k := batch.old old k
  numbers q n used := batch.number_kept acc used
  bucket k b found := by
    by_cases listed : k ∈ done.map Prod.fst
    · obtain ⟨⟨q, b'⟩, member, same⟩ := List.mem_map.mp listed
      obtain rfl : k = q := same.symm
      have same := batch.held _ member
      rw [found, Option.some.injEq] at same
      subst same
      refine Or.inr ⟨_, batch.number_in member, Nat.lt_succ_self _, batch.queued.ge, ?_,
        fun j lower upper => ?_⟩
      · rw [cutAt, if_neg (by omega), if_pos listed]
      · have old : j = h.db.queued := by omega
        rw [old, batch.old le_rfl]
    · refine Or.inl ⟨⟨b, by rw [batch.opens, if_neg listed, found], rfl⟩,
        fun n lower upper => ?_⟩
      rw [batch.queued] at upper
      rcases Nat.le_succ_iff.mp upper with old | rfl
      · rw [le_antisymm old lower, batch.old le_rfl]
      · rw [batch.last k, rows_out listed, List.append_nil]

/-- Recording leaves every bucket open. -/
theorem Follows.of_record {h' : History} (db : h'.db = h.db) (batches : h'.batches = h.batches)
    (kept : ∀ k b, h.openAt k = some b → ∃ b', h'.openAt k = some b' ∧ b'.opened = b.opened) :
    Follows stored log cut cut h h' where
  queued := by rw [db]
  cuts _ _ _ := rfl
  batched n _ k := by rw [db]
  numbers q n used := by rw [batches, used]
  bucket k b found := by
    refine Or.inl ⟨kept k b found, fun n lower upper => ?_⟩
    rw [db] at upper ⊢
    rw [le_antisymm upper lower]

/-! ### Steps -/

theorem openAt_setDevice (h : History) (name : String) (d : Device) (r : ℕ) (k : Key) :
    { h with devices := h.devices.set name d, readings := r }.openAt k =
      if k.1 = name then d.buckets.get? k.2 else h.openAt k := by
  simp only [History.openAt, Dict.get?_set]
  split <;> rfl

theorem openAt_device (h : History) (lfdi : String) (start : ℚ) :
    h.openAt (lfdi.toLower, start) = (h.device lfdi).buckets.get? start := by
  simp only [History.openAt, History.device, Dict.getD]
  cases h.devices.get? lfdi.toLower <;> rfl

theorem openAt_write (h : History) (done : List (Key × Bucket)) (k : Key) :
    (h.write done).openAt k = h.openAt k := by
  rw [History.openAt, devices_write, History.openAt]

/-- A reading adds to the intervals of its own device. -/
theorem readRows_other {d : Device} {name : String} {t : ℚ} {w : Value} {k : Key}
    (other : k.1 ≠ name) : rowsOf k (d.readRows s name t w) = [] := by
  unfold rowsOf
  rw [List.map_eq_nil_iff, List.filter_eq_nil_iff]
  intro r listed
  rw [decide_eq_true_eq]
  rintro rfl
  apply other
  simp only [Device.readRows, Device.bridgedRows, List.mem_append, List.mem_singleton] at listed
  rcases listed with held | rfl
  · split at held
    · cases held
    · split at held
      · obtain ⟨p, _, rfl⟩ := List.mem_map.mp held
        rfl
      · cases held
  · rfl

/-- Writing what left memory. -/
theorem flush_spec {g g' : History} {done : List (Key × Bucket)} (acc : Accounted stored log cut g)
    (same : g'.db = g.db ∧ g'.batches = g.batches ∧ g'.readings = g.readings)
    (distinct : (done.map Prod.fst).Nodup) (held : ∀ e ∈ done, g.openAt e.1 = some e.2)
    (opens : ∀ k, g'.openAt k = if k ∈ done.map Prod.fst then none else g.openAt k)
    (kept : (g'.write done).db.refused = g'.db.refused) :
    ∃ cut', Accounted stored log cut' (g'.write done) ∧
      Follows stored log cut cut' g (g'.write done) := by
  obtain ⟨db, batches, readings⟩ := same
  by_cases none_done : done = []
  · subst none_done
    have opens' : ∀ k, g'.openAt k = g.openAt k := fun k => by rw [opens k]; simp
    have idle : g'.write [] = g' := rfl
    rw [idle]
    refine ⟨cut, ?_, Follows.of_record db batches fun k b found =>
      ⟨b, by rw [opens' k, found], rfl⟩⟩
    have recorded : Accounted stored (log ++ []) cut g' := acc.record db batches readings.ge
      (fun k => by rw [opens' k, acc.memory k]; simp)
      (fun k b found => Or.inl ⟨b, by rw [← opens' k, found], rfl⟩)
    rwa [List.append_nil] at recorded
  · obtain ⟨new_db, new_batches⟩ := write_spec g' none_done (by rw [db]; exact acc.running) kept
    have batch : Batched g (g'.write done) done :=
      { db := by rw [new_db, db]
        batches := by rw [new_batches, db, batches]
        readings := by rw [readings_write, readings]
        distinct := distinct
        held := held
        opens := fun k => by rw [openAt_write, opens k] }
    exact ⟨_, acc.batch batch, batch.follows acc⟩

/-- The intervals of a device that start before `start` leave memory in one batch. -/
theorem flushBefore_spec {name : String} {d : Device} (start : ℚ)
    (acc : Accounted stored log cut { h with devices := h.devices.set name d })
    (kept : (h.flushBefore name d start).db.refused = h.db.refused) :
    ∃ cut', Accounted stored log cut' (h.flushBefore name d start) ∧
      Follows stored log cut cut' { h with devices := h.devices.set name d }
        (h.flushBefore name d start) := by
  have g_open := openAt_setDevice h name d h.readings
  have sorted : ∀ e, e ∈ (d.buckets.entries.filter fun e => decide (e.1 < start)).mergeSort
      (fun a b => decide (a.1 ≤ b.1)) ↔ d.buckets.get? e.1 = some e.2 ∧ e.1 < start := by
    intro e
    rw [List.mem_mergeSort, List.mem_filter, decide_eq_true_eq, Dict.mem_entries_iff]
  have listed : ∀ k, k ∈ (keyed name ((d.buckets.entries.filter fun e =>
      decide (e.1 < start)).mergeSort fun a b => decide (a.1 ≤ b.1))).map Prod.fst ↔
      k.1 = name ∧ (∃ b, d.buckets.get? k.2 = some b) ∧ k.2 < start := by
    intro k
    rw [List.mem_map]
    constructor
    · rintro ⟨⟨_, b⟩, member, rfl⟩
      obtain ⟨mine, inside⟩ := mem_keyed.mp member
      obtain ⟨found, early⟩ := (sorted _).mp inside
      exact ⟨mine, ⟨b, found⟩, early⟩
    · rintro ⟨mine, ⟨b, found⟩, early⟩
      exact ⟨(k, b), mem_keyed.mpr ⟨mine, (sorted _).mpr ⟨found, early⟩⟩, rfl⟩
  let cleared : History :=
    { h with devices := (h.devices.set name
      { d with buckets := d.buckets.filter fun t _ => !decide (t < start) }) }
  have same : cleared.db = h.db ∧ cleared.batches = h.batches ∧ cleared.readings = h.readings :=
    ⟨rfl, rfl, rfl⟩
  refine flush_spec acc same ?_ ?_ ?_ kept
  · rw [keys_keyed]
    refine List.Nodup.map (fun _ _ same => (Prod.mk.inj same).2) ?_
    have order := ((d.buckets.entries.filter fun e => decide (e.1 < start)).mergeSort_perm
      fun a b => decide (a.1 ≤ b.1)).map Prod.fst
    exact order.nodup_iff.mpr (d.buckets.nodup.sublist (List.filter_sublist.map _))
  · rintro ⟨k, b⟩ member
    obtain ⟨mine, inside⟩ := mem_keyed.mp member
    exact (g_open k).trans ((if_pos mine).trans ((sorted _).mp inside).1)
  · intro k
    refine (openAt_setDevice h name _ h.readings k).trans ?_
    rw [g_open k]
    by_cases mine : k.1 = name
    · rw [if_pos mine, if_pos mine, Dict.get?_filter]
      split
      · rename_i member
        obtain ⟨_, ⟨b, found⟩, early⟩ := (listed k).mp member
        simp [found, early]
      · rename_i absent
        cases found : d.buckets.get? k.2 with
        | none => rfl
        | some b =>
            have late : ¬ k.2 < start := fun early =>
              absent ((listed k).mpr ⟨mine, ⟨b, found⟩, early⟩)
            simp [late]
    · rw [if_neg mine, if_neg mine, if_neg]
      exact fun member => mine ((listed k).mp member).1

/-- A reading that is taken is recorded in memory. -/
theorem reading_spec (acc : Accounted stored log cut h) (lfdi : String) (t : ℚ)
    (w var : Value) {g : History}
    (g_def : g = { h with
      devices := h.devices.set lfdi.toLower
        (((h.device lfdi).heldTo s h.readings t).takeReading s h.readings t w var)
      readings := h.readings + 1 }) :
    Accounted stored (log ++ (h.device lfdi).readRows s lfdi.toLower t w) cut g ∧
      Follows stored log cut cut h g := by
  have device_has : (h.device lfdi).Has lfdi.toLower
      fun k => (rowsOf k log).drop (cut h.db.queued k) := by
    intro start
    rw [← openAt_device]
    exact acc.memory _
  obtain ⟨has, grown⟩ := takeReading_spec (s := s) h.readings t w var device_has
  have g_open : ∀ k, g.openAt k =
      if k.1 = lfdi.toLower then (((h.device lfdi).heldTo s h.readings t).takeReading s
        h.readings t w var).buckets.get? k.2 else h.openAt k := by
    rw [g_def]
    exact openAt_setDevice h lfdi.toLower _ _
  have g_db : g.db = h.db := by rw [g_def]
  have g_batches : g.batches = h.batches := by rw [g_def]
  have g_readings : g.readings = h.readings + 1 := by rw [g_def]
  constructor
  · refine acc.record g_db g_batches (by omega) (fun k => ?_) (fun k b found => ?_)
    · rw [g_open k]
      split
      · rename_i mine
        obtain ⟨name, start⟩ := k
        obtain rfl : name = lfdi.toLower := mine
        exact has start
      · rename_i other
        rw [acc.memory k, readRows_other other, List.append_nil]
    · rw [g_open k] at found
      split at found
      · rename_i mine
        obtain ⟨name, start⟩ := k
        obtain rfl : name = lfdi.toLower := mine
        rw [openAt_device]
        cases before : (h.device lfdi).buckets.get? start with
        | none =>
            have new := grown.new start b before found
            exact Or.inr (by omega)
        | some b' =>
            obtain ⟨b'', found', same⟩ := grown.kept start b' before
            rw [found, Option.some.injEq] at found'
            exact Or.inl ⟨b', rfl, by rw [found', same]⟩
      · exact Or.inl ⟨b, found, rfl⟩
  · refine Follows.of_record g_db g_batches fun k b found => ?_
    rw [g_open k]
    split
    · rename_i mine
      obtain ⟨name, start⟩ := k
      obtain rfl : name = lfdi.toLower := mine
      rw [openAt_device] at found
      exact grown.kept start b found
    · exact ⟨b, found, rfl⟩

/-- Nothing is recorded, and no bucket is touched. -/
theorem idle_spec {h' : History} (acc : Accounted stored log cut h)
    (same : h'.db = h.db ∧ h'.batches = h.batches ∧ h'.readings = h.readings)
    (opens : ∀ k, h'.openAt k = h.openAt k) :
    ∃ cut', Accounted stored log cut' h' ∧ Follows stored log cut cut' h h' := by
  have none_left : ∀ k, h'.openAt k =
      if k ∈ ([] : List (Key × Bucket)).map Prod.fst then none else h.openAt k := by
    intro k
    rw [opens k]
    simp
  have distinct : (([] : List (Key × Bucket)).map Prod.fst).Nodup := List.nodup_nil
  exact flush_spec acc same distinct (fun _ h => nomatch h) none_left rfl

theorem rowsOf_append_le (k : Key) (log rows : List Row) :
    (rowsOf k log).length ≤ (rowsOf k (log ++ rows)).length := by
  rw [rowsOf_append, List.length_append]
  exact Nat.le_add_right _ _

theorem observe_spec (acc : Accounted stored log cut h) (lfdi : String) (t : ℚ) (w var : Value)
    (kept : (h.observe s lfdi t w var).db.refused = h.db.refused) :
    ∃ cut', Accounted stored (log ++ h.recorded s (.observe lfdi t w var)) cut'
        (h.observe s lfdi t w var) ∧
      Follows stored log cut cut' h (h.observe s lfdi t w var) := by
  simp only [History.observe, History.recorded] at kept ⊢
  split
  · rw [List.append_nil]
    refine idle_spec acc ⟨rfl, rfl, rfl⟩ fun k => ?_
    rw [openAt_setDevice h lfdi.toLower _ h.readings k]
    split
    · rename_i mine
      rw [← openAt_device, ← mine]
    · rfl
  · rename_i fresh
    rw [if_neg fresh] at kept
    obtain ⟨recorded, first⟩ := reading_spec (s := s) acc lfdi t w var rfl
    obtain ⟨cut', acc', second⟩ := flushBefore_spec
      (h := { h with readings := h.readings + 1 }) (s.floor t) recorded kept
    exact ⟨cut', acc', first.trans second fun k => rowsOf_append_le k log _⟩

theorem openAt_mapDevice {h h' : History} {name : String} {f : Device → Device}
    (devices : h'.devices = h.devices.modify name f) (same : ∀ d, (f d).buckets = d.buckets)
    (k : Key) : h'.openAt k = h.openAt k := by
  simp only [History.openAt, devices, Dict.get?_modify]
  split
  · cases h.devices.get? k.1 <;> simp [same]
  · rfl

/-- What happens to the database alone, besides batches of this table being queued. -/
theorem Accounted.of_db (acc : Accounted stored log cut h) {db : Database}
    (accepted : db.accepted = h.db.accepted) (closed : db.closed = h.db.closed)
    (table : ∀ k, db.table.get? k = combine (h.db.batched stored db.written k))
    (taken : db.written ≤ db.taken ∧ db.taken ≤ h.db.queued) :
    Accounted stored log cut { h with db := db } ∧
      Follows stored log cut cut h { h with db := db } := by
  have queued : db.queued = h.db.queued := by rw [Database.queued, accepted, Database.queued]
  have batched : ∀ n k, db.batched stored n k = h.db.batched stored n k := fun n k => by
    rw [Database.batched, accepted, Database.batched]
  constructor
  · constructor
    · intro n old k
      rw [batched n k]
      exact acc.batches n (queued ▸ old) k
    · intro m n k before old
      exact acc.forward m n k before (queued ▸ old)
    · intro n old k
      exact acc.within n (queued ▸ old) k
    · intro k
      rw [queued]
      exact acc.memory k
    · exact acc.opened
    · intro k o n used
      rw [queued]
      exact acc.recorded k o n used
    · intro k
      rw [batched]
      exact table k
    · rw [queued]
      exact taken
    · exact closed.trans acc.running
  · constructor
    · rw [queued]
    · exact fun _ _ _ => rfl
    · exact fun n _ k => batched n k
    · exact fun _ _ used => used
    · intro k b found
      refine Or.inl ⟨⟨b, found, rfl⟩, fun n lower upper => ?_⟩
      rw [batched, le_antisymm (queued ▸ upper) lower]

theorem batched_succ (db : Database) (n : ℕ) (k : Key) :
    db.batched stored (n + 1) k =
      db.batched stored n k ++ rowsOf k (db.accepted[n]?.getD []) := by
  simp only [Database.batched, List.take_add_one, List.flatten_append, rowsOf_append,
    List.append_assoc]
  cases db.accepted[n]? <;> simp

theorem runBatch_spec (acc : Accounted stored log cut h) :
    Accounted stored log cut { h with db := h.db.runBatch false none } ∧
      Follows stored log cut cut h { h with db := h.db.runBatch false none } := by
  unfold Database.runBatch
  split
  · rename_i waiting
    refine acc.of_db rfl rfl (fun k => ?_) ⟨waiting, acc.taken.2⟩
    simp only [Bool.false_eq_true, if_false]
    rw [get?_upserts, acc.table k, combine_combine_append, ← batched_succ]
  · exact acc.of_db rfl rfl acc.table acc.taken

theorem take_spec (acc : Accounted stored log cut h) :
    Accounted stored log cut { h with db := h.db.take } ∧
      Follows stored log cut cut h { h with db := h.db.take } := by
  obtain ⟨early, late⟩ := acc.taken
  unfold Database.take
  split
  · rename_i ready
    exact acc.of_db rfl rfl acc.table ⟨early.trans (Nat.le_succ _), ready.2⟩
  · exact acc.of_db rfl rfl acc.table ⟨early, late⟩

theorem queueOther_spec (acc : Accounted stored log cut h) :
    ∃ cut', Accounted stored log cut' { h with db := (h.db.queueBatch []).2 } ∧
      Follows stored log cut cut' h { h with db := (h.db.queueBatch []).2 } := by
  by_cases room : h.db.queued - h.db.taken < maxPendingWrites
  · rw [queueBatch_accepts [] acc.running room]
    have batch : Batched h { h with db := { h.db with accepted := h.db.accepted ++ [[]] } } [] :=
      { db := rfl
        batches := rfl
        readings := rfl
        distinct := List.nodup_nil
        held := fun _ listed => nomatch listed
        opens := fun _ => rfl }
    exact ⟨_, acc.batch batch, batch.follows acc⟩
  · rw [queueBatch_full [] acc.running room]
    exact ⟨cut, acc.of_db rfl rfl acc.table acc.taken⟩

theorem flushAll_spec (acc : Accounted stored log cut h)
    (kept : h.flush.db.refused = h.db.refused) :
    ∃ cut', Accounted stored log cut' h.flush ∧ Follows stored log cut cut' h h.flush := by
  refine flush_spec acc ⟨rfl, rfl, rfl⟩ (nodup_openBuckets h) ?_ (fun k => ?_) kept
  · rintro ⟨k, b⟩ listed
    exact (mem_openBuckets h k b).mp listed
  · have cleared : History.openAt
        { h with devices := h.devices.mapValues fun d => { d with buckets := Dict.empty } } k =
        none := by
      simp only [History.openAt, Dict.get?_mapValues]
      cases h.devices.get? k.1 <;> rfl
    rw [cleared]
    split
    · rfl
    · rename_i absent
      cases found : h.openAt k with
      | none => rfl
      | some b =>
          exact absurd (List.mem_map.mpr ⟨_, (mem_openBuckets h k b).mpr found, rfl⟩) absent

/-- Every step that loses nothing is accounted for. -/
theorem step_spec (acc : Accounted stored log cut h) (x : Step)
    (lossless : ∀ fails cutoff, x = .runBatch fails cutoff → fails = false ∧ cutoff = none)
    (running : x ≠ .close) (kept : (h.step s x).db.refused = h.db.refused) :
    ∃ cut', Accounted stored (log ++ h.recorded s x) cut' (h.step s x) ∧
      Follows stored log cut cut' h (h.step s x) := by
  cases x with
  | observe lfdi t w var => exact observe_spec acc lfdi t w var kept
  | observeAvailability lfdi t wAvail =>
      simp only [History.recorded, List.append_nil]
      refine idle_spec acc ⟨rfl, rfl, rfl⟩ fun k => ?_
      refine (openAt_setDevice h lfdi.toLower _ h.readings k).trans ?_
      split
      · rename_i mine
        obtain ⟨name, start⟩ := k
        obtain rfl : name = lfdi.toLower := mine
        rw [openAt_device]
      · rfl
  | interrupt lfdi =>
      simp only [History.recorded, List.append_nil]
      exact idle_spec acc ⟨rfl, rfl, rfl⟩ (openAt_mapDevice rfl fun _ => rfl)
  | flush =>
      simp only [History.recorded, List.append_nil]
      exact flushAll_spec acc kept
  | queueOther =>
      simp only [History.recorded, List.append_nil]
      exact queueOther_spec acc
  | take =>
      simp only [History.recorded, List.append_nil]
      exact ⟨cut, take_spec acc⟩
  | runBatch fails cutoff =>
      obtain ⟨rfl, rfl⟩ := lossless fails cutoff rfl
      simp only [History.recorded, List.append_nil]
      exact ⟨cut, runBatch_spec acc⟩
  | close => exact absurd rfl running

/-! ### Merging -/

theorem get?_keyedRows {rows : List Row} (distinct : (rows.map Prod.fst).Nodup) (k : Key) :
    (keyedRows rows).get? k = Dict.lookupEntry k rows := by
  have general : ∀ d : Dict Key Sums,
      (rows.foldl (fun d r => d.set r.1 r.2) d).get? k =
        (Dict.lookupEntry k rows).or (d.get? k) := by
    induction rows with
    | nil => simp [Dict.lookupEntry]
    | cons r rest ih =>
        intro d
        obtain ⟨new, distinct⟩ := List.nodup_cons.mp distinct
        rw [List.foldl_cons, ih distinct, Dict.get?_set, Dict.lookupEntry]
        by_cases same : r.1 = k
        · have absent := (Dict.lookupEntry_eq_none_iff k rest).mpr (same ▸ new)
          simp [same, absent]
        · simp [same, Ne.symm same]
  have all := general Dict.empty
  rwa [Dict.get?_empty, Option.or_none] at all

theorem lookup_merge (h : History) {rows : List Row} (copies : List (Key × Bucket)) (through : ℕ)
    (distinct : (rows.map Prod.fst).Nodup) (k : Key) :
    Dict.lookupEntry k (h.merge rows copies through) =
      combine ((Dict.lookupEntry k rows).toList ++
        rowsOf k ((h.unwritten copies through).map Bucket.row)) := by
  have upserted := get?_upserts (keyedRows rows) ((h.unwritten copies through).map Bucket.row) k
  rw [List.foldl_map, get?_keyedRows distinct] at upserted
  exact upserted

theorem nodup_merge (h : History) (rows : List Row) (copies : List (Key × Bucket))
    (through : ℕ) : ((h.merge rows copies through).map Prod.fst).Nodup :=
  Dict.nodup _

/-- How many contributions a row counts: at least those recorded before the copies. -/
def CountsOnce (log : List Row) (mark : ℕ) (rows : List Row) (k : Key) : Prop :=
  ∃ n, (rowsOf k (log.take mark)).length ≤ n ∧ n ≤ (rowsOf k log).length ∧
    Dict.lookupEntry k rows = combine ((rowsOf k log).take n)

theorem rowsOf_take (k : Key) (log : List Row) (mark : ℕ) :
    (rowsOf k log).take (rowsOf k (log.take mark)).length = rowsOf k (log.take mark) := by
  have parts : rowsOf k log = rowsOf k (log.take mark) ++ rowsOf k (log.drop mark) := by
    rw [← rowsOf_append, List.take_append_drop]
  rw [parts, List.take_left]

/-- The copies of an earlier history that a read lacks. -/
theorem rowsOf_unwritten {keep keep' : Key → Bool} {h₀ : History} (through : ℕ) {k : Key}
    (kept : keep k = true) (kept' : keep' k = true) :
    rowsOf k ((h.unwritten ((h₀.pending keep).filter fun e => keep' e.1) through).map Bucket.row) =
      match h₀.openAt k with
      | none => []
      | some b => if h.lacks through (k, b) then [b.sums] else [] := by
  set copies := h.unwritten ((h₀.pending keep).filter fun e => keep' e.1) through with copies_def
  have distinct : (copies.map Prod.fst).Nodup :=
    (nodup_openBuckets h₀).sublist
      (((List.filter_sublist.trans List.filter_sublist).trans List.filter_sublist).map _)
  have listed : ∀ b, (k, b) ∈ copies ↔ h₀.openAt k = some b ∧ h.lacks through (k, b) = true := by
    intro b
    rw [copies_def]
    simp only [History.unwritten, History.pending, List.mem_filter, mem_openBuckets, kept, kept',
      and_true]
  have absent : (∀ b, (k, b) ∉ copies) → k ∉ copies.map Prod.fst := by
    intro none_listed member
    obtain ⟨⟨q, b⟩, member, same⟩ := List.mem_map.mp member
    obtain rfl : k = q := same.symm
    exact none_listed b member
  cases found : h₀.openAt k with
  | none =>
      refine rows_out (absent fun b member => ?_)
      rw [found] at listed
      cases ((listed b).mp member).1
  | some b =>
      by_cases lacks : h.lacks through (k, b) = true
      · simp only [lacks, if_true]
        exact rows_in distinct ((listed b).mpr ⟨found, lacks⟩)
      · simp only [lacks, Bool.false_eq_true, if_false]
        refine rows_out (absent fun b' member => ?_)
        obtain ⟨same, lacks'⟩ := (listed b').mp member
        rw [found, Option.some.injEq] at same
        exact lacks (same ▸ lacks')

/-- A read merged with the copies counts each contribution once. -/
theorem merge_counts {h₀ : History} {cut₀ : ℕ → Key → ℕ} {mark : ℕ} (acc : Accounted stored log cut h)
    (acc₀ : Accounted stored (log.take mark) cut₀ h₀)
    (follows : Follows stored (log.take mark) cut₀ cut h₀ h) {keep keep' : Key → Bool}
    {rows : List Row} {through : ℕ} (since : h₀.db.queued ≤ through)
    (bound : through ≤ h.db.queued) (distinct : (rows.map Prod.fst).Nodup)
    {k : Key} (kept : keep k = true) (kept' : keep' k = true)
    (read : Dict.lookupEntry k rows = combine (h.db.batched stored through k)) :
    CountsOnce log mark
      (h.merge rows ((h₀.pending keep).filter fun e => keep' e.1) through) k := by
  unfold CountsOnce
  rw [lookup_merge h _ through distinct k, read, combine_combine_append,
    rowsOf_unwritten through kept kept']
  have all_read : (rowsOf k (log.take mark)).length ≤ cut through k →
      ∃ n, (rowsOf k (log.take mark)).length ≤ n ∧ n ≤ (rowsOf k log).length ∧
        combine (h.db.batched stored through k ++ []) = combine ((rowsOf k log).take n) := by
    intro enough
    refine ⟨cut through k, enough, acc.within through bound k, ?_⟩
    rw [List.append_nil, acc.batches through bound k]
  have memory := acc₀.memory k
  cases found : h₀.openAt k with
  | none =>
      rw [found, Option.map_none] at memory
      have read_all := List.drop_eq_nil_iff.mp (combine_eq_none.mp memory.symm)
      apply all_read
      rw [← follows.cuts _ le_rfl k] at read_all
      exact read_all.trans (acc.forward _ _ k since bound)
  | some b =>
      rw [found, Option.map_some] at memory
      have sums : combine [b.sums] =
          combine ((rowsOf k (log.take mark)).drop (cut₀ h₀.db.queued k)) := by
        rw [← memory]
        simp [combine]
      have copied : h.db.batched stored through k = h₀.db.batched stored h₀.db.queued k →
          ∃ n, (rowsOf k (log.take mark)).length ≤ n ∧ n ≤ (rowsOf k log).length ∧
            combine (h.db.batched stored through k ++ [b.sums]) =
              combine ((rowsOf k log).take n) := by
        intro idle
        refine ⟨_, le_rfl, ?_, ?_⟩
        · conv_rhs => rw [← List.take_append_drop mark log]
          exact rowsOf_append_le k _ _
        · rw [idle, combine_append_left _ (acc₀.batches _ le_rfl k),
            combine_append_right _ sums, List.take_append_drop, rowsOf_take]
      rcases follows.bucket k b found with
        ⟨⟨b', still, same⟩, idle⟩ | ⟨n, number, after, reached, count, idle⟩
      · have free := (acc.opened k b' still).2
        rw [same] at free
        simp only [History.lacks, free, if_true]
        exact copied (idle through since bound)
      · simp only [History.lacks, number, decide_eq_true_eq]
        by_cases later : through < n
        · rw [if_pos later]
          exact copied (idle through since later)
        · rw [if_neg later]
          apply all_read
          exact count.trans (acc.forward n through k (not_lt.mp later) bound)

end Py20305.Intervals
