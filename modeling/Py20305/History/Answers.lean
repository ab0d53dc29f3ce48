import Mathlib.Data.List.Dedup
import Py20305.History.Counted
import Py20305.History.Energy
import Py20305.Lib.Sorted

/-!
What a call answers.

A read with a limit sees the first rows only, and so does its answer
(`limited_merge`): a copy whose stored row was cut off comes after all rows read. The
invariant of a call (`Call.Sound`) ties it to the history its copies were taken of.
-/

namespace Py20305.Intervals

/-! ### Limits -/

theorem rowOrder_trans (a b c : Row) (first : rowOrder a b = true) (second : rowOrder b c = true) :
    rowOrder a c = true := by
  simp only [rowOrder, decide_eq_true_eq] at first second ⊢
  exact first.trans second

theorem rowOrder_total (a b : Row) : (rowOrder a b || rowOrder b a) = true := by
  simp only [rowOrder, Bool.or_eq_true, decide_eq_true_eq]
  exact le_total _ _

theorem rowOrder_antisymm {a b : Row} (first : rowOrder a b = true) (second : rowOrder b a = true) :
    a.1 = b.1 := by
  simp only [rowOrder, decide_eq_true_eq] at first second
  have same := le_antisymm first second
  rw [toLex_inj, Prod.mk.injEq] at same
  exact Prod.ext same.2 same.1

/-- Rows keyed once are the entries that are looked up. -/
theorem mem_rows {rows : List Row} (distinct : (rows.map Prod.fst).Nodup) (r : Row) :
    r ∈ rows ↔ Dict.lookupEntry r.1 rows = some r.2 :=
  ⟨fun listed => Dict.lookupEntry_of_mem distinct listed, fun found => Dict.mem_of_lookupEntry found⟩

/-- A row no later than one of those read. -/
def reached (read : List Row) (r : Row) : Bool := read.any fun q => rowOrder r q

theorem reached_of_mem {read : List Row} {r : Row} (listed : r ∈ read) : reached read r = true := by
  have self : rowOrder r r = true := by simpa using rowOrder_total r r
  exact List.any_eq_true.mpr ⟨r, listed, self⟩

theorem reached_key {read : List Row} {a b : Row} (same : a.1 = b.1) :
    reached read a = reached read b := by
  unfold reached rowOrder
  rw [same]

/-- A row that is reached precedes every row that is not. -/
theorem reached_before {read : List Row} {a b : Row} (reached_a : reached read a = true)
    (missed : reached read b = false) : rowOrder b a = false := by
  obtain ⟨q, listed, before⟩ := List.any_eq_true.mp reached_a
  by_contra later
  rw [Bool.not_eq_false] at later
  have contrary := List.any_eq_true.mpr ⟨q, listed, rowOrder_trans b a q later before⟩
  exact absurd contrary (by simpa [reached] using missed)

/-- Rows that are cut off come after those read. -/
theorem not_reached {rows : List Row} (distinct : (rows.map Prod.fst).Nodup) {m : ℕ} {r : Row}
    (cut_off : r ∈ (rows.mergeSort rowOrder).drop m) :
    reached ((rows.mergeSort rowOrder).take m) r = false := by
  have sorted := List.pairwise_mergeSort rowOrder_trans rowOrder_total rows
  have once : ((rows.mergeSort rowOrder).map Prod.fst).Nodup :=
    ((List.mergeSort_perm rows rowOrder).map Prod.fst).nodup_iff.mpr distinct
  rw [← List.take_append_drop m (rows.mergeSort rowOrder)] at sorted once
  rw [List.map_append] at once
  by_contra found
  rw [Bool.not_eq_false] at found
  obtain ⟨q, listed, before⟩ := List.any_eq_true.mp found
  have after := (List.pairwise_append.mp sorted).2.2 q listed r cut_off
  have same := rowOrder_antisymm before after
  exact (List.nodup_append.mp once).2.2 _ (List.mem_map_of_mem listed) _
    (List.mem_map_of_mem cut_off) same.symm

/-- The first rows of a merge need only the first rows of a read. -/
theorem limited_merge (h : History) (copies : List (Key × Bucket)) (through m : ℕ)
    {rows : List Row} (distinct : (rows.map Prod.fst).Nodup) :
    ((h.merge ((rows.mergeSort rowOrder).take m) copies through).mergeSort rowOrder).take m =
      ((h.merge rows copies through).mergeSort rowOrder).take m := by
  set sorted := rows.mergeSort rowOrder with sorted_def
  have perm : sorted.Perm rows := List.mergeSort_perm rows rowOrder
  have once : (sorted.map Prod.fst).Nodup := (perm.map Prod.fst).nodup_iff.mpr distinct
  have once_read : ((sorted.take m).map Prod.fst).Nodup :=
    once.sublist ((List.take_sublist m sorted).map _)
  have lookup_sorted : ∀ k, Dict.lookupEntry k sorted = Dict.lookupEntry k rows := by
    intro k
    cases found : Dict.lookupEntry k rows with
    | none =>
        rw [Dict.lookupEntry_eq_none_iff] at found ⊢
        rwa [(perm.map Prod.fst).mem_iff]
    | some v => exact Dict.lookupEntry_of_mem once (perm.mem_iff.mpr (Dict.mem_of_lookupEntry found))
  -- the merges agree on every key no read row precedes
  have agree : ∀ r : Row, (sorted.length ≤ m ∨ reached (sorted.take m) r = true) →
      Dict.lookupEntry r.1 (h.merge (sorted.take m) copies through) =
        Dict.lookupEntry r.1 (h.merge rows copies through) := by
    intro r within
    rw [lookup_merge h copies through once_read, lookup_merge h copies through distinct]
    congr 3
    rw [← lookup_sorted]
    cases found : Dict.lookupEntry r.1 (sorted.take m) with
    | some v =>
        exact (Dict.lookupEntry_of_mem once
          (List.mem_of_mem_take (Dict.mem_of_lookupEntry found))).symm
    | none =>
        symm
        rw [Dict.lookupEntry_eq_none_iff] at found ⊢
        intro listed
        obtain ⟨q, member, same⟩ := List.mem_map.mp listed
        rw [← List.take_append_drop m sorted, List.mem_append] at member
        rcases member with read | cut_off
        · exact found (List.mem_map.mpr ⟨q, read, same⟩)
        · rcases within with short | early
          · rw [List.drop_eq_nil_iff.mpr short] at cut_off
            cases cut_off
          · rw [← reached_key same, not_reached distinct cut_off] at early
            cases early
  have members : ∀ r : Row, (sorted.length ≤ m ∨ reached (sorted.take m) r = true) →
      (r ∈ h.merge (sorted.take m) copies through ↔ r ∈ h.merge rows copies through) := by
    intro r within
    rw [mem_rows (nodup_merge h _ copies through), mem_rows (nodup_merge h _ copies through),
      agree r within]
  have nodup : ∀ rows, (h.merge rows copies through).Nodup := fun rows =>
    (nodup_merge h rows copies through).of_map _
  have anti : ∀ a ∈ h.merge (sorted.take m) copies through, ∀ b ∈ h.merge rows copies through,
      (sorted.length ≤ m ∨ reached (sorted.take m) a = true) →
        rowOrder a b = true → rowOrder b a = true → a = b := by
    intro a a_in b b_in within first second
    have same := rowOrder_antisymm first second
    rw [members a within, mem_rows (nodup_merge h _ copies through), same] at a_in
    rw [mem_rows (nodup_merge h _ copies through), a_in, Option.some.injEq] at b_in
    exact Prod.ext same b_in
  by_cases short : sorted.length ≤ m
  · congr 1
    have all : (h.merge (sorted.take m) copies through).Perm (h.merge rows copies through) :=
      (List.perm_ext_iff_of_nodup (nodup _) (nodup _)).mpr fun r => members r (Or.inl short)
    apply List.Perm.eq_of_pairwise _ (List.pairwise_mergeSort rowOrder_trans rowOrder_total _)
      (List.pairwise_mergeSort rowOrder_trans rowOrder_total _)
      (((List.mergeSort_perm _ _).trans all).trans (List.mergeSort_perm _ _).symm)
    intro a b a_in b_in
    exact anti a (List.mem_mergeSort.mp a_in) b (List.mem_mergeSort.mp b_in) (Or.inl short)
  · apply take_mergeSort_congr (p := reached (sorted.take m)) rowOrder_trans rowOrder_total
    · intro a a_in b b_in
      obtain ⟨a_in, early⟩ := List.mem_filter.mp a_in
      exact anti a a_in b (List.mem_filter.mp b_in).1 (Or.inr early)
    · apply (List.perm_ext_iff_of_nodup ((nodup _).filter _) ((nodup _).filter _)).mpr
      intro r
      rw [List.mem_filter, List.mem_filter]
      exact and_congr_left fun early => members r (Or.inr early)
    · intro a _ b _
      exact reached_before
    · intro a _ b _
      exact reached_before
    · -- every row read is in the merge
      have inside : (sorted.take m).map Prod.fst ⊆
          ((h.merge (sorted.take m) copies through).filter (reached (sorted.take m))).map
            Prod.fst := by
        intro k listed
        obtain ⟨r, member, rfl⟩ := List.mem_map.mp listed
        have found := lookup_merge h copies through once_read r.1
        rw [Dict.lookupEntry_of_mem once_read member] at found
        obtain ⟨v, some_v⟩ : ∃ v, Dict.lookupEntry r.1
            (h.merge (sorted.take m) copies through) = some v := ⟨_, found⟩
        refine List.mem_map.mpr ⟨(r.1, v), List.mem_filter.mpr
          ⟨Dict.mem_of_lookupEntry some_v, ?_⟩, rfl⟩
        rw [reached_key (show ((r.1, v) : Row).1 = r.1 from rfl)]
        exact reached_of_mem member
      have count := (List.subperm_of_subset once_read inside).length_le
      rw [List.length_map, List.length_map, List.length_take] at count
      omega

/-! ### The reads of a call -/

theorem flatten_slices {α : Type} {size : ℕ} (pos : 0 < size) (turns : ℕ) (xs : List α)
    (enough : xs.length ≤ turns) : (slices size turns xs).flatten = xs := by
  induction turns generalizing xs with
  | zero => rw [List.length_eq_zero_iff.mp (Nat.le_zero.mp enough), slices, List.flatten_nil]
  | succ turns ih =>
      rw [slices]
      split
      · rename_i empty
        rw [List.isEmpty_iff.mp empty, List.flatten_nil]
      · rename_i some_left
        have shorter : (xs.drop size).length ≤ turns := by
          rw [List.length_drop]
          omega
        rw [List.flatten_cons, ih _ shorter, List.take_append_drop]

/-- The starts a call asks for, in the order they are read. -/
theorem slices_starts (wanted : List ℚ) :
    (slices batchSize (wanted.dedup.mergeSort fun a b => decide (a ≤ b)).length
      (wanted.dedup.mergeSort fun a b => decide (a ≤ b))).flatten =
      wanted.dedup.mergeSort fun a b => decide (a ≤ b) :=
  flatten_slices (by decide) _ _ le_rfl

theorem reads_inside (s : Settings) (request : Request) {q : Selection}
    (listed : q ∈ request.reads s) {k : Key} (kept : q.keep k = true) :
    request.keep s k = true := by
  cases request with
  | query lfdi since until_ limit =>
      obtain rfl := List.mem_singleton.mp listed
      exact kept
  | starts wanted lfdi =>
      obtain ⟨batch, member, rfl⟩ := List.mem_map.mp listed
      simp only [Bool.and_eq_true, decide_eq_true_eq] at kept
      have all := List.mem_flatten.mpr ⟨batch, member, kept.2⟩
      rw [slices_starts, List.mem_mergeSort, List.mem_dedup] at all
      simp [Request.keep, kept.1, all]

theorem reads_cover (s : Settings) (request : Request) {k : Key}
    (kept : request.keep s k = true) : ∃ q ∈ request.reads s, q.keep k = true := by
  cases request with
  | query lfdi since until_ limit => exact ⟨_, List.mem_singleton_self _, kept⟩
  | starts wanted lfdi =>
      simp only [Request.keep, Bool.and_eq_true, decide_eq_true_eq] at kept
      have all : k.2 ∈ wanted.dedup.mergeSort fun a b => decide (a ≤ b) := by
        rw [List.mem_mergeSort, List.mem_dedup]
        exact kept.2
      rw [← slices_starts] at all
      obtain ⟨batch, member, inside⟩ := List.mem_flatten.mp all
      exact ⟨_, List.mem_map.mpr ⟨batch, member, rfl⟩, by simp [kept.1, inside]⟩

theorem reads_disjoint (s : Settings) (request : Request) :
    (request.reads s).Pairwise fun q q' => ∀ k, q.keep k = true → q'.keep k = false := by
  cases request with
  | query lfdi since until_ limit => exact List.pairwise_singleton _ _
  | starts wanted lfdi =>
      have once : (wanted.dedup.mergeSort fun a b => decide (a ≤ b)).Nodup :=
        (List.mergeSort_perm _ _).nodup_iff.mpr wanted.nodup_dedup
      rw [← slices_starts, List.nodup_flatten] at once
      refine List.Pairwise.map _ (fun batch batch' apart k kept => ?_) once.2
      simp only [Bool.and_eq_true, decide_eq_true_eq] at kept
      exact Bool.and_eq_false_imp.mpr fun _ =>
        decide_eq_false fun inside => apart kept.2 inside

/-! ### The invariant of a call -/

/-- Where a call is with its read: what it waits for includes the batches queued before its
copies were taken, and what it read is the table after the first `through` batches. -/
def Call.StageOk (stored : Dict Key Sums) (h : History) (before : ℕ) (c : Call) : Prop :=
  match c.stage with
  | .copied => True
  | .waiting target => before ≤ target ∧ target ≤ h.db.queued
  | .read rows whole through =>
      before ≤ through ∧ through ≤ h.db.queued ∧ ∀ q ∈ c.rest.head?,
        (whole.map Prod.fst).Nodup ∧
        (∀ k ∈ whole.map Prod.fst, q.keep k = true) ∧
        (∀ k, q.keep k = true →
          Dict.lookupEntry k whole = combine (h.db.batched stored through k)) ∧
        rows = match q.limit with
          | none => whole
          | some m => (whole.mergeSort rowOrder).take m

/-- The limited rows are the first of all rows. -/
def Call.Limited (c : Call) : Prop :=
  match c.request.limit with
  | none => c.out = c.whole ∧ ∀ q ∈ c.rest, q.limit = none
  | some m =>
      (c.out.mergeSort rowOrder).take m = (c.whole.mergeSort rowOrder).take m ∧
        (c.rest = [] ∨ ∃ q, c.rest = [q] ∧ q.limit = some m ∧ c.out = [] ∧ c.whole = [])

/-- A call under way: its copies are of an earlier history, and the rows of the reads it
has made count each contribution once. -/
structure Call.Sound (s : Settings) (stored : Dict Key Sums) (w : World)
    (cut : ℕ → Key → ℕ) (c : Call) : Prop where
  origin : ∃ h₀ cut₀, Accounted stored (w.log.take c.mark) cut₀ h₀ ∧
    Follows stored (w.log.take c.mark) cut₀ cut h₀ w.history ∧
    c.copies = h₀.pending (c.request.keep s) ∧ c.StageOk stored w.history h₀.db.queued
  mark : c.mark ≤ w.log.length
  inside : ∀ q ∈ c.rest, ∀ k, q.keep k = true → c.request.keep s k = true
  disjoint : c.rest.Pairwise fun q q' => ∀ k, q.keep k = true → q'.keep k = false
  todo : ∀ q ∈ c.rest, ∀ k, q.keep k = true → Dict.lookupEntry k c.whole = none
  counted : ∀ k, c.request.keep s k = true →
    (∃ q ∈ c.rest, q.keep k = true) ∨ CountsOnce w.log c.mark c.whole k
  only : ∀ k ∈ c.whole.map Prod.fst, c.request.keep s k = true
  once : (c.whole.map Prod.fst).Nodup
  limited : c.Limited

theorem CountsOnce.append {log : List Row} {mark : ℕ} {rows : List Row} {k : Key}
    (counts : CountsOnce log mark rows k) (past : mark ≤ log.length) (more : List Row) :
    CountsOnce (log ++ more) mark rows k := by
  obtain ⟨n, least, most, found⟩ := counts
  refine ⟨n, ?_, most.trans (rowsOf_append_le k log more), ?_⟩
  · rwa [List.take_append_of_le_length past]
  · rw [found, rowsOf_append, List.take_append_of_le_length most]

variable {s : Settings} {stored : Dict Key Sums} {cut cut' : ℕ → Key → ℕ} {w : World} {c : Call}

/-- The recorders and the writer leave a call sound. -/
theorem Call.Sound.history (sound : c.Sound s stored w cut) {h' : History} (rows : List Row)
    (follows : Follows stored w.log cut cut' w.history h') :
    c.Sound s stored { w with history := h', log := w.log ++ rows } cut' := by
  obtain ⟨h₀, cut₀, acc₀, since, copies, stage⟩ := sound.origin
  have past : ((w.log ++ rows).take c.mark) = w.log.take c.mark :=
    List.take_append_of_le_length sound.mark
  have longer : ∀ k, (rowsOf k (w.log.take c.mark)).length ≤ (rowsOf k w.log).length := by
    intro k
    conv_rhs => rw [← List.take_append_drop c.mark w.log]
    exact rowsOf_append_le k _ _
  constructor
  · refine ⟨h₀, cut₀, ?_, ?_, copies, ?_⟩
    · simpa only [past] using acc₀
    · simpa only [past] using since.trans follows longer
    · unfold Call.StageOk at stage ⊢
      cases at_ : c.stage with
      | copied => trivial
      | waiting target =>
          rw [at_] at stage
          exact ⟨stage.1, stage.2.trans follows.queued⟩
      | read rows whole through =>
          rw [at_] at stage
          obtain ⟨after, bound, reads⟩ := stage
          refine ⟨after, bound.trans follows.queued, fun q head => ?_⟩
          obtain ⟨once, kept, found, limited⟩ := reads q head
          refine ⟨once, kept, fun k keeps => ?_, limited⟩
          rw [found k keeps, follows.batched through bound]
  · rw [List.length_append]
    exact sound.mark.trans (Nat.le_add_right _ _)
  · exact sound.inside
  · exact sound.disjoint
  · exact sound.todo
  · intro k kept
    rcases sound.counted k kept with later | counts
    · exact Or.inl later
    · exact Or.inr (counts.append sound.mark rows)
  · exact sound.only
  · exact sound.once
  · exact sound.limited

/-- A call begins with nothing counted. -/
theorem Call.Sound.copy (acc : Accounted stored w.log cut w.history) (request : Request)
    (call : Option Call) :
    Call.Sound s stored { w with call := call } cut
      { request := request
        copies := w.history.pending (request.keep s)
        mark := w.log.length
        rest := request.reads s
        stage := .copied
        out := []
        whole := [] } where
  origin := by
    refine ⟨w.history, cut, ?_, ?_, rfl, trivial⟩
    · simpa using acc
    · simpa using Follows.refl stored w.log cut w.history
  mark := le_rfl
  inside q listed k kept := reads_inside s request listed kept
  disjoint := reads_disjoint s request
  todo _ _ _ _ := rfl
  counted k kept := Or.inl (reads_cover s request kept)
  only k listed := nomatch listed
  once := List.nodup_nil
  limited := by
    unfold Call.Limited
    cases request with
    | query lfdi since until_ limit => exact ⟨rfl, Or.inr ⟨_, rfl, rfl, rfl, rfl⟩⟩
    | starts wanted lfdi =>
        refine ⟨rfl, fun q listed => ?_⟩
        obtain ⟨batch, _, rfl⟩ := List.mem_map.mp listed
        rfl

theorem Call.Sound.drain (sound : c.Sound s stored w cut) {c' : Call}
    (drained : c.drain w.history = some c') :
    c'.Sound s stored { w with call := some c' } cut := by
  unfold Call.drain at drained
  split at drained
  · cases drained
    obtain ⟨h₀, cut₀, acc₀, since, copies, _⟩ := sound.origin
    exact
      { origin := ⟨h₀, cut₀, acc₀, since, copies, since.queued, le_rfl⟩
        mark := sound.mark
        inside := sound.inside
        disjoint := sound.disjoint
        todo := sound.todo
        counted := sound.counted
        only := sound.only
        once := sound.once
        limited := sound.limited }
  · cases drained

/-- The rows of a read are what the batches run by then hold. -/
theorem lookup_rows (q : Selection) (table : Dict Key Sums) {k : Key} (kept : q.keep k = true) :
    Dict.lookupEntry k ({ q with limit := none }.rows table) = table.get? k := by
  have filtered := table.get?_filter (fun k _ => q.keep k) k
  simp only [kept] at filtered
  cases found : table.get? k <;> rw [found] at filtered <;> exact filtered

theorem Call.Sound.read (sound : c.Sound s stored w cut)
    (acc : Accounted stored w.log cut w.history) {c' : Call}
    (made : c.read w.history = some c') :
    c'.Sound s stored { w with call := some c' } cut := by
  unfold Call.read at made
  split at made
  · rename_i q rest target rest_eq stage_eq
    split at made
    · rename_i reached
      rw [acc.running] at made
      simp only [Bool.false_eq_true, if_false] at made
      cases made
      obtain ⟨h₀, cut₀, acc₀, since, copies, stage⟩ := sound.origin
      unfold Call.StageOk at stage
      rw [stage_eq] at stage
      have bound := acc.taken.1.trans acc.taken.2
      refine
        { origin := ⟨h₀, cut₀, acc₀, since, copies, stage.1.trans reached, bound, ?_⟩
          mark := sound.mark
          inside := sound.inside
          disjoint := sound.disjoint
          todo := sound.todo
          counted := sound.counted
          only := sound.only
          once := sound.once
          limited := sound.limited }
      intro q' head
      rw [rest_eq, List.head?_cons, Option.mem_def, Option.some.injEq] at head
      subst head
      refine ⟨?_, ?_, ?_, ?_⟩
      · exact w.history.db.table.nodup.sublist (List.filter_sublist.map _)
      · intro k listed
        obtain ⟨r, member, rfl⟩ := List.mem_map.mp listed
        exact (List.mem_filter.mp member).2
      · intro k kept
        rw [lookup_rows q _ kept, acc.table k]
      · unfold Selection.rows
        cases q.limit <;> rfl
    · cases made
  · cases made

theorem lookup_append (k : Key) (a b : List Row) :
    Dict.lookupEntry k (a ++ b) = (Dict.lookupEntry k a).or (Dict.lookupEntry k b) := by
  induction a with
  | nil => rfl
  | cons r rest ih =>
      rw [List.cons_append, Dict.lookupEntry, Dict.lookupEntry]
      split
      · rfl
      · exact ih

/-- A merge has no row its read and its copies do not ask for. -/
theorem merge_only {h : History} {rows : List Row} {copies : List (Key × Bucket)} {through : ℕ}
    {keep : Key → Bool} (distinct : (rows.map Prod.fst).Nodup)
    (rows_kept : ∀ k ∈ rows.map Prod.fst, keep k = true) {k : Key} (not_kept : keep k = false) :
    Dict.lookupEntry k (h.merge rows (copies.filter fun e => keep e.1) through) = none := by
  have not_read : Dict.lookupEntry k rows = none := by
    rw [Dict.lookupEntry_eq_none_iff]
    intro listed
    rw [rows_kept k listed] at not_kept
    cases not_kept
  have not_copied : rowsOf k ((h.unwritten (copies.filter fun e => keep e.1) through).map
      Bucket.row) = [] := by
    apply rows_out
    intro listed
    obtain ⟨e, member, rfl⟩ := List.mem_map.mp listed
    have kept := (List.mem_filter.mp (List.mem_filter.mp member).1).2
    rw [not_kept] at kept
    cases kept
  rw [lookup_merge h _ through distinct, not_read, not_copied]
  rfl

theorem Call.Sound.merge (sound : c.Sound s stored w cut)
    (acc : Accounted stored w.log cut w.history) {c' : Call}
    (made : c.merge w.history = some c') :
    c'.Sound s stored { w with call := some c' } cut := by
  unfold Call.merge at made
  split at made
  · rename_i q rest rows whole through rest_eq stage_eq
    cases made
    obtain ⟨h₀, cut₀, acc₀, since, copies, stage⟩ := sound.origin
    unfold Call.StageOk at stage
    rw [stage_eq] at stage
    obtain ⟨after, bound, reads⟩ := stage
    obtain ⟨distinct, rows_kept, found, limited⟩ := reads q (by rw [rest_eq]; rfl)
    have listed : q ∈ c.rest := by rw [rest_eq]; exact List.mem_cons_self
    have disjoint := sound.disjoint
    rw [rest_eq, List.pairwise_cons] at disjoint
    set new := w.history.merge whole (c.copies.filter fun e => q.keep e.1) through with new_def
    have new_kept : ∀ k, q.keep k = true → CountsOnce w.log c.mark new k := by
      intro k kept
      rw [new_def, copies]
      exact merge_counts acc acc₀ since after bound distinct (sound.inside q listed k kept) kept
        (found k kept)
    have new_other : ∀ k, q.keep k = false → Dict.lookupEntry k new = none :=
      fun k other => merge_only distinct rows_kept other
    have together : ∀ k, Dict.lookupEntry k (c.whole ++ new) =
        if q.keep k = true then Dict.lookupEntry k new else Dict.lookupEntry k c.whole := by
      intro k
      rw [lookup_append]
      by_cases kept : q.keep k = true
      · rw [if_pos kept, sound.todo q listed k kept, Option.none_or]
      · rw [if_neg kept, new_other k (Bool.eq_false_iff.mpr kept), Option.or_none]
    have new_keys : ∀ k ∈ new.map Prod.fst, q.keep k = true := by
      intro k member
      by_contra other
      have absent := new_other k (Bool.eq_false_iff.mpr other)
      exact (Dict.lookupEntry_eq_none_iff k new).mp absent member
    refine
      { origin := ⟨h₀, cut₀, acc₀, since, copies, trivial⟩
        mark := sound.mark
        inside := fun q' later => sound.inside q' (by rw [rest_eq]; exact List.mem_cons_of_mem _ later)
        disjoint := disjoint.2
        todo := ?_
        counted := ?_
        only := ?_
        once := ?_
        limited := ?_ }
    · intro q' later k kept
      have other : q.keep k = false := by
        by_contra both
        have apart := disjoint.1 q' later k (Bool.not_eq_false _ ▸ both)
        rw [kept] at apart
        cases apart
      rw [together k, other]
      simp only [Bool.false_eq_true, if_false]
      exact sound.todo q' (by rw [rest_eq]; exact List.mem_cons_of_mem _ later) k kept
    · intro k asked
      by_cases kept : q.keep k = true
      · obtain ⟨n, least, most, sum⟩ := new_kept k kept
        exact Or.inr ⟨n, least, most, by rw [together k, if_pos kept, sum]⟩
      · rcases sound.counted k asked with ⟨q', later, kept'⟩ | ⟨n, least, most, sum⟩
        · rw [rest_eq, List.mem_cons] at later
          rcases later with rfl | later
          · exact absurd kept' kept
          · exact Or.inl ⟨q', later, kept'⟩
        · exact Or.inr ⟨n, least, most, by rw [together k, if_neg kept, sum]⟩
    · intro k member
      rw [List.map_append, List.mem_append] at member
      rcases member with old | now
      · exact sound.only k old
      · exact sound.inside q listed k (new_keys k now)
    · rw [List.map_append, List.nodup_append]
      refine ⟨sound.once, nodup_merge _ _ _ _, ?_⟩
      rintro k old _ now rfl
      exact (Dict.lookupEntry_eq_none_iff k c.whole).mp (sound.todo q listed k (new_keys k now)) old
    · have before := sound.limited
      unfold Call.Limited at before ⊢
      simp only
      cases limit : c.request.limit with
      | none =>
          rw [limit] at before
          obtain ⟨same, unlimited⟩ := before
          have no_limit := unlimited q listed
          rw [no_limit] at limited
          refine ⟨by rw [same, limited], fun q' later => unlimited q' ?_⟩
          rw [rest_eq]
          exact List.mem_cons_of_mem _ later
      | some m =>
          rw [limit] at before
          obtain ⟨_, rest_nil | ⟨q', single, q_limit, out_nil, whole_nil⟩⟩ := before
          · rw [rest_nil] at rest_eq
            cases rest_eq
          · rw [single] at rest_eq
            cases rest_eq
            rw [q_limit] at limited
            refine ⟨?_, Or.inl rfl⟩
            rw [out_nil, whole_nil, List.nil_append, List.nil_append, limited]
            exact limited_merge _ _ _ _ distinct
  · cases made

/-! ### Runs -/

/-- What holds between the steps of a run. -/
def World.Sound (s : Settings) (stored : Dict Key Sums) (w : World) : Prop :=
  w.history.db.refused = [] ∧ ∃ cut, Accounted stored w.log cut w.history ∧
    ∀ c, w.call = some c → c.Sound s stored w cut

theorem World.Sound.step {l : Label} {u : World} (sound : w.Sound s stored)
    (stepped : (queries s).step l w = some u) (lossless : Lossless w l u) :
    u.Sound s stored := by
  obtain ⟨none_refused, cut, acc, call⟩ := sound
  refine ⟨lossless.2, ?_⟩
  cases l with
  | history x =>
      cases stepped
      have kept : (w.history.step s x).db.refused = w.history.db.refused :=
        lossless.2.trans none_refused.symm
      have running : x ≠ .close := by
        rintro rfl
        cases lossless.1
      have runs : ∀ fails cutoff, x = .runBatch fails cutoff → fails = false ∧ cutoff = none := by
        rintro fails cutoff rfl
        simpa [Label.lossless] using lossless.1
      obtain ⟨cut', acc', follows⟩ := step_spec acc x runs running kept
      exact ⟨cut', acc', fun c under => (call c under).history _ follows⟩
  | copy request =>
      simp only [queries] at stepped
      split at stepped
      · cases stepped
      · cases stepped
        refine ⟨cut, acc, fun c under => ?_⟩
        cases under
        exact Call.Sound.copy acc request _
  | drain =>
      obtain ⟨c', made, rfl⟩ := Option.map_eq_some_iff.mp stepped
      obtain ⟨c, under, drained⟩ := Option.bind_eq_some_iff.mp made
      refine ⟨cut, acc, fun c'' under' => ?_⟩
      cases under'
      exact (call c under).drain drained
  | read =>
      obtain ⟨c', made, rfl⟩ := Option.map_eq_some_iff.mp stepped
      obtain ⟨c, under, read⟩ := Option.bind_eq_some_iff.mp made
      refine ⟨cut, acc, fun c'' under' => ?_⟩
      cases under'
      exact (call c under).read acc read
  | merge =>
      obtain ⟨c', made, rfl⟩ := Option.map_eq_some_iff.mp stepped
      obtain ⟨c, under, merged⟩ := Option.bind_eq_some_iff.mp made
      refine ⟨cut, acc, fun c'' under' => ?_⟩
      cases under'
      exact (call c under).merge acc merged

/-- What was stored before counts as recorded. -/
theorem World.start_sound (stored : Dict Key Sums) : (World.start stored).Sound s stored := by
  have all : ∀ k, rowsOf k stored.entries = (stored.get? k).toList :=
    fun k => rowsOf_of_nodup stored.nodup k
  refine ⟨rfl, fun _ k => (rowsOf k stored.entries).length, ?_, fun c under => nomatch under⟩
  constructor
  · intro n _ k
    simp [World.start, Database.batched, all]
  · intro _ _ _ _ _
    exact le_rfl
  · intro _ _ _
    exact le_rfl
  · intro k
    simp [World.start, History.openAt, combine]
  · intro k b found
    simp [World.start, History.openAt] at found
  · intro k o n used
    simp [World.start] at used
  · intro k
    simp [World.start, Database.batched]
  · exact ⟨le_rfl, le_rfl⟩
  · rfl

/-- What a query returns where nothing limits it. -/
def unlimited (s : Settings) (rows : List Row) : List Presented :=
  (rows.mergeSort rowOrder).map (present s)

/-- A call that is done counts each contribution to an interval it asks for once, from the
first up to the last one counted, among them all that were recorded before its copies were
taken. What it returns are the first `max 1 limit` rows of that. -/
structure Call.Answered (s : Settings) (w : World) (c : Call) : Prop where
  counted : ∀ k, c.request.keep s k = true → CountsOnce w.log c.mark c.whole k
  once : (c.whole.map Prod.fst).Nodup
  only : ∀ k ∈ c.whole.map Prod.fst, c.request.keep s k = true
  all : c.request.limit = none →
    c.request.answer s c.out = c.whole.map (present s)
  first : ∀ lfdi since until_ limit, c.request = .query lfdi since until_ limit →
    c.request.answer s c.out = (unlimited s c.whole).take (max 1 limit).toNat

/-- Whatever turns the recorders, the writer and the call take. -/
theorem query_counts_once (s : Settings) (stored : Dict Key Sums) {w : World}
    (run : (queries s).Run Lossless (World.start stored) w) {c : Call}
    (under : w.call = some c) (done : c.rest = []) : c.Answered s w := by
  have sound := run.keeps (P := fun w : World => w.Sound s stored)
    (fun l t u stepped met before => World.Sound.step before stepped met)
    (World.start_sound stored)
  obtain ⟨_, cut, _, call⟩ := sound
  have mine := call c under
  have limited := mine.limited
  unfold Call.Limited at limited
  constructor
  · intro k asked
    rcases mine.counted k asked with ⟨q, later, _⟩ | counts
    · rw [done] at later
      cases later
    · exact counts
  · exact mine.once
  · exact mine.only
  · intro no_limit
    rw [no_limit] at limited
    rw [Request.answer, no_limit, limited.1]
  · intro lfdi since until_ limit asked
    have has_limit : c.request.limit = some (max 1 limit).toNat := by rw [asked]; rfl
    rw [has_limit] at limited
    rw [Request.answer, has_limit]
    simp only [unlimited, limited.1, List.map_take]

/-- How many rows a call returns, once it is done. -/
def rowsReturned (ended : Option World) : Option ℕ :=
  (ended.bind World.call).bind fun c =>
    if c.rest.isEmpty then some (c.request.answer quarterHours c.out).length else none

theorem rowsReturned_some {ended : Option World} {n : ℕ} (rows : rowsReturned ended = some n) :
    ∃ w c, ended = some w ∧ w.call = some c ∧ c.rest = [] ∧
      (c.request.answer quarterHours c.out).length = n := by
  obtain ⟨c, under, rows⟩ := Option.bind_eq_some_iff.mp rows
  obtain ⟨w, ended, under⟩ := Option.bind_eq_some_iff.mp under
  split at rows
  · rename_i done
    exact ⟨w, c, ended, under, List.isEmpty_iff.mp done, Option.some.inj rows⟩
  · cases rows

/-- A query copies the interval of one of two devices. It is flushed before the call waits for what
is queued; the batch is run and another reading taken before it reads. -/
def flushedBetween : Option World :=
  (queries quarterHours).execMeeting Lossless (World.start Dict.empty)
    [.history (.observe "a1" 0 (.int 5) .missing), .history (.observe "a1" 60 (.int 7) .missing),
      .history (.observe "a2" 0 (.int 3) .missing), .copy (.query (some "a1") none none 5),
      .history .flush, .drain, .history .take, .history (.runBatch false none),
      .history (.observe "a1" 120 (.int 9) .missing), .read, .merge]

/-- The copy was written, and is not counted again. -/
theorem query_counts_once_reading : ∃ w c, flushedBetween = some w ∧ w.call = some c ∧
    c.copies.length = 1 ∧ w.history.db.written = 1 ∧
    (c.request.answer quarterHours c.out).length = 1 ∧ c.Answered quarterHours w := by
  obtain ⟨w, c, ended, under, done, rows⟩ :=
    rowsReturned_some (n := 1) (show rowsReturned flushedBetween = some 1 by decide +kernel)
  have copied : (flushedBetween.bind World.call).map (·.copies.length) = some 1 := by
    decide +kernel
  have written : flushedBetween.map (·.history.db.written) = some 1 := by decide +kernel
  rw [ended, Option.bind_some, under, Option.map_some, Option.some.injEq] at copied
  rw [ended, Option.map_some, Option.some.injEq] at written
  exact ⟨w, c, ended, under, copied, written, rows,
    query_counts_once quarterHours Dict.empty (Machine.run_of_meeting _ ended) under done⟩

/-- One reading, and a query for the first `limit` rows. -/
def oneReading (limit : ℤ) : Option World :=
  (queries quarterHours).execMeeting Lossless (World.start Dict.empty)
    [.history (.observe "a1" 0 (.int 5) .missing), .copy (.query none none none limit), .drain,
      .read, .merge]

/-- A query for no rows returns one. -/
theorem limit_zero_returns_one : ∃ w c,
    (queries quarterHours).Run Lossless (World.start Dict.empty) w ∧ w.call = some c ∧
      c.rest = [] ∧ c.request = .query none none none 0 ∧
      c.request.answer quarterHours c.out ≠ (unlimited quarterHours c.whole).take 0 := by
  obtain ⟨w, c, ended, under, done, one⟩ :=
    rowsReturned_some (n := 1) (show rowsReturned (oneReading 0) = some 1 by decide +kernel)
  have asked : ((oneReading 0).bind World.call).map Call.request =
      some (.query none none none 0) := by decide +kernel
  rw [ended, Option.bind_some, under, Option.map_some, Option.some.injEq] at asked
  refine ⟨w, c, Machine.run_of_meeting _ ended, under, done, asked, fun empty => ?_⟩
  rw [empty] at one
  cases one

end Py20305.Intervals
