import Mathlib
import Py20305.Lib.Sorted
import Py20305.Events.System

/-!
`compute_supersession` as it is computed, through an index from devices to
programs, sharing sets that are worked out once, `bisect` on the positions of
each program's events and a sort, against comparing all pairs.

* `SupersessionIndex.computeSupersession_eq`: the index finds the positions
  `computeSupersession` goes through, whatever order sets are iterated in.
* `supersession_eq_allPairs`: with distinct mRIDs the results, and their order,
  are those of every pair in the order of the list.
-/

namespace Py20305

/-! ### The index -/

namespace SupersessionIndex

/-- `programs_on`: the programs that reach each device. -/
def programsOn (p2d : ProgramDevices) : Dict Href (List Href) :=
  p2d.entries.foldl (fun on e =>
    e.2.foldl (fun on device => on.set device ((on.getD device []).insert e.1)) on) Dict.empty

/-- `indices_of`: the positions of each program's events, in ascending order. -/
def indicesOf (events : List EventRecord) : Dict Href (List Nat) :=
  events.zipIdx.foldl (fun indices e =>
    indices.set e.1.programHref (indices.getD e.1.programHref [] ++ [e.2])) Dict.empty

/-- What has been worked out so far: `sharing`, `modes`, `checked` and `results`. -/
structure Memo where
  sharing : Dict Href (List Href) := Dict.empty
  modes : Dict Nat (Finset Mode) := Dict.empty
  checked : List (Mrid × Mrid) := []
  results : List SupersessionResult := []

/-- The programs that reach a device `program` reaches, itself included. -/
def reachOf (p2d : ProgramDevices) (program : Href) : List Href :=
  (p2d.getD program []).foldl (fun reach device => reach ∪ (programsOn p2d).getD device []) []

/-- `programs_sharing`. -/
def programsSharing (p2d : ProgramDevices) (memo : Memo) (program : Href) : Memo × List Href :=
  match memo.sharing.get? program with
  | some reach => (memo, reach)
  | none =>
      ({ memo with sharing := memo.sharing.set program (reachOf p2d program) }, reachOf p2d program)

/-- `modes_of`, for the event at the position. -/
def modesOf (memo : Memo) (index : Nat) (event : EventRecord) : Memo × Finset Mode :=
  match memo.modes.get? index with
  | some modes => (memo, modes)
  | none =>
      ({ memo with modes := memo.modes.set index (comparedModeKeys event.derc.base) },
        comparedModeKeys event.derc.base)

/-- The positions after `i` of the programs' events. The programs are iterated in the
order the set has. -/
def later (settings : Settings) (events : List EventRecord) (reach : List Href) (i : Nat) :
    List Nat :=
  ((settings.order reach).foldl (fun later program =>
    let indices := (indicesOf events).getD program []
    later ++ indices.drop (bisectRight indices i 0 indices.length)) []).insertionSort (· ≤ ·)

/-- What a pair that overlaps in time and mode comes to. -/
def resultOf (p2d : ProgramDevices) (a b : EventRecord) (overlap : Finset Mode) :
    Option SupersessionResult :=
  let winner := (winnerLoser a b).1
  let loser := (winnerLoser a b).2
  let affected := (p2d.getD winner.programHref []).filter (· ∈ p2d.getD loser.programHref [])
  if affected = [] then none
  else some
    { supersededMrid := loser.mrid
      supersedingMrid := winner.mrid
      affectedDevices := affected
      supersededProgramHref := loser.programHref
      supersedingProgramHref := winner.programHref
      affectedModes := overlap }

instance : LawfulBEq (Mrid × Mrid) := inferInstance

/-- The body of the inner loop: the events at `i` and `j`. -/
def comparePair (p2d : ProgramDevices) (i : Nat) (a : EventRecord) (j : Nat) (b : EventRecord)
    (memo : Memo) : Memo :=
  if pairKey a b ∈ memo.checked then memo
  else
    let memo := { memo with checked := pairKey a b :: memo.checked }
    if !timeOverlaps a b then memo
    else
      let (memo, modesA) := modesOf memo i a
      let (memo, modesB) := modesOf memo j b
      if modesA ≠ modesB ∧ modesA ∩ modesB = ∅ then memo
      else { memo with results := memo.results ++ (resultOf p2d a b (modesA ∩ modesB)).toList }

/-- The outer loop, from position `i` on. -/
def compareFrom (settings : Settings) (p2d : ProgramDevices) (events : List EventRecord) :
    Nat → List EventRecord → Memo → Memo
  | _, [], memo => memo
  | i, a :: rest, memo =>
      let (memo, reach) := programsSharing p2d memo a.programHref
      compareFrom settings p2d events (i + 1) rest
        ((later settings events reach i).foldl (fun memo j =>
          match events[j]? with
          | none => memo
          | some b => comparePair p2d i a j b memo) memo)

/-- `compute_supersession`. -/
def computeSupersession (settings : Settings) (events : List EventRecord) (p2d : ProgramDevices) :
    List SupersessionResult :=
  (compareFrom settings p2d events 0 events {}).results

/-! ### What the index holds -/

section Index

variable (p2d : ProgramDevices)

/-- One program's devices are entered for it. -/
theorem mem_foldl_devices (program p d : Href) (devices : List Href) (on : Dict Href (List Href)) :
    p ∈ (devices.foldl (fun on device => on.set device ((on.getD device []).insert program))
        on).getD d [] ↔ p ∈ on.getD d [] ∨ p = program ∧ d ∈ devices := by
  induction devices generalizing on with
  | nil => simp
  | cons device rest ih =>
      rw [List.foldl_cons, ih, Dict.getD, Dict.get?_set]
      by_cases here : d = device
      · subst here
        rw [if_pos rfl, Option.getD_some, List.mem_insert_iff]
        simp only [List.mem_cons, true_or, and_true]
        tauto
      · rw [if_neg here, List.mem_cons]
        simp only [here, false_or, Dict.getD]

theorem mem_programsOn {p d : Href} :
    p ∈ (programsOn p2d).getD d [] ↔ d ∈ p2d.getD p [] := by
  have entered : ∀ (es : List (Href × List Href)) (on : Dict Href (List Href)),
      p ∈ (es.foldl (fun on e =>
          e.2.foldl (fun on device => on.set device ((on.getD device []).insert e.1)) on) on).getD
          d [] ↔ p ∈ on.getD d [] ∨ ∃ devices, (p, devices) ∈ es ∧ d ∈ devices := by
    intro es
    induction es with
    | nil => simp
    | cons e rest ih =>
        intro on
        obtain ⟨program, devices⟩ := e
        rw [List.foldl_cons, ih, mem_foldl_devices]
        simp only [List.mem_cons, Prod.mk.injEq]
        constructor
        · rintro ((old | ⟨rfl, here⟩) | ⟨ds, listed, here⟩)
          · exact .inl old
          · exact .inr ⟨devices, .inl ⟨rfl, rfl⟩, here⟩
          · exact .inr ⟨ds, .inr listed, here⟩
        · rintro (old | ⟨ds, ⟨rfl, rfl⟩ | listed, here⟩)
          · exact .inl (.inl old)
          · exact .inl (.inr ⟨rfl, here⟩)
          · exact .inr ⟨ds, listed, here⟩
  rw [programsOn, entered]
  simp only [Dict.mem_entries_iff]
  cases mapped : p2d.get? p with
  | none => simp [Dict.getD, mapped]
  | some devices => simp [Dict.getD, mapped]

/-- No program is entered twice for a device. -/
theorem nodup_programsOn (d : Href) : ((programsOn p2d).getD d []).Nodup := by
  have kept : ∀ (on : Dict Href (List Href)), (∀ d, (on.getD d []).Nodup) → ∀ (program device : Href),
      ∀ d, ((on.set device ((on.getD device []).insert program)).getD d []).Nodup := by
    intro on nodup program device d
    rw [Dict.getD, Dict.get?_set]
    split
    · exact (nodup device).insert
    · exact nodup d
  unfold programsOn
  have start : ∀ d, ((Dict.empty : Dict Href (List Href)).getD d []).Nodup := fun _ => List.nodup_nil
  refine List.foldlRecOn p2d.entries _ (motive := fun on : Dict Href (List Href) =>
    ∀ d, (on.getD d []).Nodup) start (fun on nodup e _ => ?_) d
  exact List.foldlRecOn e.2 _ (motive := fun on : Dict Href (List Href) =>
    ∀ d, (on.getD d []).Nodup) nodup fun on nodup device _ => kept on nodup e.1 device

theorem mem_reachOf {p q : Href} :
    q ∈ reachOf p2d p ↔ ∃ d ∈ p2d.getD p [], d ∈ p2d.getD q [] := by
  have joined : ∀ (devices reach : List Href),
      q ∈ devices.foldl (fun reach device => reach ∪ (programsOn p2d).getD device []) reach ↔
        q ∈ reach ∨ ∃ d ∈ devices, d ∈ p2d.getD q [] := by
    intro devices
    induction devices with
    | nil => simp
    | cons device rest ih =>
        intro reach
        rw [List.foldl_cons, ih, List.mem_union_iff, mem_programsOn, List.exists_mem_cons_iff,
          or_assoc]
  rw [reachOf, joined]
  simp

theorem nodup_reachOf (p : Href) : (reachOf p2d p).Nodup := by
  unfold reachOf
  exact List.foldlRecOn _ _ (motive := List.Nodup) List.nodup_nil
    fun reach _ device _ => (nodup_programsOn p2d device).union reach

/-- The sharing sets are those of the model the processor uses. -/
theorem reachOf_perm (p : Href) : (reachOf p2d p).Perm (Py20305.programsSharing p2d p) := by
  refine (List.perm_ext_iff_of_nodup (nodup_reachOf p2d p) (List.nodup_dedup _)).mpr fun q => ?_
  simp only [mem_reachOf, List.mem_dedup, List.mem_flatMap, List.mem_map,
    List.mem_filter, decide_eq_true_eq, Prod.exists, exists_and_right, exists_eq_right,
    Dict.mem_entries_iff]
  refine exists_congr fun d => and_congr_right fun _ => ?_
  cases mapped : p2d.get? q with
  | none => simp [Dict.getD, mapped]
  | some devices => simp [Dict.getD, mapped]

/-- The positions of a program's events are those of the model the processor uses. -/
theorem getD_indicesOf (events : List EventRecord) (p : Href) :
    (indicesOf events).getD p [] = Py20305.indicesOf events p := by
  unfold indicesOf
  induction events using List.reverseRecOn with
  | nil => rfl
  | append_singleton earlier e ih =>
      have earlier_same : ∀ i ∈ List.range earlier.length,
          decide (((earlier ++ [e])[i]?.map (·.programHref)) = some p) =
            decide ((earlier[i]?.map (·.programHref)) = some p) := by
        intro i inside
        rw [List.getElem?_append_left (List.mem_range.mp inside)]
      rw [List.zipIdx_append, List.foldl_append, List.zipIdx_singleton, List.foldl_cons,
        List.foldl_nil, Dict.getD, Dict.get?_set, Py20305.indicesOf, List.length_append,
        List.length_singleton, List.range_succ, List.filter_append,
        List.filter_congr earlier_same]
      by_cases own : p = e.programHref
      · subst own
        simp [ih, Py20305.indicesOf]
      · rw [if_neg own]
        have other : e.programHref ≠ p := fun same => own same.symm
        simpa [other, Dict.getD, Py20305.indicesOf] using ih

end Index

/-- The positions gone through are those of the model the processor uses. -/
theorem later_eq (settings : Settings) (p2d : ProgramDevices) (events : List EventRecord) (i : Nat)
    (a : EventRecord) :
    later settings events (reachOf p2d a.programHref) i = laterIndices p2d events i a := by
  have sorted : ∀ program, (Py20305.indicesOf events program).Pairwise (· ≤ ·) := fun program =>
    (List.pairwise_le_range.filter _)
  have gathered : ∀ programs : List Href, programs.foldl (fun later program =>
      let indices := (indicesOf events).getD program []
      later ++ indices.drop (bisectRight indices i 0 indices.length)) [] =
        programs.flatMap fun program => (Py20305.indicesOf events program).filter (i < ·) := by
    intro programs
    simp only [getD_indicesOf, drop_bisectRight (sorted _)]
    rw [List.flatMap_eq_foldl]
  have same_programs : (settings.order (reachOf p2d a.programHref)).Perm
      (Py20305.programsSharing p2d a.programHref) :=
    (settings.order_perm _).trans (reachOf_perm p2d _)
  rw [later, laterIndices, gathered]
  refine List.Perm.eq_of_pairwise (fun _ _ _ _ => Nat.le_antisymm)
    (List.pairwise_insertionSort _ _) (List.pairwise_insertionSort _ _) ?_
  exact (List.perm_insertionSort _ _).trans
    ((same_programs.flatMap_right _).trans (List.perm_insertionSort _ _).symm)

/-! ### The loops -/

section Loops

variable (settings : Settings) {p2d : ProgramDevices} {events : List EventRecord}

/-- What was worked out is what would be worked out again, and the loops of the model
the processor uses stand where these do. -/
structure Memo.Follows (p2d : ProgramDevices) (events : List EventRecord) (memo : Memo)
    (acc : List (Mrid × Mrid) × List SupersessionResult) : Prop where
  sharing : ∀ p reach, memo.sharing.get? p = some reach → reach = reachOf p2d p
  modes : ∀ k modes, memo.modes.get? k = some modes → ∀ event, events[k]? = some event →
    modes = comparedModeKeys event.derc.base
  checked : memo.checked = acc.1
  results : memo.results = acc.2

variable {memo : Memo} {acc : List (Mrid × Mrid) × List SupersessionResult}

theorem Memo.Follows.programsSharing (follows : memo.Follows p2d events acc) (p : Href) :
    (SupersessionIndex.programsSharing p2d memo p).1.Follows p2d events acc ∧
      (SupersessionIndex.programsSharing p2d memo p).2 = reachOf p2d p := by
  unfold SupersessionIndex.programsSharing
  cases known : memo.sharing.get? p with
  | some reach => exact ⟨follows, follows.sharing p reach known⟩
  | none =>
      refine ⟨{ follows with sharing := fun q reach found => ?_ }, rfl⟩
      rw [Dict.get?_set] at found
      split at found
      · rename_i same
        cases found
        rw [same]
      · exact follows.sharing q reach found

theorem Memo.Follows.modesOf (follows : memo.Follows p2d events acc) {k : Nat} {event : EventRecord}
    (at_ : events[k]? = some event) :
    (SupersessionIndex.modesOf memo k event).1.Follows p2d events acc ∧
      (SupersessionIndex.modesOf memo k event).2 = comparedModeKeys event.derc.base := by
  unfold SupersessionIndex.modesOf
  cases known : memo.modes.get? k with
  | some modes => exact ⟨follows, follows.modes k modes known event at_⟩
  | none =>
      refine ⟨{ follows with modes := fun l modes found other at_l => ?_ }, rfl⟩
      rw [Dict.get?_set] at found
      split at found
      · rename_i same
        subst same
        cases found
        cases at_.symm.trans at_l
        rfl
      · exact follows.modes l modes found other at_l

/-- One pair. -/
theorem Memo.Follows.comparePair (follows : memo.Follows p2d events acc) {i j : Nat}
    {a b : EventRecord} (first : events[i]? = some a) (second : events[j]? = some b) :
    (SupersessionIndex.comparePair p2d i a j b memo).Follows p2d events
      (if pairKey a b ∈ acc.1 then acc
        else (pairKey a b :: acc.1, acc.2 ++ (compareEvents p2d a b).toList)) := by
  unfold SupersessionIndex.comparePair
  rw [follows.checked]
  by_cases known : pairKey a b ∈ acc.1
  · rw [if_pos known, if_pos known]
    exact follows
  · rw [if_neg known, if_neg known]
    have noted : ({ memo with checked := pairKey a b :: acc.1 } : Memo).Follows p2d events
        (pairKey a b :: acc.1, acc.2) := { follows with checked := rfl }
    simp only [compareEvents]
    by_cases apart : timeOverlaps a b = false
    · simpa [apart] using noted
    · simp only [Bool.not_eq_false] at apart
      obtain ⟨kept, modes_a⟩ := noted.modesOf first
      obtain ⟨kept', modes_b⟩ := kept.modesOf second
      simp only [apart, Bool.not_true, Bool.false_eq_true, if_false, modes_a, modes_b]
      split
      · simpa using kept'
      · exact { kept' with
          results := by rw [kept'.results]; rfl }

/-- The body of the inner loop of the model the processor uses. -/
theorem compareLater_cons {a b : EventRecord} {j : Nat} (second : events[j]? = some b)
    (rest : List Nat) :
    Py20305.compareLater p2d events a (j :: rest) acc = Py20305.compareLater p2d events a rest
      (if pairKey a b ∈ acc.1 then acc
        else (pairKey a b :: acc.1, acc.2 ++ (compareEvents p2d a b).toList)) := by
  by_cases known : pairKey a b ∈ acc.1
  · rw [if_pos known, Py20305.compareLater, second]
    exact if_pos known
  · rw [if_neg known, Py20305.compareLater, second]
    exact if_neg known

theorem Memo.Follows.compareLater (follows : memo.Follows p2d events acc) {i : Nat}
    {a : EventRecord} (first : events[i]? = some a) (js : List Nat) :
    (js.foldl (fun memo j =>
        match events[j]? with
        | none => memo
        | some b => SupersessionIndex.comparePair p2d i a j b memo) memo).Follows p2d events
      (Py20305.compareLater p2d events a js acc) := by
  induction js generalizing memo acc with
  | nil => exact follows
  | cons j rest ih =>
      cases second : events[j]? with
      | none =>
          simp only [List.foldl_cons, Py20305.compareLater, second]
          exact ih follows
      | some b =>
          rw [List.foldl_cons, compareLater_cons second]
          simp only [second]
          exact ih (follows.comparePair first second)

theorem Memo.Follows.compareFrom (follows : memo.Follows p2d events acc) (i : Nat)
    (rest : List EventRecord) (here : events.drop i = rest) :
    (SupersessionIndex.compareFrom settings p2d events i rest memo).Follows p2d events
      (Py20305.compareFrom p2d events i rest acc) := by
  induction rest generalizing i memo acc with
  | nil => exact follows
  | cons a rest ih =>
      have first : events[i]? = some a := by
        have := congrArg (·[0]?) here
        simpa using this
      have next : events.drop (i + 1) = rest := by
        rw [← List.tail_drop, here]
        rfl
      obtain ⟨kept, reach⟩ := follows.programsSharing a.programHref
      simp only [SupersessionIndex.compareFrom, Py20305.compareFrom]
      rw [reach, later_eq]
      exact ih (kept.compareLater first _) (i + 1) next

end Loops

/-- The index changes nothing. -/
theorem computeSupersession_eq (settings : Settings) (events : List EventRecord)
    (p2d : ProgramDevices) :
    computeSupersession settings events p2d = Py20305.computeSupersession events p2d := by
  have start : ({} : Memo).Follows p2d events ([], []) :=
    { sharing := fun _ _ found => nomatch found
      modes := fun _ _ found => nomatch found
      checked := rfl
      results := rfl }
  exact (start.compareFrom settings 0 events rfl).results

end SupersessionIndex

/-! ### All pairs -/

/-- Whether `a`, which comes first in the list, wins against `b`: by lower primacy,
then by newer creation (or else status) time, then by coming first. -/
def Wins (a b : EventRecord) : Prop :=
  a.primacy < b.primacy ∨ a.primacy = b.primacy ∧ tieBreakTime b ≤ tieBreakTime a

instance (a b : EventRecord) : Decidable (Wins a b) := by unfold Wins; infer_instance

/-- `winner` supersedes `loser`, where their programs share devices. -/
def supersededBy (p2d : ProgramDevices) (winner loser : EventRecord) : SupersessionResult where
  supersededMrid := loser.mrid
  supersedingMrid := winner.mrid
  affectedDevices :=
    (p2d.getD winner.programHref []).filter (· ∈ p2d.getD loser.programHref [])
  supersededProgramHref := loser.programHref
  supersedingProgramHref := winner.programHref
  affectedModes := comparedModeKeys winner.derc.base ∩ comparedModeKeys loser.derc.base

/-- The two events run at a common time and set the same modes or a common one. -/
def Meet (a b : EventRecord) : Prop :=
  (a.start < b.end ∧ b.start < a.end) ∧
    (comparedModeKeys a.derc.base = comparedModeKeys b.derc.base ∨
      (comparedModeKeys a.derc.base ∩ comparedModeKeys b.derc.base).Nonempty)

instance (a b : EventRecord) : Decidable (Meet a b) := by unfold Meet; infer_instance

/-- What the pair `a`, `b`, in the order of the list, comes to. -/
def pairResult (p2d : ProgramDevices) (a b : EventRecord) : Option SupersessionResult :=
  if Meet a b ∧ ∃ d ∈ p2d.getD a.programHref [], d ∈ p2d.getD b.programHref [] then
    some (if Wins a b then supersededBy p2d a b else supersededBy p2d b a)
  else none

/-- The pairs of a list, in its order. -/
def pairsOf {α : Type} : List α → List (α × α)
  | [] => []
  | a :: rest => rest.map (fun b => (a, b)) ++ pairsOf rest

/-- The supersessions by comparing every pair. -/
def allPairs (events : List EventRecord) (p2d : ProgramDevices) : List SupersessionResult :=
  (pairsOf events).filterMap fun pair => pairResult p2d pair.1 pair.2

theorem winnerLoser_eq (a b : EventRecord) :
    winnerLoser a b = if Wins a b then (a, b) else (b, a) := by
  unfold winnerLoser Wins
  rcases lt_trichotomy a.primacy b.primacy with less | same | more
  · simp [less]
  · simp [same]
  · simp [more, more.le.not_gt, more.ne']

/-- The comparison of the code. -/
theorem compareEvents_eq (p2d : ProgramDevices) (a b : EventRecord) :
    compareEvents p2d a b = pairResult p2d a b := by
  have shared : ∀ c e : EventRecord, (p2d.getD c.programHref []).filter
      (· ∈ p2d.getD e.programHref []) = [] ↔
        ¬ ∃ d ∈ p2d.getD c.programHref [], d ∈ p2d.getD e.programHref [] := by
    intro c e
    simp [List.filter_eq_nil_iff]
  have meets : Meet a b ↔ timeOverlaps a b = true ∧
      ¬ (comparedModeKeys a.derc.base ≠ comparedModeKeys b.derc.base ∧
        comparedModeKeys a.derc.base ∩ comparedModeKeys b.derc.base = ∅) := by
    simp only [Meet, timeOverlaps, Bool.and_eq_true, decide_eq_true_eq, not_and_or, not_not,
      Finset.nonempty_iff_ne_empty]
  simp only [compareEvents, pairResult, winnerLoser_eq]
  by_cases overlaps : timeOverlaps a b = true
  · by_cases apart : comparedModeKeys a.derc.base ≠ comparedModeKeys b.derc.base ∧
        comparedModeKeys a.derc.base ∩ comparedModeKeys b.derc.base = ∅
    · have : ¬ Meet a b := fun meet => (meets.mp meet).2 apart
      simp [overlaps, apart, this]
    · have meet : Meet a b := meets.mpr ⟨overlaps, apart⟩
      simp only [overlaps, apart, meet, Bool.not_true, Bool.false_eq_true, if_false, true_and]
      by_cases first : Wins a b
      · simp only [first, if_true, shared a b]
        by_cases common : ∃ d ∈ p2d.getD a.programHref [], d ∈ p2d.getD b.programHref []
        · simp only [common, not_true, if_false, if_true]
          rfl
        · simp only [common, not_false_eq_true, if_true, if_false]
      · have swapped : (∃ d ∈ p2d.getD b.programHref [], d ∈ p2d.getD a.programHref []) ↔
            ∃ d ∈ p2d.getD a.programHref [], d ∈ p2d.getD b.programHref [] :=
          exists_congr fun d => and_comm
        simp only [first, if_false, shared b a, swapped]
        by_cases common : ∃ d ∈ p2d.getD a.programHref [], d ∈ p2d.getD b.programHref []
        · simp only [common, not_true, if_false, if_true, supersededBy, Finset.inter_comm]
        · simp only [common, not_false_eq_true, if_true, if_false]
  · have : ¬ Meet a b := fun meet => overlaps (meets.mp meet).1
    simp [overlaps, this]

/-! ### The results in order -/

/-- Going through a part of a list by its positions. -/
theorem filterMap_drop {α β : Type} (f : α → Option β) (xs : List α) (i : Nat) :
    (xs.drop i).filterMap f =
      (List.range xs.length).filterMap fun j => if i ≤ j then xs[j]?.bind f else none := by
  induction xs generalizing i with
  | nil => simp
  | cons x rest ih =>
      rw [List.length_cons, List.range_succ_eq_map, List.filterMap_cons, List.filterMap_map]
      cases i with
      | zero =>
          have tail := ih 0
          simp only [List.drop_zero, Nat.zero_le, if_true] at tail
          simp [List.filterMap_cons, tail]
      | succ i => simp [ih i]

section InOrder

variable {p2d : ProgramDevices} {events : List EventRecord} {i : Nat} {a : EventRecord}

theorem nodup_laterIndices : (laterIndices p2d events i a).Nodup := by
  rw [laterIndices, (List.perm_insertionSort _ _).nodup_iff, List.nodup_flatMap]
  refine ⟨fun program _ => (List.nodup_range.filter _).filter _,
    (List.nodup_dedup _).imp fun {p q} other j first second => other ?_⟩
  simp only [indicesOf, List.mem_filter, decide_eq_true_eq] at first second
  exact Option.some.inj (first.1.2.symm.trans second.1.2)

/-- The positions gone through, as a part of all positions. -/
theorem laterIndices_eq : laterIndices p2d events i a =
    (List.range events.length).filter fun j => i < j ∧
      ∃ program ∈ programsSharing p2d a.programHref,
        events[j]?.map (·.programHref) = some program := by
  have sorted : (laterIndices p2d events i a).Pairwise (· < ·) :=
    (nodup_laterIndices.and (List.pairwise_insertionSort _ _)).imp fun both =>
      lt_of_le_of_ne both.2 both.1
  refine List.Perm.eq_of_pairwise (fun _ _ _ _ first second => absurd second (Nat.lt_asymm first))
    sorted (List.pairwise_lt_range.filter _) ?_
  refine (List.perm_ext_iff_of_nodup nodup_laterIndices (List.nodup_range.filter _)).mpr fun j => ?_
  simp only [mem_laterIndices, List.mem_filter, List.mem_range, decide_eq_true_eq]
  refine ⟨fun listed => ⟨?_, listed⟩, fun listed => listed.2⟩
  by_contra outside
  obtain ⟨-, program, -, at_⟩ := listed
  rw [List.getElem?_eq_none (not_lt.mp outside)] at at_
  cases at_

/-- Events that share no device have no result, so the positions left out are not missed. -/
theorem filterMap_laterIndices :
    (laterIndices p2d events i a).filterMap (fun j => events[j]?.bind (compareEvents p2d a)) =
      (events.drop (i + 1)).filterMap (compareEvents p2d a) := by
  rw [laterIndices_eq, List.filterMap_filter, filterMap_drop]
  refine List.filterMap_congr fun j _ => ?_
  by_cases after : i < j
  · cases at_ : events[j]? with
    | none => simp
    | some b =>
        by_cases shares : b.programHref ∈ programsSharing p2d a.programHref
        · simp [after, Nat.succ_le_iff.mpr after, shares]
        · have apart : compareEvents p2d a b = none := by
            cases found : compareEvents p2d a b with
            | none => rfl
            | some result => exact absurd (mem_programsSharing found) shares
          simp [apart]
  · simp [after, mt Nat.succ_le_iff.mp after]

variable (p2d) in
/-- The inner loop, where none of its pairs has been checked. -/
theorem compareLater_fresh (distinct : (events.map (·.mrid)).Nodup) (first : events[i]? = some a)
    (js : List Nat) (later : ∀ j ∈ js, i < j) (nodup : js.Nodup)
    (acc : List (Mrid × Mrid) × List SupersessionResult)
    (fresh : ∀ j ∈ js, ∀ b, events[j]? = some b → pairKey a b ∉ acc.1) :
    (compareLater p2d events a js acc).2 =
        acc.2 ++ js.filterMap (fun j => events[j]?.bind (compareEvents p2d a)) ∧
      ∀ key ∈ (compareLater p2d events a js acc).1, key ∈ acc.1 ∨
        ∃ j ∈ js, ∃ b, events[j]? = some b ∧ key = pairKey a b := by
  induction js generalizing acc with
  | nil => exact ⟨by simp [compareLater], fun key old => .inl old⟩
  | cons j rest ih =>
      obtain ⟨not_rest, nodup⟩ := List.nodup_cons.mp nodup
      have later_rest : ∀ k ∈ rest, i < k := fun k member => later k (List.mem_cons_of_mem j member)
      cases second : events[j]? with
      | none =>
          obtain ⟨results, checked⟩ := ih later_rest nodup acc
            fun k member => fresh k (List.mem_cons_of_mem j member)
          simp only [compareLater, second]
          refine ⟨by simpa [second] using results, fun key listed => (checked key listed).imp_right ?_⟩
          rintro ⟨k, member, b, at_, rfl⟩
          exact ⟨k, List.mem_cons_of_mem j member, b, at_, rfl⟩
      | some b =>
          rw [SupersessionIndex.compareLater_cons second,
            if_neg (fresh j List.mem_cons_self b second)]
          obtain ⟨results, checked⟩ := ih later_rest nodup
            (pairKey a b :: acc.1, acc.2 ++ (compareEvents p2d a b).toList)
            (by
              intro k member c at_ seen
              rcases List.mem_cons.mp seen with same | old
              · -- Another event of the loop has the same key as `b`.
                rcases pairKey_inj same with ⟨-, twin⟩ | ⟨own, -⟩
                · exact not_rest (index_unique distinct at_ second twin ▸ member)
                · exact absurd (index_unique distinct first second own)
                    (later j List.mem_cons_self).ne
              · exact fresh k (List.mem_cons_of_mem j member) c at_ old)
          refine ⟨?_, fun key listed => ?_⟩
          · rw [results]
            cases found : compareEvents p2d a b <;> simp [second, found]
          · rcases checked key listed with old | ⟨k, member, c, at_, rfl⟩
            · rcases List.mem_cons.mp old with rfl | old
              · exact .inr ⟨j, List.mem_cons_self, b, second, rfl⟩
              · exact .inl old
            · exact .inr ⟨k, List.mem_cons_of_mem j member, c, at_, rfl⟩

/-- The outer loop, where only pairs of earlier events have been checked. -/
theorem compareFrom_fresh (distinct : (events.map (·.mrid)).Nodup) (rest : List EventRecord)
    (here : events.drop i = rest) (acc : List (Mrid × Mrid) × List SupersessionResult)
    (earlier : ∀ key ∈ acc.1, ∃ (k l : Nat) (b c : EventRecord), k < i ∧ k < l ∧
      events[k]? = some b ∧ events[l]? = some c ∧ key = pairKey b c) :
    (compareFrom p2d events i rest acc).2 = acc.2 ++ allPairs rest p2d := by
  induction rest generalizing i acc with
  | nil => simp [compareFrom, allPairs, pairsOf]
  | cons a rest ih =>
      have first : events[i]? = some a := by
        have := congrArg (·[0]?) here
        simpa using this
      have next : events.drop (i + 1) = rest := by
        rw [← List.tail_drop, here]
        rfl
      have after : ∀ j ∈ laterIndices p2d events i a, i < j := fun j member =>
        (mem_laterIndices.mp member).1
      obtain ⟨results, checked⟩ := compareLater_fresh p2d distinct first
        (laterIndices p2d events i a) after nodup_laterIndices acc (by
          intro j member b second seen
          obtain ⟨k, l, c, d, before, ordered, at_k, at_l, same⟩ := earlier _ seen
          have own := after j member
          rcases pairKey_inj same with ⟨left, -⟩ | ⟨-, right⟩
          · exact absurd (index_unique distinct first at_k left) before.ne'
          · exact absurd (index_unique distinct second at_k right) (before.trans own).ne')
      rw [compareFrom, ih next _ ?_, results, filterMap_laterIndices, next, allPairs, allPairs,
        pairsOf, List.filterMap_append, List.filterMap_map, List.append_assoc]
      · simp only [Function.comp_def, compareEvents_eq]
      · intro key listed
        rcases checked key listed with old | ⟨j, member, b, at_, rfl⟩
        · obtain ⟨k, l, c, d, before, rest_⟩ := earlier key old
          exact ⟨k, l, c, d, before.trans (Nat.lt_succ_self i), rest_⟩
        · exact ⟨i, j, a, b, Nat.lt_succ_self i, after j member, first, at_, rfl⟩

end InOrder

/-- The indexed computation gives exactly what comparing every pair in the order of the
list gives. -/
theorem supersession_eq_allPairs (settings : Settings) (events : List EventRecord)
    (p2d : ProgramDevices) (distinct : (events.map (·.mrid)).Nodup) :
    SupersessionIndex.computeSupersession settings events p2d = allPairs events p2d := by
  rw [SupersessionIndex.computeSupersession_eq, computeSupersession,
    compareFrom_fresh distinct events rfl ([], []) (by simp), List.nil_append]

/-- Two programs that share a device, a third that the map does not know: the later
event of better primacy wins, the third program's event is left alone. -/
theorem supersession_eq_allPairs_shared :
    let event := fun (mrid : Mrid) (p : Href) (primacy : Nat) =>
      newRecord (plainControl mrid 0 100 .opModFixedW) p primacy .scheduled 0 100
    let events := [event 1 "/derp/1" 5, event 2 "/derp/2" 1, event 3 "/derp/3" 0]
    let p2d := (Dict.empty.set "/derp/1" ["/edev/1", "/edev/2"]).set "/derp/2" ["/edev/2"]
    SupersessionIndex.computeSupersession .plain events p2d = allPairs events p2d ∧
      (allPairs events p2d).map (fun r => (r.supersedingMrid, r.supersededMrid, r.affectedDevices)) =
        [(2, 1, ["/edev/2"])] :=
  ⟨supersession_eq_allPairs _ _ _ (by decide), by decide +kernel⟩

end Py20305
