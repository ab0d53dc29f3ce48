import Mathlib.Data.List.Sort
import Mathlib.Data.List.Dedup
import Py20305.Events.Records

/-!
The supersession algorithm (`events/supersession.py`): which of the given
events supersede which, on which devices and for which modes.
-/

namespace Py20305

/-- `SupersessionResult`. -/
structure SupersessionResult where
  supersededMrid : Mrid
  supersedingMrid : Mrid
  affectedDevices : List Href
  supersededProgramHref : Href
  supersedingProgramHref : Href
  affectedModes : Finset Mode

/-- The device sets of the programs. -/
abbrev ProgramDevices := Dict Href (List Href)

/-- `_time_overlaps`: half-open intervals. -/
def timeOverlaps (a b : EventRecord) : Bool := a.start < b.end && b.start < a.end

/-- The time events of equal primacy are ordered by. -/
def tieBreakTime (a : EventRecord) : Int :=
  if a.creationTime ≠ 0 then a.creationTime else a.serverStatusTime

/-- The event of the two that wins, then the other; `a` comes first in the
list. -/
def winnerLoser (a b : EventRecord) : EventRecord × EventRecord :=
  if a.primacy < b.primacy then (a, b)
  else if b.primacy < a.primacy then (b, a)
  else if tieBreakTime b ≤ tieBreakTime a then (a, b)
  else (b, a)

/-- The comparison of one pair. -/
def compareEvents (p2d : ProgramDevices) (a b : EventRecord) : Option SupersessionResult :=
  let modesA := comparedModeKeys a.derc.base
  let modesB := comparedModeKeys b.derc.base
  let overlap := modesA ∩ modesB
  if !timeOverlaps a b then none
  else if modesA ≠ modesB ∧ overlap = ∅ then none
  else
    let winner := (winnerLoser a b).1
    let loser := (winnerLoser a b).2
    let affected := (p2d.getD winner.programHref []).filter (· ∈ p2d.getD loser.programHref [])
    if affected = [] then none
    else some
      { supersededMrid := loser.mrid
        supersedingMrid := winner.mrid
        affectedDevices := affected
        supersededProgramHref := loser.programHref
        supersedingProgramHref := winner.programHref
        affectedModes := overlap }

/-- The programs that reach a device `program` reaches, itself included. -/
def programsSharing (p2d : ProgramDevices) (program : Href) : List Href :=
  ((p2d.getD program []).flatMap fun d =>
    (p2d.entries.filter fun e => d ∈ e.2).map Prod.fst).dedup

/-- The positions of a program's events. -/
def indicesOf (events : List EventRecord) (program : Href) : List Nat :=
  (List.range events.length).filter fun i => (events[i]?.map (·.programHref)) = some program

/-- The positions after `i` of events that can share a device with event `a`. -/
def laterIndices (p2d : ProgramDevices) (events : List EventRecord) (i : Nat) (a : EventRecord) :
    List Nat :=
  ((programsSharing p2d a.programHref).flatMap fun program =>
    (indicesOf events program).filter (i < ·)).insertionSort (· ≤ ·)

/-- The inner loop: event `a` against the events at the given positions. -/
def compareLater (p2d : ProgramDevices) (events : List EventRecord) (a : EventRecord) :
    List Nat → List (Mrid × Mrid) × List SupersessionResult →
      List (Mrid × Mrid) × List SupersessionResult
  | [], acc => acc
  | j :: rest, (checked, results) =>
      match events[j]? with
      | none => compareLater p2d events a rest (checked, results)
      | some b =>
          let pair := (min a.mrid b.mrid, max a.mrid b.mrid)
          if pair ∈ checked then compareLater p2d events a rest (checked, results)
          else compareLater p2d events a rest
            (pair :: checked, results ++ (compareEvents p2d a b).toList)

/-- The outer loop, from position `i` on. -/
def compareFrom (p2d : ProgramDevices) (events : List EventRecord) :
    Nat → List EventRecord → List (Mrid × Mrid) × List SupersessionResult →
      List (Mrid × Mrid) × List SupersessionResult
  | _, [], acc => acc
  | i, a :: rest, acc =>
      compareFrom p2d events (i + 1) rest
        (compareLater p2d events a (laterIndices p2d events i a) acc)

/-- `compute_supersession`. -/
def computeSupersession (events : List EventRecord) (p2d : ProgramDevices) :
    List SupersessionResult :=
  (compareFrom p2d events 0 events ([], [])).2

/-! ### Which pairs are compared -/

/-- The key a pair of events is compared under once. -/
def pairKey (a b : EventRecord) : Mrid × Mrid := (min a.mrid b.mrid, max a.mrid b.mrid)

theorem pairKey_inj {a b a' b' : EventRecord} (same : pairKey a b = pairKey a' b') :
    (a.mrid = a'.mrid ∧ b.mrid = b'.mrid) ∨ (a.mrid = b'.mrid ∧ b.mrid = a'.mrid) := by
  simp only [pairKey, Prod.mk.injEq] at same
  obtain ⟨least, most⟩ := same
  rcases le_total a.mrid b.mrid with ordered | ordered <;>
    rcases le_total a'.mrid b'.mrid with ordered' | ordered' <;>
    simp only [min_eq_left, min_eq_right, max_eq_left, max_eq_right, ordered, ordered'] at least most
  · exact .inl ⟨least, most⟩
  · exact .inr ⟨least, most⟩
  · exact .inr ⟨most, least⟩
  · exact .inl ⟨most, least⟩

section Compared

variable (p2d : ProgramDevices) (events : List EventRecord)

/-- What was compared is among the results, and nothing else is. -/
structure Compared (acc : List (Mrid × Mrid) × List SupersessionResult) : Prop where
  sound : ∀ result ∈ acc.2, ∃ (i j : Nat) (a b : EventRecord), i < j ∧ events[i]? = some a ∧
    events[j]? = some b ∧ compareEvents p2d a b = some result
  complete : ∀ (i j : Nat) (a b : EventRecord), i < j → events[i]? = some a → events[j]? = some b →
    pairKey a b ∈ acc.1 → ∀ result, compareEvents p2d a b = some result → result ∈ acc.2

variable {p2d events} {acc : List (Mrid × Mrid) × List SupersessionResult}

/-- Positions in a list of distinct mRIDs. -/
theorem index_unique (distinct : (events.map (·.mrid)).Nodup) {i j : Nat} {a b : EventRecord}
    (first : events[i]? = some a) (second : events[j]? = some b) (same : a.mrid = b.mrid) :
    i = j := by
  have left : (events.map (·.mrid))[i]? = some a.mrid := by rw [List.getElem?_map, first]; rfl
  have right : (events.map (·.mrid))[j]? = some a.mrid := by
    rw [List.getElem?_map, second, same]
    rfl
  obtain ⟨inside, -⟩ := List.getElem?_eq_some_iff.mp left
  exact (List.getElem?_inj inside distinct).mp (left.trans right.symm)

theorem Compared.pair (distinct : (events.map (·.mrid)).Nodup) {i j : Nat} {a b : EventRecord}
    (before : i < j) (first : events[i]? = some a) (second : events[j]? = some b)
    (compared : Compared p2d events acc) :
    Compared p2d events (pairKey a b :: acc.1, acc.2 ++ (compareEvents p2d a b).toList) := by
  refine ⟨fun result member => ?_, fun i' j' a' b' before' first' second' listed result found => ?_⟩
  · rcases List.mem_append.mp member with old | new
    · exact compared.sound result old
    · exact ⟨i, j, a, b, before, first, second, Option.mem_toList.mp new⟩
  · rcases List.mem_cons.mp listed with same | old
    · -- Two positions with one key, in the same order.
      have here : i' = i ∧ j' = j := by
        rcases pairKey_inj same with ⟨left, right⟩ | ⟨left, right⟩
        · exact ⟨index_unique distinct first' first left, index_unique distinct second' second right⟩
        · have := index_unique distinct first' second left
          have := index_unique distinct second' first right
          omega
      obtain ⟨rfl, rfl⟩ := here
      cases first.symm.trans first'
      cases second.symm.trans second'
      exact List.mem_append_right _ (Option.mem_toList.mpr found)
    · exact List.mem_append_left _
        (compared.complete i' j' a' b' before' first' second' old result found)

theorem compareLater_spec (distinct : (events.map (·.mrid)).Nodup) {i : Nat} {a : EventRecord}
    (first : events[i]? = some a) (js : List Nat) (later : ∀ j ∈ js, i < j)
    (compared : Compared p2d events acc) :
    Compared p2d events (compareLater p2d events a js acc) ∧
      acc.1 ⊆ (compareLater p2d events a js acc).1 ∧
      ∀ j ∈ js, ∀ b, events[j]? = some b →
        pairKey a b ∈ (compareLater p2d events a js acc).1 := by
  induction js generalizing acc with
  | nil => exact ⟨compared, List.Subset.refl _, by simp⟩
  | cons j rest ih =>
      obtain ⟨checked, results⟩ := acc
      have rest_later : ∀ k ∈ rest, i < k := fun k member => later k (List.mem_cons_of_mem j member)
      simp only [compareLater]
      cases second : events[j]? with
      | none =>
          obtain ⟨kept, grown, all⟩ := ih rest_later compared
          refine ⟨kept, grown, fun k member b at_ => ?_⟩
          rcases List.mem_cons.mp member with rfl | member
          · rw [second] at at_
            cases at_
          · exact all k member b at_
      | some b =>
          dsimp only
          split
          · rename_i known
            obtain ⟨kept, grown, all⟩ := ih rest_later compared
            refine ⟨kept, grown, fun k member c at_ => ?_⟩
            rcases List.mem_cons.mp member with rfl | member
            · cases second.symm.trans at_
              exact grown known
            · exact all k member c at_
          · obtain ⟨kept, grown, all⟩ := ih rest_later
              (compared.pair distinct (later j List.mem_cons_self) first second)
            refine ⟨kept, fun key member => grown (List.mem_cons_of_mem _ member),
              fun k member c at_ => ?_⟩
            rcases List.mem_cons.mp member with rfl | member
            · cases second.symm.trans at_
              exact grown List.mem_cons_self
            · exact all k member c at_

theorem mem_laterIndices {i j : Nat} {a : EventRecord} :
    j ∈ laterIndices p2d events i a ↔ i < j ∧ ∃ program ∈ programsSharing p2d a.programHref,
      events[j]?.map (·.programHref) = some program := by
  simp only [laterIndices, List.mem_insertionSort, List.mem_flatMap, List.mem_filter, indicesOf,
    List.mem_range, decide_eq_true_eq]
  constructor
  · rintro ⟨program, member, ⟨-, at_⟩, later⟩
    exact ⟨later, program, member, at_⟩
  · rintro ⟨later, program, member, at_⟩
    refine ⟨program, member, ⟨?_, at_⟩, later⟩
    by_contra outside
    rw [List.getElem?_eq_none (not_lt.mp outside)] at at_
    cases at_

theorem compareFrom_spec (distinct : (events.map (·.mrid)).Nodup) (i : Nat)
    (rest : List EventRecord) (here : events.drop i = rest) (compared : Compared p2d events acc) :
    Compared p2d events (compareFrom p2d events i rest acc) ∧
      acc.1 ⊆ (compareFrom p2d events i rest acc).1 ∧
      ∀ k, i ≤ k → ∀ a, events[k]? = some a → ∀ j ∈ laterIndices p2d events k a,
        ∀ b, events[j]? = some b → pairKey a b ∈ (compareFrom p2d events i rest acc).1 := by
  induction rest generalizing i acc with
  | nil =>
      refine ⟨compared, List.Subset.refl _, fun k later a at_ => ?_⟩
      have := List.drop_eq_nil_iff.mp here
      rw [List.getElem?_eq_none (by omega)] at at_
      cases at_
  | cons a rest ih =>
      have first : events[i]? = some a := by
        have := congrArg (·[0]?) here
        simpa using this
      have next : events.drop (i + 1) = rest := by
        rw [← List.tail_drop, here]
        rfl
      obtain ⟨kept, grown, all⟩ := compareLater_spec distinct first (laterIndices p2d events i a)
        (fun j member => (mem_laterIndices.mp member).1) compared
      obtain ⟨kept', grown', all'⟩ := ih (i + 1) next kept
      refine ⟨kept', fun key member => grown' (grown member), fun k later b at_ => ?_⟩
      rcases Nat.eq_or_lt_of_le later with rfl | later
      · cases first.symm.trans at_
        exact fun j member c at_ => grown' (all j member c at_)
      · exact all' k later b at_

end Compared

/-- Only events that share a device are compared with a result. -/
theorem mem_programsSharing {p2d : ProgramDevices} {a b : EventRecord}
    {result : SupersessionResult} (found : compareEvents p2d a b = some result) :
    b.programHref ∈ programsSharing p2d a.programHref := by
  have shared : ∃ d, d ∈ p2d.getD a.programHref [] ∧ d ∈ p2d.getD b.programHref [] := by
    simp only [compareEvents] at found
    split_ifs at found with _ _ affected
    obtain ⟨d, member⟩ := List.exists_mem_of_ne_nil _ affected
    simp only [List.mem_filter, decide_eq_true_eq] at member
    unfold winnerLoser at member
    split_ifs at member
    · exact ⟨d, member⟩
    · exact ⟨d, member.symm⟩
    · exact ⟨d, member⟩
    · exact ⟨d, member.symm⟩
  obtain ⟨d, own, other⟩ := shared
  simp only [programsSharing, List.mem_dedup, List.mem_flatMap, List.mem_map, List.mem_filter,
    decide_eq_true_eq]
  unfold Dict.getD at other
  cases mapped : p2d.get? b.programHref with
  | none =>
      rw [mapped] at other
      cases other
  | some devices =>
      rw [mapped] at other
      exact ⟨d, own, (b.programHref, devices), ⟨(Dict.mem_entries_iff _ _ _).mpr mapped, other⟩, rfl⟩

/-- The results are those of the pairs of events, in the order of the list. -/
theorem mem_computeSupersession {p2d : ProgramDevices} {events : List EventRecord}
    (distinct : (events.map (·.mrid)).Nodup) {result : SupersessionResult} :
    result ∈ computeSupersession events p2d ↔ ∃ (i j : Nat) (a b : EventRecord), i < j ∧
      events[i]? = some a ∧ events[j]? = some b ∧ compareEvents p2d a b = some result := by
  have none_ : Compared p2d events ([], []) := ⟨by simp, by simp⟩
  obtain ⟨compared, -, all⟩ := compareFrom_spec distinct 0 events rfl none_
  refine ⟨compared.sound result, ?_⟩
  rintro ⟨i, j, a, b, before, first, second, found⟩
  refine compared.complete i j a b before first second ?_ result found
  refine all i (Nat.zero_le i) a first j (mem_laterIndices.mpr ⟨before, _, mem_programsSharing found,
    ?_⟩) b second
  rw [second]
  rfl

end Py20305
