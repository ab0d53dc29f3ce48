import Py20305.Lib.Dict

/-!
Moving values of a dictionary to other keys, one after the other.

The new key of a value may be the old key of another. Where the other moved before,
nothing is lost; where it is still to move, the first value goes with it
(`arrived_iff`).
-/

namespace Py20305

namespace Dict

variable {κ ν : Type} [DecidableEq κ]

/-- A value that is to move from one key to another. -/
structure Move (κ ν : Type) where
  value : ν
  old : κ
  new : κ

/-- Move one value: delete the old key, assign the new one. -/
def move (d : Dict κ ν) (m : Move κ ν) : Dict κ ν :=
  if m.new = m.old then d else (d.erase m.old).set m.new m.value

/-- Move the values one after the other. -/
def moveAll (d : Dict κ ν) (ms : List (Move κ ν)) : Dict κ ν := ms.foldl move d

/-- Every value is under its new key, and nowhere else. -/
def Arrived (d : Dict κ ν) (ms : List (Move κ ν)) : Prop :=
  ∀ m ∈ ms, ∀ k, d.get? k = some m.value ↔ k = m.new

/-- Nothing moves to a key whose value is still to move. -/
def InOrder (ms : List (Move κ ν)) : Prop := ms.Pairwise fun m later => m.new ≠ later.old

instance (ms : List (Move κ ν)) : Decidable (InOrder ms) := by unfold InOrder; infer_instance

/-- Each value is under its old key and nowhere else, and no two values share an old or
a new key. -/
structure Movable (d : Dict κ ν) (ms : List (Move κ ν)) : Prop where
  placed : ∀ m ∈ ms, ∀ k, d.get? k = some m.value ↔ k = m.old
  olds : (ms.map Move.old).Nodup
  news : (ms.map Move.new).Nodup

theorem get?_move (d : Dict κ ν) (m : Move κ ν) (k : κ) :
    (d.move m).get? k = if m.new = m.old then d.get? k
      else if k = m.new then some m.value else if k = m.old then none else d.get? k := by
  unfold move
  split
  · rfl
  · rw [get?_set, get?_erase]

/-- A key no value moves from or to keeps its value. -/
theorem get?_moveAll_other (d : Dict κ ν) (ms : List (Move κ ν)) {k : κ}
    (other : ∀ m ∈ ms, k ≠ m.old ∧ k ≠ m.new) : (d.moveAll ms).get? k = d.get? k := by
  induction ms generalizing d with
  | nil => rfl
  | cons m rest ih =>
      obtain ⟨not_old, not_new⟩ := other m List.mem_cons_self
      rw [moveAll, List.foldl_cons, ← moveAll,
        ih _ fun later listed => other later (List.mem_cons_of_mem m listed), get?_move]
      simp [not_old, not_new]

/-- A key nothing moves to stays free. -/
theorem get?_moveAll_none (d : Dict κ ν) (ms : List (Move κ ν)) {k : κ} (free : d.get? k = none)
    (avoided : ∀ m ∈ ms, k ≠ m.new) : (d.moveAll ms).get? k = none := by
  induction ms generalizing d with
  | nil => exact free
  | cons m rest ih =>
      refine ih (d.move m) ?_ fun later listed => avoided later (List.mem_cons_of_mem m listed)
      rw [get?_move, free, if_neg (avoided m List.mem_cons_self)]
      simp

/-- Values that do not move stay where they are, or are lost. -/
theorem get?_moveAll_value (d : Dict κ ν) (ms : List (Move κ ν)) {k : κ} {v : ν}
    (still : ∀ m ∈ ms, m.value ≠ v) (found : (d.moveAll ms).get? k = some v) :
    d.get? k = some v := by
  induction ms generalizing d with
  | nil => exact found
  | cons m rest ih =>
      have before := ih (d.move m) (fun later listed => still later (List.mem_cons_of_mem m listed))
        found
      rw [get?_move] at before
      split_ifs at before
      · exact before
      · cases before
        exact absurd rfl (still m List.mem_cons_self)
      · exact before

section Movable

variable {d : Dict κ ν} {m : Move κ ν} {rest ms : List (Move κ ν)}

/-- Values with different old keys are different. -/
theorem Movable.value_ne (movable : Movable d (m :: rest)) {later : Move κ ν}
    (listed : later ∈ rest) : later.value ≠ m.value := by
  intro same
  have at_own := (movable.placed later (List.mem_cons_of_mem m listed) later.old).mpr rfl
  rw [same] at at_own
  have shared := (movable.placed m List.mem_cons_self later.old).mp at_own
  exact (List.nodup_cons.mp movable.olds).1 (shared ▸ List.mem_map_of_mem listed)

/-- Once the first value has moved, the others can, if none of them is in its place. -/
theorem Movable.move (movable : Movable d (m :: rest))
    (clear : ∀ later ∈ rest, m.new ≠ later.old) : Movable (d.move m) rest := by
  refine ⟨fun later listed k => ?_, (List.nodup_cons.mp movable.olds).2,
    (List.nodup_cons.mp movable.news).2⟩
  have own := movable.placed later (List.mem_cons_of_mem m listed) k
  have apart : m.old ≠ later.old := fun same =>
    (List.nodup_cons.mp movable.olds).1 (same ▸ List.mem_map_of_mem listed)
  rw [get?_move]
  split_ifs with stays here gone
  · exact own
  · refine ⟨fun same => ?_, fun same => absurd (here.symm.trans same) (clear later listed)⟩
    exact absurd (Option.some.inj same).symm (movable.value_ne listed)
  · exact iff_of_false (by simp) fun same => apart (gone.symm.trans same)
  · exact own

/-- The first value, once it has moved. -/
theorem Movable.moved (movable : Movable d (m :: rest)) (k : κ) :
    (d.move m).get? k = some m.value ↔ k = m.new := by
  have own := movable.placed m List.mem_cons_self k
  rw [get?_move]
  split_ifs with stays here gone
  · rw [own, stays]
  · simp [here]
  · simp [here]
  · rw [own]
    exact iff_of_false gone here

omit [DecidableEq κ] in
/-- Where the moves are not in order, one of them crosses a later one. -/
theorem crossing_of_not_inOrder (crossed : ¬ InOrder ms) :
    ∃ before m between later after, ms = before ++ m :: (between ++ later :: after) ∧
      m.new = later.old := by
  induction ms with
  | nil => exact absurd List.Pairwise.nil crossed
  | cons m rest ih =>
      by_cases clear_ : ∀ later ∈ rest, m.new ≠ later.old
      · obtain ⟨before, m', between, later, after, same, meet⟩ :=
          ih fun ordered => crossed (List.pairwise_cons.mpr ⟨clear_, ordered⟩)
        exact ⟨m :: before, m', between, later, after, by rw [same]; rfl, meet⟩
      · simp only [not_forall, not_not] at clear_
        obtain ⟨later, listed, meet⟩ := clear_
        obtain ⟨between, after, rfl⟩ := List.append_of_mem listed
        exact ⟨[], m, between, later, after, rfl, meet⟩

/-- The values all arrive exactly if none moves to a key whose value is still to move. -/
theorem arrived_iff (movable : Movable d ms) : Arrived (d.moveAll ms) ms ↔ InOrder ms := by
  constructor
  · -- A value in a later one's place is deleted with it, and nothing moves there again.
    intro arrived
    by_contra crossed
    obtain ⟨before, m, between, later, after, rfl, meet⟩ := crossing_of_not_inOrder crossed
    have news := movable.news
    simp only [List.map_append, List.map_cons, List.nodup_append, List.nodup_cons, List.mem_append,
      List.mem_cons, List.mem_map, not_or] at news
    obtain ⟨-, ⟨⟨-, later_ne, after_ne⟩, -⟩, -⟩ := news
    have there := (arrived m (by simp) m.new).mpr rfl
    have gone : ((before ++ m :: between).foldl move d |>.move later).get? m.new = none := by
      rw [get?_move, if_neg fun stays => later_ne (meet.trans stays.symm), if_neg later_ne,
        if_pos meet]
    have still := get?_moveAll_none _ after gone fun last listed same =>
      after_ne ⟨last, listed, same.symm⟩
    have split_ : d.moveAll (before ++ m :: (between ++ later :: after)) =
        (((before ++ m :: between).foldl move d).move later).moveAll after := by
      simp only [moveAll, List.foldl_append, List.foldl_cons]
    rw [split_, still] at there
    cases there
  · intro ordered
    induction ms generalizing d with
    | nil => exact fun m listed => absurd listed List.not_mem_nil
    | cons m rest ih =>
        obtain ⟨clear_, ordered⟩ := List.pairwise_cons.mp ordered
        have rest_arrived := ih (movable.move clear_) ordered
        intro m' listed k
        rcases List.mem_cons.mp listed with rfl | listed
        · constructor
          · intro found
            exact (movable.moved k).mp
              (get?_moveAll_value _ rest (fun later listed => movable.value_ne listed) found)
          · rintro rfl
            have apart : ∀ later ∈ rest, m'.new ≠ later.old ∧ m'.new ≠ later.new :=
              fun later listed => ⟨clear_ later listed, fun same =>
                (List.nodup_cons.mp movable.news).1 (same ▸ List.mem_map_of_mem listed)⟩
            exact (get?_moveAll_other _ rest apart).trans ((movable.moved m'.new).mpr rfl)
        · exact rest_arrived m' listed k

end Movable

end Dict

end Py20305
