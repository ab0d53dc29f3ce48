import Mathlib.Algebra.BigOperators.Group.List.Basic
import Mathlib.Algebra.Order.Group.MinMax
import Mathlib.Tactic.Linarith

/-!
Spans of an ordered axis and how much of each lies in a window.

`overlap` is the length a span and a window have in common. It splits with the span
(`overlap_add`), and spans that follow one another cover no more of a window than its
length (`sum_overlap_le`).
-/

namespace Py20305

variable {α : Type} [Field α] [LinearOrder α] [IsStrictOrderedRing α]

/-- A piece of the axis, from `first` up to `last`. -/
structure Span (α : Type) where
  first : α
  last : α

namespace Span

/-- The first span ends before the second begins. -/
def Before (x y : Span α) : Prop := x.last ≤ y.first

def length (x : Span α) : α := x.last - x.first

/-- The length of the part of `[first, last)` inside `[lo, hi)`. -/
def overlap (first last lo hi : α) : α := max 0 (min last hi - max first lo)

omit [IsStrictOrderedRing α] in
theorem overlap_nonneg (first last lo hi : α) : 0 ≤ overlap first last lo hi := le_max_left _ _

theorem overlap_inside {first last lo hi : α} (lower : lo ≤ first) (upper : last ≤ hi)
    (ordered : first ≤ last) : overlap first last lo hi = last - first := by
  rw [overlap, min_eq_left upper, max_eq_left lower, max_eq_right (sub_nonneg.mpr ordered)]

theorem overlap_outside {first last lo hi : α} (apart : last ≤ lo ∨ hi ≤ first) :
    overlap first last lo hi = 0 := by
  apply max_eq_left
  rcases apart with early | late
  · have := le_trans (min_le_left last hi) (early.trans (le_max_right first lo))
    linarith
  · have := le_trans (min_le_right last hi) (late.trans (le_max_left first lo))
    linarith

/-- Two parts of a span overlap a window as much as the whole of it. -/
theorem overlap_add {first mid last : α} (lo hi : α) (before : first ≤ mid)
    (after : mid ≤ last) :
    overlap first last lo hi = overlap first mid lo hi + overlap mid last lo hi := by
  simp only [overlap]
  grind

/-- Spans that follow one another, none before `bound`, cover no more of a window than
is left of it after `bound`. -/
theorem sum_overlap_le_from (lo hi : α) (xs : List (Span α)) (bound : α)
    (ordered : xs.Pairwise Before) (wide : ∀ x ∈ xs, x.first ≤ x.last)
    (later : ∀ x ∈ xs, bound ≤ x.first) :
    (xs.map fun x => overlap x.first x.last lo hi).sum ≤ overlap bound (max bound hi) lo hi := by
  induction xs generalizing bound with
  | nil => simpa using overlap_nonneg _ _ _ _
  | cons x rest ih =>
      obtain ⟨next, ordered⟩ := List.pairwise_cons.mp ordered
      have after := ih x.last ordered (fun y h => wide y (List.mem_cons_of_mem _ h)) next
      have x_wide := wide x List.mem_cons_self
      have x_later := later x List.mem_cons_self
      rw [List.map_cons, List.sum_cons]
      refine le_trans (add_le_add_right after _) ?_
      simp only [overlap]
      grind

theorem sum_overlap_le {lo hi : α} (window : lo ≤ hi) (xs : List (Span α))
    (ordered : xs.Pairwise Before) (wide : ∀ x ∈ xs, x.first ≤ x.last) :
    (xs.map fun x => overlap x.first x.last lo hi).sum ≤ hi - lo := by
  cases xs with
  | nil => simpa using sub_nonneg.mpr window
  | cons x rest =>
      have after := (List.pairwise_cons.mp ordered).1
      have later : ∀ y ∈ x :: rest, x.first ≤ y.first := by
        intro y listed
        rcases List.mem_cons.mp listed with rfl | listed
        · exact le_rfl
        · exact le_trans (wide x List.mem_cons_self) (after y listed)
      have bounded := sum_overlap_le_from lo hi (x :: rest) x.first ordered wide later
      apply bounded.trans
      simp only [overlap]
      grind

omit [Field α] [IsStrictOrderedRing α] in
/-- No point is in two spans that follow one another. -/
theorem atMostOne (t : α) (xs : List (Span α)) (ordered : xs.Pairwise Before) :
    (xs.filter fun x => decide (x.first ≤ t ∧ t < x.last)).length ≤ 1 := by
  have kept := ordered.filter fun x => decide (x.first ≤ t ∧ t < x.last)
  generalize found : xs.filter (fun x => decide (x.first ≤ t ∧ t < x.last)) = ys at kept ⊢
  have each : ∀ y ∈ ys, y.first ≤ t ∧ t < y.last := by
    intro y listed
    rw [← found] at listed
    exact of_decide_eq_true (List.mem_filter.mp listed).2
  match ys with
  | [] => simp
  | [_] => simp
  | y :: z :: rest =>
      have before := (List.pairwise_cons.mp kept).1 z List.mem_cons_self
      have first := (each y List.mem_cons_self).2
      have second := (each z (List.mem_cons_of_mem _ List.mem_cons_self)).1
      exact absurd (lt_of_lt_of_le first (before.trans second)) (lt_irrefl t)

end Span

end Py20305
