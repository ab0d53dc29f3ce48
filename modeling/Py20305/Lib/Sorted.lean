import Mathlib

/-!
The first elements of a sorted list, and the ones past a value.

`mergeSort_take` reads the first elements off any part of a list that precedes the
rest, so two lists that agree on such a part agree on them (`take_mergeSort_congr`).
`bisectRight` is the binary search for where the elements above a value begin;
`drop_bisectRight` says that in a sorted list it finds them.
-/

namespace Py20305

section Taking

variable {α : Type} {le : α → α → Bool} {p : α → Bool}

/-- What precedes the rest comes first. -/
theorem filter_append_filter {xs : List α} (first : xs.Pairwise fun a b => p b = true → p a = true) :
    xs.filter p ++ xs.filter (fun a => !p a) = xs := by
  induction xs with
  | nil => rfl
  | cons x rest ih =>
      obtain ⟨head, tail⟩ := List.pairwise_cons.mp first
      by_cases here : p x = true
      · simp [here, ih tail]
      · have none_later : rest.filter p = [] := by
          rw [List.filter_eq_nil_iff]
          intro y listed later
          exact here (head y listed later)
        have ih' := ih tail
        rw [none_later, List.nil_append] at ih'
        simp [here, none_later, ih']

variable (trans : ∀ a b c, le a b = true → le b c = true → le a c = true)
  (total : ∀ a b, (le a b || le b a) = true)

include trans total

/-- Sorting keeps what precedes the rest in front. -/
theorem mergeSort_take {xs : List α} {n : ℕ}
    (before : ∀ a ∈ xs, ∀ b ∈ xs, p a = true → p b = false → le b a = false)
    (enough : n ≤ (xs.filter p).length) :
    (xs.mergeSort le).take n = ((xs.mergeSort le).filter p).take n := by
  have sorted := List.pairwise_mergeSort trans total xs
  have first : (xs.mergeSort le).Pairwise fun a b => p b = true → p a = true := by
    refine sorted.imp_of_mem fun {a b} a_in b_in ordered later => ?_
    by_contra not_first
    have contrary := before b (List.mem_mergeSort.mp b_in) a (List.mem_mergeSort.mp a_in) later
      (Bool.eq_false_iff.mpr not_first)
    rw [ordered] at contrary
    cases contrary
  have count : ((xs.mergeSort le).filter p).length = (xs.filter p).length :=
    ((List.mergeSort_perm xs le).filter p).length_eq
  conv_lhs => rw [← filter_append_filter first]
  exact List.take_append_of_le_length (count ▸ enough)

/-- Lists that agree on a part that precedes the rest of both have the same first
elements. -/
theorem take_mergeSort_congr {xs ys : List α} {n : ℕ}
    (anti : ∀ a ∈ xs.filter p, ∀ b ∈ ys.filter p, le a b = true → le b a = true → a = b)
    (same : (xs.filter p).Perm (ys.filter p))
    (before_xs : ∀ a ∈ xs, ∀ b ∈ xs, p a = true → p b = false → le b a = false)
    (before_ys : ∀ a ∈ ys, ∀ b ∈ ys, p a = true → p b = false → le b a = false)
    (enough : n ≤ (xs.filter p).length) :
    (xs.mergeSort le).take n = (ys.mergeSort le).take n := by
  have sorted : ∀ zs : List α, ((zs.mergeSort le).filter p).Pairwise fun a b => le a b = true :=
    fun zs => (List.pairwise_mergeSort trans total zs).filter p
  have part : ∀ zs : List α, ((zs.mergeSort le).filter p).Perm (zs.filter p) :=
    fun zs => (List.mergeSort_perm zs le).filter p
  rw [mergeSort_take trans total before_xs enough,
    mergeSort_take trans total before_ys (same.length_eq ▸ enough)]
  congr 1
  apply List.Perm.eq_of_pairwise _ (sorted xs) (sorted ys)
    (((part xs).trans same).trans (part ys).symm)
  intro a b a_in b_in
  exact anti a ((part xs).mem_iff.mp a_in) b ((part ys).mem_iff.mp b_in)

end Taking

/-! ### Binary search -/

section Bisect

variable {β : Type} [LinearOrder β]

/-- Halve `[lo, hi)` until the first element above `x` is found. -/
def bisectRight (xs : List β) (x : β) (lo hi : ℕ) : ℕ :=
  if lo < hi then
    if ∃ y, xs[(lo + hi) / 2]? = some y ∧ x < y then bisectRight xs x lo ((lo + hi) / 2)
    else bisectRight xs x ((lo + hi) / 2 + 1) hi
  else lo
termination_by hi - lo

/-- Below the position found nothing is above `x`, and from it on everything is. -/
theorem bisectRight_spec {xs : List β} (sorted : xs.Pairwise (· ≤ ·)) (x : β) (lo hi : ℕ)
    (ordered : lo ≤ hi) (inside : hi ≤ xs.length)
    (below : ∀ k y, k < lo → xs[k]? = some y → y ≤ x)
    (above : ∀ k y, hi ≤ k → xs[k]? = some y → x < y) :
    (∀ k y, k < bisectRight xs x lo hi → xs[k]? = some y → y ≤ x) ∧
      ∀ k y, bisectRight xs x lo hi ≤ k → xs[k]? = some y → x < y := by
  have mono : ∀ (k l : ℕ) (y z : β), k ≤ l → xs[k]? = some y → xs[l]? = some z → y ≤ z := by
    intro k l y z before first second
    obtain ⟨k_in, rfl⟩ := List.getElem?_eq_some_iff.mp first
    obtain ⟨l_in, rfl⟩ := List.getElem?_eq_some_iff.mp second
    rcases Nat.eq_or_lt_of_le before with rfl | before
    · exact le_rfl
    · exact List.pairwise_iff_getElem.mp sorted k l k_in l_in before
  induction lo, hi using bisectRight.induct xs x with
  | case1 lo hi open_ greater ih =>
      rw [bisectRight, if_pos open_, if_pos greater]
      obtain ⟨y, here, above_here⟩ := greater
      refine ih (by omega) (by omega) below fun k z after found => ?_
      exact above_here.trans_le (mono _ k y z after here found)
  | case2 lo hi open_ smaller ih =>
      rw [bisectRight, if_pos open_, if_neg smaller]
      refine ih (by omega) inside (fun k z before found => ?_) above
      have mid_in : (lo + hi) / 2 < xs.length := by omega
      have here : xs[(lo + hi) / 2]? = some xs[(lo + hi) / 2] := List.getElem?_eq_getElem mid_in
      have not_above : xs[(lo + hi) / 2] ≤ x := by
        by_contra contrary
        exact smaller ⟨_, here, not_le.mp contrary⟩
      exact (mono k _ z _ (by omega) found here).trans not_above
  | case3 lo hi closed =>
      rw [bisectRight, if_neg closed]
      exact ⟨below, fun k y after found => above k y (by omega) found⟩

/-- What follows the position found are the elements above `x`. -/
theorem drop_bisectRight {xs : List β} (sorted : xs.Pairwise (· ≤ ·)) (x : β) :
    xs.drop (bisectRight xs x 0 xs.length) = xs.filter (x < ·) := by
  obtain ⟨below, above⟩ := bisectRight_spec sorted x 0 xs.length (Nat.zero_le _) le_rfl
    (fun k y before => absurd before (Nat.not_lt_zero k)) fun k y outside found => by
      rw [List.getElem?_eq_none outside] at found
      cases found
  generalize bisectRight xs x 0 xs.length = cut at below above
  have first : (xs.take cut).filter (x < ·) = [] := by
    rw [List.filter_eq_nil_iff]
    intro y member
    obtain ⟨k, found⟩ := List.mem_iff_getElem?.mp member
    rw [List.getElem?_take] at found
    split at found
    · rename_i before
      simpa using below k y before found
    · cases found
  have second : (xs.drop cut).filter (x < ·) = xs.drop cut := by
    rw [List.filter_eq_self]
    intro y member
    obtain ⟨k, found⟩ := List.mem_iff_getElem?.mp member
    rw [List.getElem?_drop] at found
    simpa using above _ y (Nat.le_add_right cut k) found
  conv_rhs => rw [← List.take_append_drop cut xs, List.filter_append, first, second,
    List.nil_append]

end Bisect

end Py20305
