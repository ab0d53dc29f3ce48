import Mathlib.Data.List.DropRight

/-!
Texts cut at a separator.

`segments` trims the separator off both ends of a text and cuts the rest at it. Segments joined
again are the same segments, less the empty ones at the end (`segments_join`).
-/

namespace Py20305

section Segments

variable {α : Type} [DecidableEq α]

/-- The text without the separators at its ends. -/
def trimmed (sep : α) (text : List α) : List α :=
  (text.dropWhile (· = sep)).rdropWhile (· = sep)

def segments (sep : α) (text : List α) : List (List α) := (trimmed sep text).splitOn sep

/-- No segment has the separator in it. -/
theorem not_mem_of_mem_splitOn {sep : α} {text segment : List α}
    (cut : segment ∈ text.splitOn sep) : sep ∉ segment := by
  induction text generalizing segment with
  | nil =>
      rw [List.splitOn_nil, List.mem_singleton] at cut
      simp [cut]
  | cons c rest ih =>
      rw [List.splitOn_cons_eq_if_modifyHead] at cut
      split at cut
      · rcases List.mem_cons.mp cut with rfl | later
        · simp
        · exact ih later
      · rename_i other
        obtain ⟨first, more, parted⟩ := List.exists_cons_of_ne_nil (List.splitOn_ne_nil sep rest)
        rw [parted, List.modifyHead_cons] at cut
        rcases List.mem_cons.mp cut with rfl | later
        · have free := ih (parted ▸ List.mem_cons_self)
          have differ : sep ≠ c := fun same => other (by simp [same])
          simp [differ, free]
        · exact ih (parted ▸ List.mem_cons_of_mem _ later)

/-- A trimmed text does not begin with the separator. -/
theorem head?_trimmed_ne (sep : α) (text : List α) : (trimmed sep text).head? ≠ some sep := by
  intro first
  obtain ⟨rest, whole⟩ : ∃ rest, trimmed sep text = sep :: rest := by
    cases shape : trimmed sep text with
    | nil => simp [shape] at first
    | cons c rest =>
        rw [shape, List.head?_cons, Option.some.injEq] at first
        exact ⟨rest, by rw [first]⟩
  obtain ⟨last, joined⟩ := List.rdropWhile_prefix (· = sep) (text.dropWhile (· = sep))
  rw [trimmed] at whole
  rw [whole, List.cons_append] at joined
  have head := List.head?_dropWhile_not (fun c => decide (c = sep)) text
  rw [← joined] at head
  simp at head

/-- The first segment is empty only where there is no other. -/
theorem segments_head (sep : α) {text : List α} {more : List (List α)}
    (cut : segments sep text = [] :: more) : more = [] := by
  unfold segments at cut
  cases shape : trimmed sep text with
  | nil =>
      rw [shape, List.splitOn_nil] at cut
      exact (List.cons.inj cut).2.symm
  | cons c rest =>
      have other : c ≠ sep := by
        rintro rfl
        exact head?_trimmed_ne c text (by rw [shape]; rfl)
      rw [shape, List.splitOn_cons_eq_if_modifyHead, if_neg (by simpa using other)] at cut
      cases parted : rest.splitOn sep with
      | nil => exact absurd parted (List.splitOn_ne_nil sep rest)
      | cons first later =>
          rw [parted, List.modifyHead_cons] at cut
          cases (List.cons.inj cut).1

omit [DecidableEq α] in
theorem intercalate_concat (sep : α) (first last : List α) (more : List (List α)) :
    [sep].intercalate (first :: (more ++ [last])) =
      [sep].intercalate (first :: more) ++ sep :: last := by
  induction more generalizing first with
  | nil => simp
  | cons second rest ih =>
      rw [List.cons_append, List.intercalate_cons_cons, ih, List.intercalate_cons_cons]
      simp

/-- Separators at the end of joined segments come from the empty segments there. -/
theorem rdropWhile_intercalate (sep : α) {first : List α} (full : first ≠ [])
    (more : List (List α)) (free : ∀ segment ∈ first :: more, sep ∉ segment) :
    ([sep].intercalate (first :: more)).rdropWhile (· = sep) =
      [sep].intercalate ((first :: more).rdropWhile (· = [])) := by
  induction more using List.reverseRecOn with
  | nil =>
      have kept : [first].rdropWhile (· = []) = [first] := by
        simp [List.rdropWhile_singleton, full]
      rw [kept, List.intercalate_singleton, List.rdropWhile_eq_self_iff]
      intro nonempty
      have other : first.getLast nonempty ≠ sep := by
        rintro rfl
        exact free first List.mem_cons_self (List.getLast_mem nonempty)
      simpa using other
  | append_singleton more last ih =>
      have before := ih fun segment earlier => free segment (by
        rcases List.mem_cons.mp earlier with rfl | within
        · exact List.mem_cons_self
        · exact List.mem_cons_of_mem _ (List.mem_append_left _ within))
      rw [intercalate_concat, ← List.cons_append]
      by_cases none : last = []
      · rw [none, List.rdropWhile_concat_pos _ _ _ (by simp),
          List.rdropWhile_concat_pos _ _ _ (by simp), before]
      · have freeLast : sep ∉ last := free last (by simp)
        rw [List.rdropWhile_concat_neg _ _ _ (by simpa using none), List.cons_append,
          intercalate_concat, List.rdropWhile_eq_self_iff]
        intro nonempty
        have other : last.getLast none ≠ sep := by
          rintro rfl
          exact freeLast (List.getLast_mem none)
        have same : ([sep].intercalate (first :: more) ++ sep :: last).getLast nonempty =
            last.getLast none := by
          rw [List.getLast_append_of_ne_nil _ (List.cons_ne_nil _ _), List.getLast_cons none]
        simpa [same] using other

/-- Segments joined behind a separator are cut into themselves, less the empty ones at the end. -/
theorem segments_join (sep : α) {first : List α} (full : first ≠ []) (more : List (List α))
    (free : ∀ segment ∈ first :: more, sep ∉ segment) :
    segments sep (sep :: [sep].intercalate (first :: more)) =
      (first :: more).rdropWhile (· = []) := by
  obtain ⟨c, rest, rfl⟩ := List.exists_cons_of_ne_nil full
  have other : c ≠ sep := by
    rintro rfl
    exact free _ List.mem_cons_self List.mem_cons_self
  -- the text begins with `c`, so only the separator in front goes
  have front : (sep :: [sep].intercalate ((c :: rest) :: more)).dropWhile (· = sep) =
      [sep].intercalate ((c :: rest) :: more) := by
    rw [List.dropWhile_cons_of_pos (by simp)]
    cases more with
    | nil => simp [other]
    | cons second later => simp [List.intercalate_cons_cons, other]
  have stays : (((c :: rest) :: more).rdropWhile (· = [])) ≠ [] := by
    intro all
    have empty := (List.rdropWhile_eq_nil_iff (p := fun l : List α => decide (l = []))).mp all
      (c :: rest) List.mem_cons_self
    simp at empty
  rw [segments, trimmed, front, rdropWhile_intercalate sep full more free,
    List.splitOn_intercalate sep ?_ stays]
  intro segment within
  exact free segment ((List.rdropWhile_prefix _ _).subset within)

end Segments

end Py20305
