import Mathlib.Data.List.Forall2
import Mathlib.Data.List.Nodup
import Mathlib.Data.Finset.Card

/-!
The first of each key.

`firsts` goes through a list and leaves out what has a key that was seen before. What it keeps for a
key is what `find?` finds (`mem_firsts_iff`).

Who looks at the first candidate only, and asks if it has a property, misses none that has it if the
first has it, and does not depend on their order if all have it or none (`firstHas_perm_iff`).
-/

namespace Py20305

section Firsts

variable {α κ : Type} [DecidableEq κ] {key : α → κ} {seen : List κ} {items : List α} {a : α}

/-- The items of a list whose keys are new. -/
def firsts (key : α → κ) : List κ → List α → List α
  | _, [] => []
  | seen, a :: rest =>
      if key a ∈ seen then firsts key seen rest else a :: firsts key (key a :: seen) rest

theorem mem_firsts_iff : a ∈ firsts key seen items ↔
    key a ∉ seen ∧ items.find? (fun b => key b = key a) = some a := by
  induction items generalizing seen with
  | nil => simp [firsts]
  | cons b rest ih =>
      by_cases same : key b = key a
      · have found : (b :: rest).find? (fun b => key b = key a) = some b :=
          List.find?_cons_of_pos (by simpa using same)
        rw [found, firsts]
        split
        · rename_i old
          rw [ih]
          exact ⟨fun both => absurd (same ▸ old) both.1, fun both => absurd (same ▸ old) both.1⟩
        · rename_i new
          rw [List.mem_cons, ih, same]
          constructor
          · rintro (rfl | ⟨later, -⟩)
            · exact ⟨same ▸ new, rfl⟩
            · exact absurd List.mem_cons_self later
          · rintro ⟨-, this⟩
            exact .inl (Option.some.inj this).symm
      · have found : (b :: rest).find? (fun b => key b = key a) =
            rest.find? fun b => key b = key a :=
          List.find?_cons_of_neg (by simpa using same)
        have other : a ≠ b := fun equal => same (congrArg key equal.symm)
        rw [found, firsts]
        split
        · exact ih
        · rw [List.mem_cons, ih, List.mem_cons, not_or]
          constructor
          · rintro (equal | ⟨⟨-, new⟩, this⟩)
            · exact absurd equal other
            · exact ⟨new, this⟩
          · rintro ⟨new, this⟩
            exact .inr ⟨⟨Ne.symm same, new⟩, this⟩

theorem nodup_firsts : ((firsts key seen items).map key).Nodup := by
  induction items generalizing seen with
  | nil => exact .nil
  | cons b rest ih =>
      rw [firsts]
      split
      · exact ih
      · rw [List.map_cons, List.nodup_cons]
        refine ⟨fun listed => ?_, ih⟩
        obtain ⟨a, kept, same⟩ := List.mem_map.mp listed
        exact (mem_firsts_iff.mp kept).1 (same ▸ List.mem_cons_self)

/-- They are no more than the keys there are. -/
theorem length_firsts_le (key : α → κ) (items : List α) :
    (firsts key [] items).length ≤ (items.map key).toFinset.card := by
  rw [← List.length_map key, ← List.toFinset_card_of_nodup nodup_firsts]
  refine Finset.card_le_card fun k listed => ?_
  obtain ⟨a, kept, rfl⟩ := List.mem_map.mp (List.mem_toFinset.mp listed)
  exact List.mem_toFinset.mpr
    (List.mem_map_of_mem (List.mem_of_find?_eq_some (mem_firsts_iff.mp kept).2))

/-- Lists whose items agree on the keys, one by one, have the first of each key in the same
places. -/
theorem forall₂_firsts {β : Type} {R : α → β → Prop} {key' : β → κ} {others : List β}
    (keys : ∀ a b, R a b → key a = key' b) (each : List.Forall₂ R items others) (seen : List κ) :
    List.Forall₂ R (firsts key seen items) (firsts key' seen others) := by
  induction each generalizing seen with
  | nil => exact .nil
  | cons related _ ih =>
      rw [firsts, firsts, keys _ _ related]
      split
      · exact ih seen
      · exact .cons related (ih _)

end Firsts

/-- The first result is that of the first item with one. -/
theorem findSome?_eq_bind {α β : Type} (f : α → Option β) (items : List α) :
    items.findSome? f = (items.find? fun a => (f a).isSome).bind f := by
  induction items with
  | nil => rfl
  | cons a rest ih =>
      rw [List.findSome?_cons, List.find?_cons]
      cases found : f a with
      | none => exact ih
      | some b => simp [found]

section FirstHas

variable {α : Type} {p q : α → Bool} {items : List α}

/-- The first candidate has the property. -/
def FirstHas (p q : α → Bool) (items : List α) : Prop :=
  ∃ a, items.find? p = some a ∧ q a = true

theorem FirstHas.exists (first : FirstHas p q items) : ∃ a ∈ items, q a = true := by
  obtain ⟨a, found, has⟩ := first
  exact ⟨a, List.mem_of_find?_eq_some found, has⟩

theorem firstHas_iff (candidates : ∀ a, q a = true → p a = true) :
    (FirstHas p q items ↔ ∃ a ∈ items, q a = true) ↔
      ∀ a, items.find? p = some a → (∃ b ∈ items, q b = true) → q a = true := by
  constructor
  · intro whole a found exists_
    obtain ⟨b, found', has⟩ := whole.mpr exists_
    rw [Option.some.inj (found.symm.trans found')]
    exact has
  · refine fun first => ⟨FirstHas.exists, fun exists_ => ?_⟩
    obtain ⟨b, listed, has⟩ := exists_
    obtain ⟨a, found⟩ := Option.isSome_iff_exists.mp
      (List.find?_isSome.mpr ⟨b, listed, candidates b has⟩)
    exact ⟨a, found, first a found ⟨b, listed, has⟩⟩

/-- Every candidate has the property, or none. -/
def Uniform (p q : α → Bool) (items : List α) : Prop :=
  ∀ a ∈ items, ∀ b ∈ items, q a = true → p b = true → q b = true

theorem Uniform.firstHas_iff (uniform : Uniform p q items)
    (candidates : ∀ a, q a = true → p a = true) :
    FirstHas p q items ↔ ∃ a ∈ items, q a = true := by
  refine (Py20305.firstHas_iff candidates).mpr fun a found exists_ => ?_
  obtain ⟨b, listed, has⟩ := exists_
  exact uniform b listed a (List.mem_of_find?_eq_some found) has (List.find?_some found)

/-- Of a candidate in any place there is an order that has it first. -/
theorem firstHas_perm_iff (candidates : ∀ a, q a = true → p a = true) :
    (∀ other, other.Perm items → (FirstHas p q other ↔ ∃ a ∈ items, q a = true)) ↔
      Uniform p q items := by
  constructor
  · intro each a listed b listed' has candidate
    obtain ⟨before, after, rfl⟩ := List.append_of_mem listed'
    obtain ⟨c, found, has'⟩ := (each (b :: (before ++ after)) List.perm_middle.symm).mpr
      ⟨a, listed, has⟩
    rw [List.find?_cons_of_pos candidate] at found
    rwa [Option.some.inj found]
  · intro uniform other same
    have mem (a : α) : a ∈ other ↔ a ∈ items := same.mem_iff
    have again : Uniform p q other := fun a listed b listed' =>
      uniform a ((mem a).mp listed) b ((mem b).mp listed')
    rw [again.firstHas_iff candidates]
    simp only [mem]

end FirstHas

end Py20305
