import Mathlib.Algebra.BigOperators.Group.List.Basic
import Mathlib.Data.List.Nodup
import Mathlib.Data.List.Basic

/-!
Insertion-ordered dictionaries with distinct keys.

`Dict κ ν` is the association-list model of a dictionary whose iteration order
is insertion order: assigning to a present key keeps its position, assigning to
a new key appends. Key distinctness is a field, so every dictionary that exists
has one value per key and `get?` decides membership.

Reads are characterized pointwise (`get?_set`, `get?_erase`, `get?_modify`) and
iteration through `keys` and `entries` (`mem_entries_iff`, `mem_keys_iff`).
-/

namespace Py20305

/-- A dictionary: entries in insertion order, no key twice. -/
structure Dict (κ ν : Type) where
  entries : List (κ × ν)
  nodup : (entries.map Prod.fst).Nodup

namespace Dict

section Entries

variable {κ ν : Type} [DecidableEq κ]

/-- First value stored under `k`. -/
def lookupEntry (k : κ) : List (κ × ν) → Option ν
  | [] => none
  | (k', v) :: rest => if k' = k then some v else lookupEntry k rest

/-- Overwrite in place, or append a new key at the end. -/
def setEntry (k : κ) (v : ν) : List (κ × ν) → List (κ × ν)
  | [] => [(k, v)]
  | (k', v') :: rest => if k' = k then (k, v) :: rest else (k', v') :: setEntry k v rest

theorem keys_setEntry (k : κ) (v : ν) (es : List (κ × ν)) :
    (setEntry k v es).map Prod.fst =
      if k ∈ es.map Prod.fst then es.map Prod.fst else es.map Prod.fst ++ [k] := by
  induction es with
  | nil => simp [setEntry]
  | cons e rest ih =>
      obtain ⟨k', v'⟩ := e
      by_cases same : k' = k
      · simp [setEntry, same]
      · have other : k ≠ k' := fun h => same h.symm
        simp only [setEntry, same, if_false, List.map_cons, ih, List.mem_cons, other, false_or]
        split <;> simp

theorem lookupEntry_setEntry (k q : κ) (v : ν) (es : List (κ × ν)) :
    lookupEntry q (setEntry k v es) = if q = k then some v else lookupEntry q es := by
  induction es with
  | nil =>
      by_cases h : k = q
      · simp [setEntry, lookupEntry, h]
      · have h' : q ≠ k := fun e => h e.symm
        simp [setEntry, lookupEntry, h, h']
  | cons e rest ih =>
      obtain ⟨k', v'⟩ := e
      by_cases same : k' = k
      · subst same
        by_cases hq : k' = q
        · simp [setEntry, lookupEntry, hq]
        · have hq' : q ≠ k' := fun h => hq h.symm
          simp [setEntry, lookupEntry, hq, hq']
      · simp only [setEntry, same, if_false, lookupEntry, ih]
        by_cases hq : k' = q
        · subst hq
          simp [same]
        · simp [hq]

theorem lookupEntry_eq_none_iff (k : κ) (es : List (κ × ν)) :
    lookupEntry k es = none ↔ k ∉ es.map Prod.fst := by
  induction es with
  | nil => simp [lookupEntry]
  | cons e rest ih =>
      obtain ⟨k', v'⟩ := e
      by_cases same : k' = k
      · simp [lookupEntry, same]
      · have other : k ≠ k' := fun h => same h.symm
        simp only [lookupEntry, same, if_false, ih, List.map_cons, List.mem_cons, other, false_or]

theorem mem_of_lookupEntry {k : κ} {v : ν} {es : List (κ × ν)}
    (found : lookupEntry k es = some v) : (k, v) ∈ es := by
  induction es with
  | nil => simp [lookupEntry] at found
  | cons e rest ih =>
      obtain ⟨k', v'⟩ := e
      by_cases same : k' = k
      · simp only [lookupEntry, same, if_true, Option.some.injEq] at found
        simp [same, found]
      · simp only [lookupEntry, same, if_false] at found
        exact List.mem_cons_of_mem _ (ih found)

theorem lookupEntry_of_mem {k : κ} {v : ν} {es : List (κ × ν)}
    (distinct : (es.map Prod.fst).Nodup) (member : (k, v) ∈ es) :
    lookupEntry k es = some v := by
  induction es with
  | nil => simp at member
  | cons e rest ih =>
      obtain ⟨k', v'⟩ := e
      simp only [List.map_cons, List.nodup_cons] at distinct
      rcases List.mem_cons.mp member with here | later
      · cases here
        simp [lookupEntry]
      · have other : k' ≠ k := by
          rintro rfl
          exact distinct.1 (List.mem_map.mpr ⟨(k', v), later, rfl⟩)
        simp only [lookupEntry, other, if_false]
        exact ih distinct.2 later

end Entries

variable {κ ν : Type} [DecidableEq κ]

/-- The empty dictionary. -/
def empty : Dict κ ν := ⟨[], List.nodup_nil⟩

/-- The value stored under `k`. -/
def get? (d : Dict κ ν) (k : κ) : Option ν := lookupEntry k d.entries

/-- Keys in insertion order. -/
def keys (d : Dict κ ν) : List κ := d.entries.map Prod.fst

/-- Values in insertion order. -/
def values (d : Dict κ ν) : List ν := d.entries.map Prod.snd

/-- Assign `v` to `k`. -/
def set (d : Dict κ ν) (k : κ) (v : ν) : Dict κ ν where
  entries := setEntry k v d.entries
  nodup := by
    rw [keys_setEntry]
    split
    · exact d.nodup
    · rename_i absent
      exact List.nodup_append.mpr ⟨d.nodup, List.nodup_singleton _, by
        rintro a ha b hb rfl
        exact absent (List.mem_singleton.mp hb ▸ ha)⟩

/-- Delete `k`, if present. -/
def erase (d : Dict κ ν) (k : κ) : Dict κ ν where
  entries := d.entries.filter (fun e => e.1 ≠ k)
  nodup := d.nodup.sublist (List.filter_sublist.map Prod.fst)

/-- Keep the entries satisfying `p`. -/
def filter (d : Dict κ ν) (p : κ → ν → Bool) : Dict κ ν where
  entries := d.entries.filter (fun e => p e.1 e.2)
  nodup := d.nodup.sublist (List.filter_sublist.map Prod.fst)

/-- Read `k`, falling back to `dflt`. -/
def getD (d : Dict κ ν) (k : κ) (dflt : ν) : ν := (d.get? k).getD dflt

/-- Update the value under `k` where there is one. -/
def modify (d : Dict κ ν) (k : κ) (f : ν → ν) : Dict κ ν :=
  match d.get? k with
  | none => d
  | some v => d.set k (f v)

/-- Update every value in place. -/
def mapValues (d : Dict κ ν) (f : ν → ν) : Dict κ ν where
  entries := d.entries.map fun e => (e.1, f e.2)
  nodup := by simpa [Function.comp_def] using d.nodup

/-- Other values in the same places. -/
def mapTo {μ : Type} (d : Dict κ ν) (f : ν → μ) : Dict κ μ where
  entries := d.entries.map fun e => (e.1, f e.2)
  nodup := by simpa [Function.comp_def] using d.nodup

/-- The same entries in the order `le`. -/
def sortedBy (d : Dict κ ν) (le : κ × ν → κ × ν → Bool) : Dict κ ν where
  entries := d.entries.mergeSort le
  nodup := ((List.mergeSort_perm d.entries le).map Prod.fst).nodup_iff.mpr d.nodup

omit [DecidableEq κ] in
theorem eq_of_entries {d e : Dict κ ν} (same : d.entries = e.entries) : d = e := by
  cases d
  cases e
  cases same
  rfl

@[simp] theorem get?_empty (k : κ) : (empty : Dict κ ν).get? k = none := rfl

theorem get?_set (d : Dict κ ν) (k q : κ) (v : ν) :
    (d.set k v).get? q = if q = k then some v else d.get? q :=
  lookupEntry_setEntry k q v d.entries

@[simp] theorem get?_set_self (d : Dict κ ν) (k : κ) (v : ν) : (d.set k v).get? k = some v := by
  simp [get?_set]

theorem get?_set_ne (d : Dict κ ν) {k q : κ} (v : ν) (other : q ≠ k) :
    (d.set k v).get? q = d.get? q := by
  simp [get?_set, other]

theorem mem_entries_iff (d : Dict κ ν) (k : κ) (v : ν) :
    (k, v) ∈ d.entries ↔ d.get? k = some v :=
  ⟨lookupEntry_of_mem d.nodup, mem_of_lookupEntry⟩

theorem get?_eq_none_iff (d : Dict κ ν) (k : κ) : d.get? k = none ↔ k ∉ d.keys :=
  lookupEntry_eq_none_iff k d.entries

theorem mem_keys_iff (d : Dict κ ν) (k : κ) : k ∈ d.keys ↔ ∃ v, d.get? k = some v := by
  rw [← not_iff_not, ← get?_eq_none_iff, not_exists]
  cases d.get? k <;> simp

theorem get?_sortedBy (d : Dict κ ν) (le : κ × ν → κ × ν → Bool) (q : κ) :
    (d.sortedBy le).get? q = d.get? q := by
  have perm := List.mergeSort_perm d.entries le
  ext v
  rw [← mem_entries_iff, ← mem_entries_iff]
  exact perm.mem_iff

theorem get?_filter (d : Dict κ ν) (p : κ → ν → Bool) (q : κ) :
    (d.filter p).get? q = (d.get? q).filter (p q) := by
  cases found : (d.filter p).get? q with
  | some v =>
      have member := (mem_entries_iff _ _ _).mpr found
      obtain ⟨old, keep⟩ := List.mem_filter.mp member
      rw [(mem_entries_iff _ _ _).mp old, Option.filter_some, if_pos keep]
  | none =>
      cases old : d.get? q with
      | none => rfl
      | some v =>
          rw [Option.filter_some]
          split
          · rename_i keep
            have member : (q, v) ∈ (d.filter p).entries :=
              List.mem_filter.mpr ⟨(mem_entries_iff _ _ _).mpr old, keep⟩
            rw [(mem_entries_iff _ _ _).mp member] at found
            cases found
          · rfl

theorem get?_erase (d : Dict κ ν) (k q : κ) :
    (d.erase k).get? q = if q = k then none else d.get? q := by
  have view : d.erase k = d.filter (fun k' _ => decide (k' ≠ k)) := rfl
  rw [view, get?_filter]
  by_cases same : q = k
  · cases found : d.get? q <;> simp [same]
  · cases found : d.get? q <;> simp [same]

@[simp] theorem get?_erase_self (d : Dict κ ν) (k : κ) : (d.erase k).get? k = none := by
  simp [get?_erase]

theorem get?_modify (d : Dict κ ν) (k q : κ) (f : ν → ν) :
    (d.modify k f).get? q = if q = k then (d.get? q).map f else d.get? q := by
  unfold modify
  cases found : d.get? k with
  | none =>
      by_cases same : q = k
      · simp [same, found]
      · simp [same]
  | some v =>
      by_cases same : q = k
      · simp [same, found]
      · simp [get?_set, same]

theorem lookupEntry_map (f : ν → ν) (q : κ) (es : List (κ × ν)) :
    lookupEntry q (es.map fun e => (e.1, f e.2)) = (lookupEntry q es).map f := by
  induction es with
  | nil => rfl
  | cons e rest ih =>
      obtain ⟨k', v'⟩ := e
      simp only [List.map_cons, lookupEntry]
      split
      · rfl
      · exact ih

theorem get?_mapValues (d : Dict κ ν) (f : ν → ν) (q : κ) :
    (d.mapValues f).get? q = (d.get? q).map f :=
  lookupEntry_map f q d.entries

theorem keys_set (d : Dict κ ν) (k : κ) (v : ν) :
    (d.set k v).keys = if k ∈ d.keys then d.keys else d.keys ++ [k] :=
  keys_setEntry k v d.entries

theorem mem_keys_set (d : Dict κ ν) (k q : κ) (v : ν) :
    q ∈ (d.set k v).keys ↔ q = k ∨ q ∈ d.keys := by
  rw [keys_set]
  split
  · constructor
    · exact Or.inr
    · rintro (rfl | h) <;> assumption
  · rw [List.mem_append, List.mem_singleton, or_comm]

theorem mem_keys_erase (d : Dict κ ν) (k q : κ) : q ∈ (d.erase k).keys ↔ q ≠ k ∧ q ∈ d.keys := by
  simp only [mem_keys_iff, get?_erase]
  by_cases same : q = k <;> simp [same]

@[simp] theorem keys_modify (d : Dict κ ν) (k : κ) (f : ν → ν) : (d.modify k f).keys = d.keys := by
  unfold modify
  cases found : d.get? k with
  | none => rfl
  | some v => rw [keys_set, if_pos ((mem_keys_iff _ _).mpr ⟨v, found⟩)]

/-- Overwriting a value with itself changes nothing, not even the order. -/
theorem set_get?_self (d : Dict κ ν) {k : κ} {v : ν} (found : d.get? k = some v) :
    d.set k v = d := by
  have entries_eq : ∀ es : List (κ × ν), lookupEntry k es = some v → setEntry k v es = es := by
    intro es
    induction es with
    | nil => intro h; simp [lookupEntry] at h
    | cons e rest ih =>
        obtain ⟨k', v'⟩ := e
        intro h
        by_cases same : k' = k
        · simp only [lookupEntry, same, if_true, Option.some.injEq] at h
          simp [setEntry, same, h]
        · simp only [lookupEntry, same, if_false] at h
          simp [setEntry, same, ih h]
  unfold set
  congr 1
  exact entries_eq d.entries found

theorem setEntry_new (k : κ) (v : ν) (es : List (κ × ν)) (absent : k ∉ es.map Prod.fst) :
    setEntry k v es = es ++ [(k, v)] := by
  induction es with
  | nil => rfl
  | cons e rest ih =>
      obtain ⟨k', v'⟩ := e
      simp only [List.map_cons, List.mem_cons, not_or] at absent
      have other : k' ≠ k := fun same => absent.1 same.symm
      rw [setEntry, if_neg other, ih absent.2, List.cons_append]

/-- Assigning new keys one after the other appends them. -/
theorem entries_foldl_set_new (es : List (κ × ν)) (d : Dict κ ν)
    (distinct : (d.keys ++ es.map Prod.fst).Nodup) :
    (es.foldl (fun d e => d.set e.1 e.2) d).entries = d.entries ++ es := by
  induction es generalizing d with
  | nil => simp
  | cons e rest ih =>
      have absent : e.1 ∉ d.keys := fun old =>
        (List.nodup_append.mp distinct).2.2 e.1 old e.1 List.mem_cons_self rfl
      have entries : (d.set e.1 e.2).entries = d.entries ++ [e] := setEntry_new e.1 e.2 d.entries absent
      rw [List.foldl_cons, ih, entries, List.append_assoc, List.singleton_append]
      rw [keys_set, if_neg absent, List.append_assoc]
      exact distinct

/-- Assigning the entries of a dictionary one after the other gives it back. -/
theorem foldl_set_entries (d : Dict κ ν) :
    d.entries.foldl (fun d e => d.set e.1 e.2) empty = d := by
  exact eq_of_entries (entries_foldl_set_new d.entries empty (by simpa [keys, empty] using d.nodup))

theorem sum_setEntry {M : Type} [AddCommMonoid M] (f : κ × ν → M) (k : κ) (v : ν)
    (es : List (κ × ν)) :
    ((setEntry k v es).map f).sum + ((lookupEntry k es).elim 0 fun old => f (k, old)) =
      (es.map f).sum + f (k, v) := by
  induction es with
  | nil => simp [setEntry, lookupEntry]
  | cons e rest ih =>
      obtain ⟨k', v'⟩ := e
      by_cases same : k' = k
      · subst same
        simp only [setEntry, lookupEntry, if_true, List.map_cons, List.sum_cons,
          Option.elim_some]
        rw [add_right_comm, add_comm (f (k', v)), add_right_comm]
      · simp only [setEntry, lookupEntry, same, if_false, List.map_cons, List.sum_cons]
        rw [add_assoc, ih, add_assoc]

/-- What a sum over the entries becomes by an assignment. -/
theorem sum_set {M : Type} [AddCommMonoid M] (d : Dict κ ν) (f : κ × ν → M) (k : κ) (v : ν) :
    ((d.set k v).entries.map f).sum + ((d.get? k).elim 0 fun old => f (k, old)) =
      (d.entries.map f).sum + f (k, v) :=
  sum_setEntry f k v d.entries

theorem mem_values_iff (d : Dict κ ν) (v : ν) : v ∈ d.values ↔ ∃ k, d.get? k = some v := by
  simp only [values, List.mem_map, Prod.exists, mem_entries_iff]
  constructor
  · rintro ⟨k, v', found, rfl⟩
    exact ⟨k, found⟩
  · rintro ⟨k, found⟩
    exact ⟨k, v, found, rfl⟩

end Dict

end Py20305
