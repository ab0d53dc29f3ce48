import Mathlib.Data.List.Dedup
import Py20305.Lib.Dict

/-!
What IEEE 2030.5-2023 added to each type of the 2018 schema (`schema_editions.py`).

An item is new in a type where a type of its chain of bases declares it in 2023 and that type does
not have it in 2018. `borrowed_items` finds the new ones in a payload, and does not look into an
element that is itself new.

A payload is its elements with the names of their attributes. Left out: how a schema is read from
its file, other namespaces, comments, and the texts of a payload.
-/

namespace Py20305.Profile

/-- An element or an attribute of a type. The text of an attribute's begins with `@`. -/
inductive Key where
  | element (name : String)
  | attribute (name : String)
  deriving DecidableEq, Repr

/-- `Item`. -/
structure Item where
  parent : String
  name : Key
  deriving DecidableEq, Repr

/-- `_Type`. -/
structure TypeInfo where
  base : Option String := none
  elements : Dict String String := .empty
  attributes : List String := []

def TypeInfo.declares (info : TypeInfo) : Key → Bool
  | .element name => (info.elements.get? name).isSome
  | .attribute name => name ∈ info.attributes

/-- `_Schema`. -/
structure Schema where
  types : Dict String TypeInfo
  roots : Dict String String

namespace Schema

variable (s : Schema)

/-- The loop of `declarer` and of `effective`: a type and its bases, for at most so many turns. -/
def chainFrom : ℕ → List String → Option String → List (String × TypeInfo)
  | 0, _, _ => []
  | _ + 1, _, none => []
  | turns + 1, seen, some current =>
      if current = "" ∨ current ∈ seen then []
      else match s.types.get? current with
        | none => []
        | some info => (current, info) :: chainFrom turns (current :: seen) info.base

/-- A type and its bases. The loop sees each type once. -/
def chain (typeId : String) : List (String × TypeInfo) :=
  s.chainFrom s.types.keys.length [] (some typeId)

/-- `declarer`. -/
def declarer (typeId : String) (key : Key) : Option String :=
  ((s.chain typeId).find? fun t => t.2.declares key).map Prod.fst

/-- `setdefault` of each element of a type. -/
def addElements (elements : Dict String String) (info : TypeInfo) : Dict String String :=
  info.elements.entries.foldl (fun elements entry =>
    if (elements.get? entry.1).isSome then elements else elements.set entry.1 entry.2) elements

/-- `effective`. -/
def effective (typeId : String) : Dict String String × List String :=
  (s.chain typeId).foldl (fun found t =>
    (addElements found.1 t.2, found.2 ++ t.2.attributes)) (.empty, [])

/-- `root_attributes`. -/
def rootAttributes : List String :=
  s.roots.entries.flatMap fun (name, typeId) =>
    if typeId = s!"<{name}>" then ((s.types.get? typeId).map (·.attributes)).getD [] else []

end Schema

/-- The two schemas. -/
structure Editions where
  new : Schema
  old : Schema

/-- A payload below its root: elements, each with its attributes and children. -/
inductive Elements where
  | nil
  | cons (name : String) (attributes : List String) (children rest : Elements)
  deriving DecidableEq, Repr

/-- A payload. -/
structure Document where
  name : String
  attributes : List String
  children : Elements
  deriving DecidableEq, Repr

namespace Editions

variable (e : Editions)

/-- `new_item`. -/
def newItem (typeId : String) (key : Key) : Option Item :=
  match e.new.declarer typeId key with
  | none => none
  | some declarer =>
      let present := match key with
        | .element name => ((e.old.effective declarer).1.get? name).isSome
        | .attribute name => name ∈ (e.old.effective declarer).2
      if present then none else some ⟨declarer, key⟩

/-- `_walk`, of the attributes. -/
def walkAttributes (typeId : String) (attributes : List String) : List Item :=
  attributes.filterMap fun name =>
    if name ∈ (e.new.effective typeId).2 then e.newItem typeId (.attribute name) else none

/-- `_walk`, of the children. -/
def walkChildren (typeId : String) : Elements → List Item
  | .nil => []
  | .cons name attributes children rest =>
      (match (e.new.effective typeId).1.get? name with
        | none => []
        | some childType =>
            match e.newItem typeId (.element name) with
            | some item => [item]
            | none =>
                if childType = "" then []
                else e.walkAttributes childType attributes ++ walkChildren childType children) ++
        walkChildren typeId rest

/-- `borrowed_items`. -/
def borrowedItems (xml : Document) : List Item :=
  match e.new.roots.get? xml.name with
  | none => []
  | some typeId => e.walkAttributes typeId xml.attributes ++ e.walkChildren typeId xml.children

end Editions

/-! ### Chains -/

section Chains

variable {s : Schema} {typeId : String} {key : Key}

/-- Each turn but the last sees a type for the first time, so more turns see no more. -/
theorem chainFrom_of_enough {turns more : ℕ} {seen : List String} {current : Option String}
    (distinct : seen.Nodup) (known : seen ⊆ s.types.keys)
    (enough : s.types.keys.length ≤ seen.length + turns) (later : turns ≤ more) :
    s.chainFrom more seen current = s.chainFrom turns seen current := by
  induction turns generalizing more seen current with
  | zero =>
      have all : s.types.keys ⊆ seen :=
        ((List.subperm_of_subset distinct known).perm_of_length_le enough).symm.subset
      cases more with
      | zero => rfl
      | succ more =>
          cases current with
          | none => rfl
          | some id =>
              rw [Schema.chainFrom, Schema.chainFrom]
              split
              · rfl
              · rename_i fresh
                have unknown : s.types.get? id = none :=
                  (Dict.get?_eq_none_iff _ _).mpr fun listed => fresh (.inr (all listed))
                rw [unknown]
  | succ turns ih =>
      obtain ⟨more, rfl⟩ := Nat.exists_eq_succ_of_ne_zero (by omega : more ≠ 0)
      cases current with
      | none => rfl
      | some id =>
          rw [Nat.succ_eq_add_one, Schema.chainFrom, Schema.chainFrom]
          split
          · rfl
          · rename_i fresh
            cases found : s.types.get? id with
            | none => rfl
            | some info =>
                have listed : id ∈ s.types.keys := (Dict.mem_keys_iff _ _).mpr ⟨info, found⟩
                refine congrArg _ (ih ?_ ?_ ?_ (by omega))
                · exact List.nodup_cons.mpr ⟨fun old => fresh (.inr old), distinct⟩
                · exact List.cons_subset.mpr ⟨listed, known⟩
                · rw [List.length_cons]
                  omega

/-- The loop ends by itself. -/
theorem chain_eq_chainFrom {turns : ℕ} (enough : s.types.keys.length ≤ turns) :
    s.chainFrom turns [] (some typeId) = s.chain typeId :=
  chainFrom_of_enough List.nodup_nil (List.nil_subset _) (by simp) enough

/-! ### What a type has -/

theorem isSome_get?_addElements (elements : Dict String String) (info : TypeInfo) (name : String) :
    ((Schema.addElements elements info).get? name).isSome =
      ((elements.get? name).isSome || (info.elements.get? name).isSome) := by
  have each (entries : List (String × String)) (elements : Dict String String) :
      ((entries.foldl (fun elements entry => if (elements.get? entry.1).isSome then elements
        else elements.set entry.1 entry.2) elements).get? name).isSome =
      ((elements.get? name).isSome || (Dict.lookupEntry name entries).isSome) := by
    induction entries generalizing elements with
    | nil => rw [List.foldl_nil, Dict.lookupEntry, Option.isSome_none, Bool.or_false]
    | cons entry rest ih =>
        obtain ⟨key, value⟩ := entry
        rw [List.foldl_cons, ih, Dict.lookupEntry]
        by_cases same : key = name
        · subst same
          split <;> simp_all
        · rw [if_neg same]
          split
          · rfl
          · rw [Dict.get?_set_ne _ _ (Ne.symm same)]
  exact each info.elements.entries elements

/-- `effective` has what a type of the chain declares. -/
theorem effective_of_declares {t : String × TypeInfo} (listed : t ∈ s.chain typeId) :
    (∀ name, t.2.declares (.element name) = true →
      ((s.effective typeId).1.get? name).isSome) ∧
    ∀ name, t.2.declares (.attribute name) = true → name ∈ (s.effective typeId).2 := by
  have each (types : List (String × TypeInfo)) (found : Dict String String × List String) :
      let all := types.foldl (fun found t =>
        (Schema.addElements found.1 t.2, found.2 ++ t.2.attributes)) found
      (∀ name, (found.1.get? name).isSome ∨ (∃ t ∈ types, t.2.declares (.element name) = true) →
        (all.1.get? name).isSome) ∧
      ∀ name, name ∈ found.2 ∨ (∃ t ∈ types, t.2.declares (.attribute name) = true) →
        name ∈ all.2 := by
    induction types generalizing found with
    | nil => simp
    | cons t rest ih =>
        obtain ⟨elements, attributes⟩ :=
          ih (Schema.addElements found.1 t.2, found.2 ++ t.2.attributes)
        refine ⟨fun name has => elements name ?_, fun name has => attributes name ?_⟩
        · rw [isSome_get?_addElements]
          simp only [List.mem_cons, exists_eq_or_imp, TypeInfo.declares, Bool.or_eq_true] at has ⊢
          rwa [or_assoc]
        · simp only [List.mem_cons, exists_eq_or_imp, TypeInfo.declares, List.mem_append,
            decide_eq_true_eq] at has ⊢
          rwa [or_assoc]
  obtain ⟨elements, attributes⟩ := each (s.chain typeId) (.empty, [])
  exact ⟨fun name declared => elements name (.inr ⟨t, listed, declared⟩),
    fun name declared => attributes name (.inr ⟨t, listed, declared⟩)⟩

end Chains

section NewItems

variable {e : Editions} {typeId name : String} {key : Key} {item : Item}

theorem declares_of_newItem (new : e.newItem typeId key = some item) :
    ∃ t ∈ e.new.chain typeId, t.2.declares key = true := by
  unfold Editions.newItem at new
  cases declared : e.new.declarer typeId key with
  | none =>
      rw [declared] at new
      cases new
  | some declarer =>
      obtain ⟨t, found, -⟩ := Option.map_eq_some_iff.mp declared
      refine ⟨t, List.mem_of_find?_eq_some found, ?_⟩
      simpa using List.find?_some found

/-- What is new in a type is in it. -/
theorem isSome_of_newItem (new : e.newItem typeId (.element name) = some item) :
    ((e.new.effective typeId).1.get? name).isSome := by
  obtain ⟨t, listed, declares⟩ := declares_of_newItem new
  exact (effective_of_declares listed).1 name declares

theorem mem_of_newItem (new : e.newItem typeId (.attribute name) = some item) :
    name ∈ (e.new.effective typeId).2 := by
  obtain ⟨t, listed, declares⟩ := declares_of_newItem new
  exact (effective_of_declares listed).2 name declares

/-- An attribute is reported where it is new. -/
theorem walkAttributes_eq (attributes : List String) :
    e.walkAttributes typeId attributes =
      attributes.filterMap fun name => e.newItem typeId (.attribute name) := by
  refine List.filterMap_congr fun name _ => ?_
  split
  · rfl
  · rename_i unknown
    exact (Option.eq_none_iff_forall_ne_some.mpr fun item new =>
      unknown (mem_of_newItem new)).symm

end NewItems

end Py20305.Profile
