import Py20305.Lib.Documents

/-!
Moving elements to the end of their parents.

A document can be edited in place, the elements with a property moved one after the other in every
row of siblings (`gatherAll`). That edits every row once (`gatherAll_eq`), keeps what is said of each
node (`facts_everywhere`), is done once and for all (`everywhere_of_inEach`), and leaves the layers
apart that taking elements out makes (`without_everywhere`).
-/

namespace Py20305

namespace Nodes

section Gather

variable {τ : Type}

def append : Nodes τ → Nodes τ → Nodes τ
  | nil, u => u
  | element i tag text children tail rest, u =>
      element i tag text children tail (rest.append u)
  | other i tail rest, u => other i tail (rest.append u)

/-- One node of a row of siblings, with its tail. -/
def pick (i : Nat) : Nodes τ → Nodes τ
  | nil => nil
  | element j tag text children tail rest =>
      if j = i then element j tag text children tail nil else rest.pick i
  | other _ _ rest => rest.pick i

/-- The others. -/
def remove (i : Nat) : Nodes τ → Nodes τ
  | nil => nil
  | element j tag text children tail rest =>
      if j = i then rest else element j tag text children tail (rest.remove i)
  | other j tail rest => other j tail (rest.remove i)

/-- Remove a node and append it again. -/
def moveLast (t : Nodes τ) (i : Nat) : Nodes τ := (t.remove i).append (t.pick i)

/-- The siblings with a property. -/
def those (p : τ → Bool) : Nodes τ → Nodes τ
  | nil => nil
  | element i tag text children tail rest =>
      if p tag then element i tag text children tail (rest.those p) else rest.those p
  | other _ _ rest => rest.those p

/-- The siblings without it. -/
def but (p : τ → Bool) : Nodes τ → Nodes τ
  | nil => nil
  | element i tag text children tail rest =>
      if p tag then rest.but p else element i tag text children tail (rest.but p)
  | other i tail rest => other i tail (rest.but p)

def siblings : Nodes τ → List Nat
  | nil => []
  | element i _ _ _ _ rest => i :: rest.siblings
  | other i _ rest => i :: rest.siblings

/-- The siblings with a property, by name. -/
def named (p : τ → Bool) : Nodes τ → List Nat
  | nil => []
  | element i tag _ _ _ rest => if p tag then i :: rest.named p else rest.named p
  | other _ _ rest => rest.named p

/-- Move the siblings with a property to the end, one after the other. -/
def gatherEach (p : τ → Bool) (t : Nodes τ) : Nodes τ := (t.named p).foldl moveLast t

/-- They are at the end. -/
def gather (p : τ → Bool) (t : Nodes τ) : Nodes τ := (t.but p).append (t.those p)

/-- Edit the children of one element. -/
def modify (i : Nat) (f : Nodes τ → Nodes τ) : Nodes τ → Nodes τ
  | nil => nil
  | element j tag text children tail rest =>
      element j tag text (if j = i then f children else children.modify i f) tail (rest.modify i f)
  | other j tail rest => other j tail (rest.modify i f)

/-- Edit the children of every element, from the inside out. -/
def everywhere (f : Nodes τ → Nodes τ) : Nodes τ → Nodes τ
  | nil => nil
  | element i tag text children tail rest =>
      element i tag text (f (children.everywhere f)) tail (rest.everywhere f)
  | other i tail rest => other i tail (rest.everywhere f)

/-- Edit the children of every element, one element after the other in document order. -/
def gatherAll (p : τ → Bool) (is : List Nat) (t : Nodes τ) : Nodes τ :=
  is.foldl (fun t i => t.modify i (gatherEach p)) t

variable {p : τ → Bool} {i j : Nat} {t u v rest children : Nodes τ} {text tail : String} {tag : τ}

@[simp] theorem append_nil : t.append nil = t := by
  induction t with
  | nil => rfl
  | element i tag text children tail rest _ ihr => rw [append, ihr]
  | other i tail rest ihr => rw [append, ihr]

theorem append_assoc : (t.append u).append v = t.append (u.append v) := by
  induction t with
  | nil => rfl
  | element i tag text children tail rest _ ihr => simp only [append, ihr]
  | other i tail rest ihr => simp only [append, ihr]

theorem named_subset : t.named p ⊆ t.siblings := by
  induction t with
  | nil => exact List.nil_subset _
  | element i tag text children tail rest _ ihr =>
      unfold named siblings
      split
      · exact List.cons_subset_cons _ ihr
      · exact List.subset_cons_of_subset _ ihr
  | other i tail rest ihr => exact List.subset_cons_of_subset _ ihr

/-- A node that stays stays first. -/
theorem foldl_moveLast_element {is : List Nat} (apart : j ∉ is) :
    is.foldl moveLast (element j tag text children tail t) =
      element j tag text children tail (is.foldl moveLast t) := by
  induction is generalizing t with
  | nil => rfl
  | cons i is ih =>
      simp only [List.mem_cons, not_or] at apart
      have moved : (element j tag text children tail t).moveLast i =
          element j tag text children tail (t.moveLast i) := by
        rw [moveLast, remove, pick, if_neg apart.1, if_neg apart.1, append, moveLast]
      rw [List.foldl_cons, List.foldl_cons, moved, ih apart.2]

theorem foldl_moveLast_other (is : List Nat) :
    is.foldl moveLast (other j tail t) = other j tail (is.foldl moveLast t) := by
  induction is generalizing t with
  | nil => rfl
  | cons i is ih =>
      rw [List.foldl_cons, List.foldl_cons]
      exact ih

theorem foldl_moveLast (distinct : t.siblings.Nodup) :
    (t.named p).foldl moveLast (t.append u) = (t.but p).append (u.append (t.those p)) := by
  induction t generalizing u with
  | nil => simp [named, but, those, append]
  | element i tag text children tail rest _ ihr =>
      obtain ⟨apart, later⟩ := List.nodup_cons.mp distinct
      unfold named but those
      split
      · have moved : ((element i tag text children tail rest).append u).moveLast i =
            rest.append (u.append (element i tag text children tail nil)) := by
          rw [append, moveLast, remove, pick, if_pos rfl, if_pos rfl, append_assoc]
        rw [List.foldl_cons, moved, ihr later, append_assoc]
        rfl
      · rw [append, foldl_moveLast_element fun there => apart (named_subset there), ihr later,
          append]
  | other i tail rest ihr =>
      unfold named but those
      rw [append, foldl_moveLast_other, ihr (List.nodup_cons.mp distinct).2, append]

/-- Moved one after the other, they are at the end and in order. -/
theorem gatherEach_eq (distinct : t.siblings.Nodup) : t.gatherEach p = t.gather p := by
  have moved := foldl_moveLast (p := p) (u := nil) distinct
  rwa [append_nil] at moved

/-! What an edit of rows keeps -/

/-- What is said of a node but for its place among its siblings. -/
structure Fact (τ : Type) where
  parent : Nat
  id : Nat
  tag : Option τ
  text : String
  tail : String

def facts (parent : Nat) : Nodes τ → List (Fact τ)
  | nil => []
  | element i tag text children tail rest =>
      ⟨parent, i, some tag, text, tail⟩ :: (children.facts i ++ rest.facts parent)
  | other i tail rest => ⟨parent, i, none, "", tail⟩ :: rest.facts parent

theorem ids_eq (k : Nat) : t.ids = (t.facts k).map Fact.id := by
  induction t generalizing k with
  | nil => rfl
  | element i tag text children tail rest ihc ihr =>
      rw [ids, facts, List.map_cons, List.map_append, ← ihc, ← ihr]
  | other i tail rest ihr => rw [ids, facts, List.map_cons, ← ihr]

theorem facts_append (k : Nat) : (t.append u).facts k = t.facts k ++ u.facts k := by
  induction t with
  | nil => rfl
  | element i tag text children tail rest _ ihr =>
      rw [append, facts, facts, ihr, List.cons_append, List.append_assoc]
  | other i tail rest ihr => rw [append, facts, facts, ihr, List.cons_append]

theorem facts_but_those (k : Nat) :
    ((t.but p).facts k ++ (t.those p).facts k).Perm (t.facts k) := by
  induction t with
  | nil => exact .refl _
  | element i tag text children tail rest _ ihr =>
      unfold but those
      split
      · refine List.perm_middle.trans (.cons _ ?_)
        exact (List.perm_append_comm_assoc _ _ _).trans (.append_left _ ihr)
      · rw [facts, facts, List.cons_append, List.append_assoc]
        exact .cons _ (.append_left _ ihr)
  | other i tail rest ihr => exact .cons _ ihr

theorem facts_gather (k : Nat) : ((t.gather p).facts k).Perm (t.facts k) := by
  rw [gather, facts_append]
  exact facts_but_those k

theorem facts_everywhere {f : Nodes τ → Nodes τ}
    (keeps : ∀ k t, ((f t).facts k).Perm (t.facts k)) (k : Nat) :
    ((t.everywhere f).facts k).Perm (t.facts k) := by
  induction t generalizing k with
  | nil => exact .refl _
  | element i tag text children tail rest ihc ihr =>
      exact .cons _ (((keeps i _).trans (ihc i)).append (ihr k))
  | other i tail rest ihr => exact .cons _ (ihr k)

theorem facts_modify {f : Nodes τ → Nodes τ}
    (keeps : ∀ k t, ((f t).facts k).Perm (t.facts k)) (k : Nat) :
    ((t.modify i f).facts k).Perm (t.facts k) := by
  induction t generalizing k with
  | nil => exact .refl _
  | element j tag text children tail rest ihc ihr =>
      rw [modify, facts, facts]
      refine .cons _ (.append ?_ (ihr k))
      split
      · exact keeps j _
      · exact ihc j
  | other j tail rest ihr => exact .cons _ (ihr k)

theorem ids_perm (same : (u.facts 0).Perm (t.facts 0)) : u.ids.Perm t.ids := by
  rw [ids_eq 0, ids_eq 0]
  exact same.map _

theorem siblings_sublist : t.siblings.Sublist t.ids := by
  induction t with
  | nil => exact .refl _
  | element i tag text children tail rest _ ihr =>
      exact (ihr.trans (List.sublist_append_right _ _)).cons_cons _
  | other i tail rest ihr => exact ihr.cons_cons _

/-! One element after the other, and all at once -/

theorem modify_of_notMem {f : Nodes τ → Nodes τ} (absent : i ∉ t.ids) : t.modify i f = t := by
  induction t with
  | nil => rfl
  | element j tag text children tail rest ihc ihr =>
      simp only [ids, List.mem_cons, List.mem_append, not_or] at absent
      rw [modify, if_neg (Ne.symm absent.1), ihc absent.2.1, ihr absent.2.2]
  | other j tail rest ihr =>
      rw [modify, ihr fun there => absent (List.mem_cons_of_mem _ there)]

theorem modify_append {f : Nodes τ → Nodes τ} :
    (t.append u).modify i f = (t.modify i f).append (u.modify i f) := by
  induction t with
  | nil => rfl
  | element j tag text children tail rest _ ihr => rw [append, modify, ihr, modify, append]
  | other j tail rest ihr => rw [append, modify, ihr, modify, append]

theorem but_modify {f : Nodes τ → Nodes τ} : (t.modify i f).but p = (t.but p).modify i f := by
  induction t with
  | nil => rfl
  | element j tag text children tail rest _ ihr =>
      rw [modify, but, but]
      split
      · exact ihr
      · rw [modify, ihr]
  | other j tail rest ihr => rw [modify, but, but, modify, ihr]

theorem those_modify {f : Nodes τ → Nodes τ} :
    (t.modify i f).those p = (t.those p).modify i f := by
  induction t with
  | nil => rfl
  | element j tag text children tail rest _ ihr =>
      rw [modify, those, those]
      split
      · rw [modify, ihr]
      · exact ihr
  | other j tail rest ihr => exact ihr

theorem gather_modify {f : Nodes τ → Nodes τ} :
    (t.modify i f).gather p = (t.gather p).modify i f := by
  rw [gather, gather, modify_append, but_modify, those_modify]

theorem modify_gatherEach (distinct : t.ids.Nodup) :
    t.modify i (gatherEach p) = t.modify i (gather p) := by
  induction t with
  | nil => rfl
  | element j tag text children tail rest ihc ihr =>
      simp only [ids, List.nodup_cons, List.nodup_append] at distinct
      rw [modify, modify, ihc distinct.2.1, ihr distinct.2.2.1,
        gatherEach_eq (distinct.2.1.sublist siblings_sublist)]
  | other j tail rest ihr => rw [modify, modify, ihr (List.nodup_cons.mp distinct).2]

theorem foldl_modify_of_disjoint {f : Nodes τ → Nodes τ} {is : List Nat}
    (absent : ∀ i ∈ is, i ∉ t.ids) : is.foldl (fun t i => t.modify i f) t = t := by
  induction is with
  | nil => rfl
  | cons i is ih =>
      rw [List.foldl_cons, modify_of_notMem (absent i List.mem_cons_self)]
      exact ih fun k later => absent k (List.mem_cons_of_mem _ later)

theorem foldl_modify_element {f : Nodes τ → Nodes τ} {is : List Nat} (apart : j ∉ is) :
    is.foldl (fun t i => t.modify i f) (element j tag text children tail rest) =
      element j tag text (is.foldl (fun t i => t.modify i f) children) tail
        (is.foldl (fun t i => t.modify i f) rest) := by
  induction is generalizing children rest with
  | nil => rfl
  | cons i is ih =>
      simp only [List.mem_cons, not_or] at apart
      simp only [List.foldl_cons]
      rw [modify, if_neg apart.1, ih apart.2]

theorem foldl_modify_other {f : Nodes τ → Nodes τ} (is : List Nat) :
    is.foldl (fun t i => t.modify i f) (other j tail rest) =
      other j tail (is.foldl (fun t i => t.modify i f) rest) := by
  induction is generalizing rest with
  | nil => rfl
  | cons i is ih =>
      rw [List.foldl_cons, List.foldl_cons]
      exact ih

/-- A row may be edited before or after what is below it. -/
theorem foldl_modify_gather (is : List Nat) :
    is.foldl (fun t i => t.modify i (gather p)) (t.gather p) =
      (is.foldl (fun t i => t.modify i (gather p)) t).gather p := by
  induction is generalizing t with
  | nil => rfl
  | cons i is ih => rw [List.foldl_cons, List.foldl_cons, ← gather_modify, ih]

theorem foldl_modify_eq (distinct : t.ids.Nodup) :
    t.ids.foldl (fun t i => t.modify i (gather p)) t = t.everywhere (gather p) := by
  induction t with
  | nil => rfl
  | element j tag text children tail rest ihc ihr =>
      simp only [ids, List.nodup_cons, List.nodup_append, List.mem_append, not_or] at distinct
      obtain ⟨⟨apart, apart'⟩, inner, later, across⟩ := distinct
      have first : (element j tag text children tail rest).modify j (gather p) =
          element j tag text (children.gather p) tail rest := by
        rw [modify, if_pos rfl, modify_of_notMem apart']
      have row : children.ids.foldl (fun t i => t.modify i (gather p)) (children.gather p) =
          (children.everywhere (gather p)).gather p := by
        rw [foldl_modify_gather, ihc inner]
      have kept : ((children.everywhere (gather p)).gather p).ids.Perm children.ids :=
        ids_perm ((facts_gather 0).trans (facts_everywhere (fun k _ => facts_gather k) 0))
      rw [ids, List.foldl_cons, first, List.foldl_append, foldl_modify_element apart, row,
        foldl_modify_of_disjoint fun i inside after => across i inside i after rfl,
        foldl_modify_element apart', ihr later,
        foldl_modify_of_disjoint fun i after inside => across i (kept.subset inside) i after rfl,
        everywhere]
  | other j tail rest ihr =>
      have first : (other j tail rest).modify j (gather p) = other j tail rest := by
        rw [modify, modify_of_notMem (List.nodup_cons.mp distinct).1]
      rw [ids, List.foldl_cons, first, foldl_modify_other, ihr (List.nodup_cons.mp distinct).2,
        everywhere]

theorem gatherAll_each (is : List Nat) (distinct : t.ids.Nodup) :
    gatherAll p is t = is.foldl (fun t i => t.modify i (gather p)) t := by
  induction is generalizing t with
  | nil => rfl
  | cons i is ih =>
      have kept : (t.modify i (gather p)).ids.Perm t.ids :=
        ids_perm (facts_modify (fun k _ => facts_gather k) 0)
      rw [gatherAll, List.foldl_cons, List.foldl_cons, modify_gatherEach distinct]
      exact ih (kept.nodup_iff.mpr distinct)

/-- Going through the elements in document order, and editing the document on the way, edits every
row once. -/
theorem gatherAll_eq (distinct : t.ids.Nodup) :
    gatherAll p t.ids t = t.everywhere (gather p) :=
  (gatherAll_each _ distinct).trans (foldl_modify_eq distinct)

/-- The same where the row itself has been edited before. -/
theorem gatherAll_gather (distinct : t.ids.Nodup) :
    gatherAll p t.ids (t.gather p) = (t.everywhere (gather p)).gather p := by
  have kept : (t.gather p).ids.Perm t.ids := ids_perm (facts_gather 0)
  rw [gatherAll_each _ (kept.nodup_iff.mpr distinct), foldl_modify_gather,
    foldl_modify_eq distinct]

/-! Where the elements are -/

/-- All siblings are elements with the property. -/
def AllOf (p : τ → Bool) : Nodes τ → Prop
  | nil => True
  | element _ tag _ _ _ rest => p tag = true ∧ rest.AllOf p
  | other _ _ _ => False

/-- The siblings with the property are the last ones. -/
def Ended (p : τ → Bool) : Nodes τ → Prop
  | nil => True
  | element _ tag _ _ _ rest => (p tag = true → rest.AllOf p) ∧ rest.Ended p
  | other _ _ rest => rest.Ended p

/-- What holds of the children of every element. -/
def InEach (P : Nodes τ → Prop) : Nodes τ → Prop
  | nil => True
  | element _ _ _ children _ rest => P children ∧ children.InEach P ∧ rest.InEach P
  | other _ _ rest => rest.InEach P

theorem AllOf.ended (all : t.AllOf p) : t.Ended p := by
  induction t with
  | nil => trivial
  | element i tag text children tail rest _ ihr => exact ⟨fun _ => all.2, ihr all.2⟩
  | other i tail rest _ => exact all.elim

theorem allOf_those : (t.those p).AllOf p := by
  induction t with
  | nil => trivial
  | element i tag text children tail rest _ ihr =>
      unfold those
      split
      · rename_i has
        exact ⟨has, ihr⟩
      · exact ihr
  | other i tail rest ihr => exact ihr

theorem ended_gather : (t.gather p).Ended p := by
  have behind (u : Nodes τ) (all : u.AllOf p) : ((t.but p).append u).Ended p := by
    induction t with
    | nil => exact all.ended
    | element i tag text children tail rest _ ihr =>
        unfold but
        split
        · exact ihr
        · rename_i has
          exact ⟨fun also => absurd also has, ihr⟩
    | other i tail rest ihr => exact ihr
  exact behind _ allOf_those

theorem AllOf.but_those (all : t.AllOf p) : t.but p = nil ∧ t.those p = t := by
  induction t with
  | nil => exact ⟨rfl, rfl⟩
  | element i tag text children tail rest _ ihr =>
      obtain ⟨none_, same⟩ := ihr all.2
      rw [but, those, if_pos all.1, if_pos all.1, none_, same]
      exact ⟨rfl, rfl⟩
  | other i tail rest _ => exact all.elim

theorem Ended.gather_eq (ended : t.Ended p) : t.gather p = t := by
  induction t with
  | nil => rfl
  | element i tag text children tail rest _ ihr =>
      rw [gather, but, those]
      split
      · rename_i has
        obtain ⟨none_, same⟩ := (ended.1 has).but_those
        rw [none_, same]
        rfl
      · rw [append]
        exact congrArg _ (ihr ended.2)
  | other i tail rest ihr => exact congrArg _ (ihr ended)

theorem inEach_append {P : Nodes τ → Prop} (t_ : t.InEach P) (u_ : u.InEach P) :
    (t.append u).InEach P := by
  induction t with
  | nil => exact u_
  | element i tag text children tail rest _ ihr => exact ⟨t_.1, t_.2.1, ihr t_.2.2⟩
  | other i tail rest ihr => exact ihr t_

theorem inEach_but_those {P : Nodes τ → Prop} (each : t.InEach P) :
    (t.but p).InEach P ∧ (t.those p).InEach P := by
  induction t with
  | nil => exact ⟨trivial, trivial⟩
  | element i tag text children tail rest _ ihr =>
      obtain ⟨others, some_⟩ := ihr each.2.2
      unfold but those
      split
      · exact ⟨others, each.1, each.2.1, some_⟩
      · exact ⟨⟨each.1, each.2.1, others⟩, some_⟩
  | other i tail rest ihr => exact ihr each

theorem inEach_everywhere : (t.everywhere (gather p)).InEach (Ended p) := by
  induction t with
  | nil => trivial
  | element i tag text children tail rest ihc ihr =>
      obtain ⟨others, some_⟩ := inEach_but_those ihc
      exact ⟨ended_gather, inEach_append others some_, ihr⟩
  | other i tail rest ihr => exact ihr

theorem everywhere_of_inEach (each : t.InEach (Ended p)) : t.everywhere (gather p) = t := by
  induction t with
  | nil => rfl
  | element i tag text children tail rest ihc ihr =>
      rw [everywhere, ihc each.2.1, ihr each.2.2, each.1.gather_eq]
  | other i tail rest ihr => rw [everywhere, ihr each]

end Gather

/-! ### Elements that are taken out may have been moved -/

section Both

variable {τ : Type} {p q : τ → Bool} {t u : Nodes τ}

/-- No text follows the elements with the property. -/
def Bare (p : τ → Bool) : Nodes τ → Prop
  | nil => True
  | element _ tag _ children tail rest =>
      (p tag = true → tail = "") ∧ children.Bare p ∧ rest.Bare p
  | other _ _ rest => rest.Bare p

/-- The elements of a row. -/
def roots : Nodes τ → List (Root τ)
  | nil => []
  | element i tag text children _ rest => ⟨i, tag, text, children⟩ :: rest.roots
  | other _ _ rest => rest.roots

theorem without_allOf (before : String) (sub : ∀ tag, p tag = true → q tag = true)
    (all : u.AllOf p) (bare : u.Bare p) : u.without q before = ⟨before, nil, u.roots⟩ := by
  induction u generalizing before with
  | nil => rfl
  | element i tag text children tail rest _ ihr =>
      rw [without, if_pos (sub tag all.1), bare.1 all.1, String.append_empty,
        ihr before all.2 bare.2.2]
      rfl
  | other i tail rest _ => exact all.elim

theorem without_append (before : String) (sub : ∀ tag, p tag = true → q tag = true)
    (all : u.AllOf p) (bare : u.Bare p) : (t.append u).without q before =
      ⟨(t.without q before).before, (t.without q before).nodes,
        (t.without q before).taken ++ u.roots⟩ := by
  induction t generalizing before with
  | nil => exact without_allOf before sub all bare
  | element i tag text children tail rest _ ihr =>
      rw [append]
      by_cases has : q tag = true
      · rw [without_pos has, without_pos has, ihr]
        rfl
      · rw [without_neg has, without_neg has, ihr]
        simp only [List.append_assoc]
  | other i tail rest ihr => rw [append, without, ihr, without]

/-- What taking elements out does not tell apart. -/
structure Cut.Alike (c d : Cut τ) : Prop where
  before : c.before = d.before
  nodes : c.nodes = d.nodes
  taken : c.taken.Perm d.taken

theorem without_but (before : String) (sub : ∀ tag, p tag = true → q tag = true)
    (bare : t.Bare p) :
    Cut.Alike ⟨((t.but p).without q before).before, ((t.but p).without q before).nodes,
      ((t.but p).without q before).taken ++ (t.those p).roots⟩ (t.without q before) := by
  induction t generalizing before with
  | nil => exact ⟨rfl, rfl, .refl _⟩
  | element i tag text children tail rest _ ihr =>
      unfold but those
      split
      · rename_i has
        obtain ⟨same, nodes, taken⟩ := ihr before bare.2.2
        rw [without_pos (sub tag has), bare.1 has, String.append_empty]
        exact ⟨same, nodes, List.perm_middle.trans (taken.cons _)⟩
      · by_cases has : q tag = true
        · obtain ⟨same, nodes, taken⟩ := ihr (before ++ tail) bare.2.2
          rw [without_pos has, without_pos has]
          exact ⟨same, nodes, taken.cons _⟩
        · obtain ⟨same, nodes, taken⟩ := ihr tail bare.2.2
          dsimp only at same nodes taken
          rw [without_neg has, without_neg has, same, nodes]
          refine ⟨rfl, rfl, ?_⟩
          dsimp only
          rw [List.append_assoc]
          exact taken.append_left _
  | other i tail rest ihr =>
      obtain ⟨same, nodes, taken⟩ := ihr tail bare
      dsimp only at same nodes taken
      dsimp only [but, without]
      rw [same, nodes]
      exact ⟨rfl, rfl, taken⟩

theorem Bare.those (bare : t.Bare p) : (t.those p).Bare p := by
  induction t with
  | nil => trivial
  | element i tag text children tail rest _ ihr =>
      unfold Nodes.those
      split
      · exact ⟨bare.1, bare.2.1, ihr bare.2.2⟩
      · exact ihr bare.2.2
  | other i tail rest ihr => exact ihr bare

theorem Bare.but (bare : t.Bare p) : (t.but p).Bare p := by
  induction t with
  | nil => trivial
  | element i tag text children tail rest _ ihr =>
      unfold Nodes.but
      split
      · exact ihr bare.2.2
      · exact ⟨bare.1, bare.2.1, ihr bare.2.2⟩
  | other i tail rest ihr => exact ihr bare

theorem Bare.append (t_ : t.Bare p) (u_ : u.Bare p) : (t.append u).Bare p := by
  induction t with
  | nil => exact u_
  | element i tag text children tail rest _ ihr => exact ⟨t_.1, t_.2.1, ihr t_.2.2⟩
  | other i tail rest ihr => exact ihr t_

theorem without_gather (before : String) (sub : ∀ tag, p tag = true → q tag = true)
    (bare : t.Bare p) : Cut.Alike ((t.gather p).without q before) (t.without q before) := by
  rw [gather, without_append before sub allOf_those bare.those]
  exact without_but before sub bare

theorem Bare.everywhere (bare : t.Bare p) : (t.everywhere (Nodes.gather p)).Bare p := by
  induction t with
  | nil => trivial
  | element i tag text children tail rest ihc ihr =>
      exact ⟨bare.1, (ihc bare.2.1).but.append (ihc bare.2.1).those, ihr bare.2.2⟩
  | other i tail rest ihr => exact ihr bare

end Both

end Nodes

/-- Edit the children of the element and of every element in it. -/
def Root.everywhere {τ : Type} (f : Nodes τ → Nodes τ) (r : Root τ) : Root τ :=
  { r with children := f (r.children.everywhere f) }

/-- Moving elements to the end of their parents changes nothing in what is left when these elements
are taken out, and in what is taken only what is inside. -/
theorem Nodes.without_everywhere {τ : Type} {p q : τ → Bool} {t : Nodes τ} (before : String)
    (sub : ∀ tag, p tag = true → q tag = true) (bare : t.Bare p) :
    Cut.Alike ((t.everywhere (gather p)).without q before)
      ⟨(t.without q before).before, (t.without q before).nodes,
        (t.without q before).taken.map (Root.everywhere (gather p))⟩ := by
  induction t generalizing before with
  | nil => exact ⟨rfl, rfl, .refl _⟩
  | element i tag text children tail rest ihc ihr =>
      rw [everywhere]
      by_cases has : q tag = true
      · obtain ⟨same, nodes, taken⟩ := ihr (before ++ tail) bare.2.2
        rw [without_pos has, without_pos has]
        exact ⟨same, nodes, taken.cons _⟩
      · obtain ⟨same, nodes, taken⟩ := ihr tail bare.2.2
        obtain ⟨row, inside, out⟩ := without_gather text sub bare.2.1.everywhere
        obtain ⟨row', inside', out'⟩ := ihc text bare.2.1
        dsimp only at same nodes taken row' inside' out'
        rw [without_neg has, without_neg has, same, nodes, row, row', inside, inside',
          List.map_append]
        exact ⟨rfl, rfl, (out.trans out').append taken⟩
  | other i tail rest ihr =>
      obtain ⟨same, nodes, taken⟩ := ihr tail bare
      dsimp only at same nodes taken
      dsimp only [everywhere, without]
      rw [same, nodes]
      exact ⟨rfl, rfl, taken⟩

end Py20305
