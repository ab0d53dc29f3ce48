import Mathlib.Data.List.Perm.Basic
import Mathlib.Data.List.Nodup

/-!
Documents: elements in order, with text between them.

The text before the first child of an element belongs to the element, the text after a node to the
node (its tail). Elements can be taken out of a document in place, one after the other, each leaving
its tail (`cutAll`); that takes them out all at once (`cutAll_eq`), and puts every node in one of two
layers (`without_layers`).
-/

namespace Py20305

/-- The nodes from one on, with its siblings. A node that is no element, such as a comment, has no
children. -/
inductive Nodes (τ : Type) where
  | nil
  | element (i : Nat) (tag : τ) (text : String) (children : Nodes τ) (tail : String)
      (rest : Nodes τ)
  | other (i : Nat) (tail : String) (rest : Nodes τ)
  deriving DecidableEq, Repr

/-- An element without what is around it. -/
structure Root (τ : Type) where
  id : Nat
  tag : τ
  text : String
  children : Nodes τ
  deriving DecidableEq, Repr

namespace Nodes

variable {τ : Type}

/-- The nodes in document order. -/
def ids : Nodes τ → List Nat
  | nil => []
  | element i _ _ children _ rest => i :: (children.ids ++ rest.ids)
  | other i _ rest => i :: rest.ids

end Nodes

def Root.ids {τ : Type} (r : Root τ) : List Nat := r.id :: r.children.ids

namespace Nodes

section Cut

variable {τ : Type} {p : τ → Bool} {i j : Nat} {before tail text : String} {tag : τ}
  {t children rest : Nodes τ}

/-! ### Taking elements out -/

/-- What is left when elements are taken out: the text before the first node, the nodes, and the
elements taken. -/
structure Cut (τ : Type) where
  before : String
  nodes : Nodes τ
  taken : List (Root τ)
  deriving DecidableEq, Repr

/-- Take one element out. Its tail goes to the node before it, or to the text before the first. -/
def cut (i : Nat) (before : String) : Nodes τ → Cut τ
  | nil => ⟨before, nil, []⟩
  | element j tag text children tail rest =>
      if j = i then ⟨before ++ tail, rest, [⟨j, tag, text, children⟩]⟩
      else
        let inner := cut i text children
        let later := cut i tail rest
        ⟨before, element j tag inner.before inner.nodes later.before later.nodes,
          inner.taken ++ later.taken⟩
  | other j tail rest =>
      let later := cut i tail rest
      ⟨before, other j later.before later.nodes, later.taken⟩

def Cut.next (c : Cut τ) (i : Nat) : Cut τ :=
  let d := c.nodes.cut i c.before
  ⟨d.before, d.nodes, c.taken ++ d.taken⟩

/-- Take elements out one after the other. -/
def cutAll (is : List Nat) (before : String) (t : Nodes τ) : Cut τ :=
  is.foldl Cut.next ⟨before, t, []⟩

/-- The outermost elements with a property. -/
def outermost (p : τ → Bool) : Nodes τ → List Nat
  | nil => []
  | element i tag _ children _ rest =>
      if p tag then i :: rest.outermost p else children.outermost p ++ rest.outermost p
  | other _ _ rest => rest.outermost p

/-- All of them are taken out at once. -/
def without (p : τ → Bool) (before : String) : Nodes τ → Cut τ
  | nil => ⟨before, nil, []⟩
  | element i tag text children tail rest =>
      if p tag then
        let later := without p (before ++ tail) rest
        ⟨later.before, later.nodes, ⟨i, tag, text, children⟩ :: later.taken⟩
      else
        let inner := without p text children
        let later := without p tail rest
        ⟨before, element i tag inner.before inner.nodes later.before later.nodes,
          inner.taken ++ later.taken⟩
  | other i tail rest =>
      let later := without p tail rest
      ⟨before, other i later.before later.nodes, later.taken⟩

theorem without_pos (has : p tag = true) :
    (element i tag text children tail rest).without p before =
      ⟨(rest.without p (before ++ tail)).before, (rest.without p (before ++ tail)).nodes,
        ⟨i, tag, text, children⟩ :: (rest.without p (before ++ tail)).taken⟩ := by
  rw [without, if_pos has]

theorem without_neg (has : ¬p tag = true) :
    (element i tag text children tail rest).without p before =
      ⟨before, element i tag (children.without p text).before (children.without p text).nodes
          (rest.without p tail).before (rest.without p tail).nodes,
        (children.without p text).taken ++ (rest.without p tail).taken⟩ := by
  rw [without, if_neg has]

theorem outermost_subset : outermost p t ⊆ t.ids := by
  induction t with
  | nil => exact List.nil_subset _
  | element i tag text children tail rest ihc ihr =>
      unfold outermost ids
      split
      · exact List.cons_subset_cons _ (List.Subset.trans ihr (List.subset_append_right _ _))
      · exact List.subset_cons_of_subset _ (List.append_subset.mpr
          ⟨List.Subset.trans ihc (List.subset_append_left _ _),
            List.Subset.trans ihr (List.subset_append_right _ _)⟩)
  | other i tail rest ihr => exact List.subset_cons_of_subset _ ihr

theorem cut_of_notMem (absent : i ∉ t.ids) : t.cut i before = ⟨before, t, []⟩ := by
  induction t generalizing before with
  | nil => rfl
  | element j tag text children tail rest ihc ihr =>
      simp only [ids, List.mem_cons, List.mem_append, not_or] at absent
      rw [cut, if_neg (Ne.symm absent.1), ihc absent.2.1, ihr absent.2.2]
      rfl
  | other j tail rest ihr =>
      rw [cut, ihr fun there => absent (List.mem_cons_of_mem _ there)]

theorem ids_cut_subset : (t.cut i before).nodes.ids ⊆ t.ids := by
  induction t generalizing before with
  | nil => exact List.nil_subset _
  | element j tag text children tail rest ihc ihr =>
      unfold cut
      split
      · exact List.subset_cons_of_subset _ (List.subset_append_right _ _)
      · exact List.cons_subset_cons _ (List.append_subset.mpr
          ⟨List.Subset.trans ihc (List.subset_append_left _ _),
            List.Subset.trans ihr (List.subset_append_right _ _)⟩)
  | other j tail rest ihr => exact List.cons_subset_cons _ ihr

/-- What is taken is put behind what was taken before. -/
theorem foldl_next (is : List Nat) (before : String) (t : Nodes τ) (taken : List (Root τ)) :
    is.foldl Cut.next ⟨before, t, taken⟩ =
      ⟨(cutAll is before t).before, (cutAll is before t).nodes,
        taken ++ (cutAll is before t).taken⟩ := by
  induction is generalizing before t taken with
  | nil => simp [cutAll]
  | cons i is ih =>
      simp only [cutAll, List.foldl_cons, Cut.next, List.nil_append]
      rw [ih, ih _ _ (t.cut i before).taken, List.append_assoc]

theorem cutAll_cons (is : List Nat) : cutAll (i :: is) before t =
    ⟨(cutAll is (t.cut i before).before (t.cut i before).nodes).before,
      (cutAll is (t.cut i before).before (t.cut i before).nodes).nodes,
      (t.cut i before).taken ++ (cutAll is (t.cut i before).before (t.cut i before).nodes).taken⟩ :=
  foldl_next is _ _ _

theorem cutAll_append (is js : List Nat) : cutAll (is ++ js) before t =
    ⟨(cutAll js (cutAll is before t).before (cutAll is before t).nodes).before,
      (cutAll js (cutAll is before t).before (cutAll is before t).nodes).nodes,
      (cutAll is before t).taken ++
        (cutAll js (cutAll is before t).before (cutAll is before t).nodes).taken⟩ := by
  rw [cutAll, List.foldl_append]
  exact foldl_next js _ _ _

theorem ids_cutAll_subset {is : List Nat} : (cutAll is before t).nodes.ids ⊆ t.ids := by
  induction is generalizing before t with
  | nil => exact List.Subset.refl _
  | cons i is ih =>
      rw [cutAll_cons]
      exact List.Subset.trans ih ids_cut_subset

/-- Elements among the children, and after that elements after the node, are taken out of these. -/
theorem cutAll_element {is js : List Nat} (inner : ∀ i ∈ is, i ≠ j ∧ i ∉ rest.ids)
    (later : ∀ i ∈ js, i ≠ j ∧ i ∉ children.ids) :
    cutAll (is ++ js) before (element j tag text children tail rest) =
      ⟨before, element j tag (cutAll is text children).before (cutAll is text children).nodes
          (cutAll js tail rest).before (cutAll js tail rest).nodes,
        (cutAll is text children).taken ++ (cutAll js tail rest).taken⟩ := by
  have first : cutAll is before (element j tag text children tail rest) =
      ⟨before, element j tag (cutAll is text children).before (cutAll is text children).nodes
        tail rest, (cutAll is text children).taken⟩ := by
    induction is generalizing text children with
    | nil => rfl
    | cons i is ih =>
        obtain ⟨other, absent⟩ := inner i List.mem_cons_self
        rw [cutAll_cons, cutAll_cons, cut, if_neg (Ne.symm other), cut_of_notMem absent]
        dsimp only
        rw [ih (fun k member => inner k (List.mem_cons_of_mem _ member)) fun k member =>
          ⟨(later k member).1, fun there => (later k member).2 (ids_cut_subset there)⟩]
        simp
  have second (text : String) (children' : Nodes τ) (kept : children'.ids ⊆ children.ids) :
      cutAll js before (element j tag text children' tail rest) =
        ⟨before, element j tag text children' (cutAll js tail rest).before
          (cutAll js tail rest).nodes, (cutAll js tail rest).taken⟩ := by
    clear first inner
    induction js generalizing tail rest with
    | nil => rfl
    | cons i js ih =>
        obtain ⟨other, absent⟩ := later i List.mem_cons_self
        rw [cutAll_cons, cutAll_cons, cut, if_neg (Ne.symm other),
          cut_of_notMem fun there => absent (kept there)]
        dsimp only
        rw [ih fun k member => later k (List.mem_cons_of_mem _ member)]
        simp
  rw [cutAll_append, first]
  dsimp only
  rw [second _ _ ids_cutAll_subset]

theorem cutAll_other (is : List Nat) : cutAll is before (other j tail rest) =
    ⟨before, other j (cutAll is tail rest).before (cutAll is tail rest).nodes,
      (cutAll is tail rest).taken⟩ := by
  induction is generalizing tail rest with
  | nil => rfl
  | cons i is ih => rw [cutAll_cons, cutAll_cons, cut, ih]

/-- Taken out one after the other in document order, the outermost elements leave what they leave
when they are taken out at once. -/
theorem cutAll_eq (distinct : t.ids.Nodup) :
    cutAll (t.outermost p) before t = t.without p before := by
  induction t generalizing before with
  | nil => rfl
  | element j tag text children tail rest ihc ihr =>
      simp only [ids, List.nodup_cons, List.nodup_append, List.mem_append, not_or] at distinct
      obtain ⟨⟨apart, apart'⟩, inner, later, across⟩ := distinct
      unfold outermost without
      split
      · rw [cutAll_cons, cut, if_pos rfl, ← ihr later]
        rfl
      · rw [cutAll_element, ihc inner, ihr later]
        · intro i listed
          have there := outermost_subset listed
          exact ⟨fun same => apart (same ▸ there), fun also => across i there i also rfl⟩
        · intro i listed
          have there := outermost_subset listed
          exact ⟨fun same => apart' (same ▸ there), fun also => across i also i there rfl⟩
  | other j tail rest ihr =>
      unfold outermost without
      rw [cutAll_other, ihr (List.nodup_cons.mp distinct).2]

/-- The tags in document order. -/
def tags : Nodes τ → List τ
  | nil => []
  | element _ tag _ children _ rest => tag :: (children.tags ++ rest.tags)
  | other _ _ rest => rest.tags

/-- The text that is not in an element with the property. -/
def textOutside (p : τ → Bool) : Nodes τ → String
  | nil => ""
  | element _ tag text children tail rest =>
      (if p tag then "" else text ++ children.textOutside p) ++ (tail ++ rest.textOutside p)
  | other _ tail rest => tail ++ rest.textOutside p

/-- The elements in document order, each whole, with the tags of the elements around it. -/
def elements (around : List τ) : Nodes τ → List (List τ × Root τ)
  | nil => []
  | element i tag text children _ rest =>
      (around, ⟨i, tag, text, children⟩) ::
        (children.elements (tag :: around) ++ rest.elements around)
  | other _ _ rest => rest.elements around

/-- What is left has no element with the property; what is taken are the elements that have it and
are in no other that has it, whole and in order; each node is in one of the two, in order; and the
text that was not in one of them is left, in order. -/
structure Layers (p : τ → Bool) (before : String) (t : Nodes τ) (c : Cut τ) : Prop where
  left : ∀ tag ∈ c.nodes.tags, p tag = false
  taken : c.taken = ((t.elements []).filter fun e =>
    p e.2.tag && e.1.all fun tag => !p tag).map Prod.snd
  ids : (c.nodes.ids ++ c.taken.flatMap Root.ids).Perm t.ids
  leftOrder : c.nodes.ids.Sublist t.ids
  takenOrder : (c.taken.flatMap Root.ids).Sublist t.ids
  text : c.before ++ c.nodes.textOutside p = before ++ t.textOutside p

theorem taken_without (around : List τ) (before : String) (t : Nodes τ) :
    ((t.elements around).filter fun e => p e.2.tag && e.1.all fun tag => !p tag).map Prod.snd =
      if around.all fun tag => !p tag then (t.without p before).taken else [] := by
  induction t generalizing around before with
  | nil => cases around.all fun tag => !p tag <;> rfl
  | element i tag text children tail rest ihc ihr =>
      rw [elements, List.filter_cons, List.filter_append]
      cases has : p tag with
      | true =>
          have inner := ihc (tag :: around) text
          have later := ihr around (before ++ tail)
          rw [without_pos has]
          rw [List.all_cons, has] at inner
          cases clear : around.all fun tag => !p tag with
          | true =>
              rw [clear] at later
              simp [inner, later]
          | false =>
              rw [clear] at later
              simp [inner, later]
      | false =>
          have inner := ihc (tag :: around) text
          have later := ihr around tail
          rw [without_neg (by simp [has])]
          rw [List.all_cons, has] at inner
          cases clear : around.all fun tag => !p tag with
          | true =>
              rw [clear] at inner later
              simp [inner, later]
          | false =>
              rw [clear] at inner later
              simp [inner, later]
  | other i tail rest ihr =>
      rw [elements, without]
      exact ihr around tail

theorem without_layers (p : τ → Bool) (before : String) (t : Nodes τ) :
    Layers p before t (t.without p before) := by
  induction t generalizing before with
  | nil => exact ⟨fun _ none_ => (by cases none_), rfl, .refl _, .refl _, .refl _, rfl⟩
  | element i tag text children tail rest ihc ihr =>
      unfold without
      split
      · rename_i has
        have later := ihr (before ++ tail)
        refine ⟨later.left, ?_, ?_, ?_, ?_, ?_⟩
        · have taken := taken_without [] before (element i tag text children tail rest) (p := p)
          rw [taken, without_pos has]
          rfl
        · rw [List.flatMap_cons, Root.ids, Nodes.ids, List.cons_append]
          refine List.perm_middle.trans (.cons _ ?_)
          refine (List.perm_append_comm_assoc _ _ _).trans (.append_left _ later.ids)
        · exact (later.leftOrder.trans (List.sublist_append_right _ _)).cons _
        · rw [List.flatMap_cons, Root.ids, Nodes.ids, List.cons_append]
          exact (later.takenOrder.append_left _).cons_cons _
        · rw [later.text, textOutside, if_pos has, String.empty_append, String.append_assoc]
      · rename_i has
        have inner := ihc text
        have later := ihr tail
        refine ⟨?_, ?_, ?_, ?_, ?_, ?_⟩
        · rintro tag' left
          rw [tags, List.mem_cons, List.mem_append] at left
          rcases left with rfl | left | left
          · simpa using has
          · exact inner.left tag' left
          · exact later.left tag' left
        · have taken := taken_without [] before (element i tag text children tail rest) (p := p)
          rw [taken, without_neg has]
          rfl
        · rw [List.flatMap_append, Nodes.ids, Nodes.ids, List.cons_append]
          refine .cons _ (List.Perm.trans ?_ (inner.ids.append later.ids))
          rw [List.append_assoc, List.append_assoc]
          exact .append_left _ (List.perm_append_comm_assoc _ _ _)
        · exact (inner.leftOrder.append later.leftOrder).cons_cons _
        · rw [List.flatMap_append, Nodes.ids]
          exact (inner.takenOrder.append later.takenOrder).cons _
        · rw [textOutside, textOutside, if_neg has, ← inner.text, ← later.text]
          simp [has]
  | other i tail rest ihr =>
      have later := ihr tail
      refine ⟨later.left, later.taken, later.ids.cons _, later.leftOrder.cons_cons _,
        later.takenOrder.cons _, ?_⟩
      rw [without, textOutside, textOutside, later.text]

/-! ### Other tags -/

/-- Give the elements other tags. -/
def mapTags {υ : Type} (f : τ → υ) : Nodes τ → Nodes υ
  | nil => nil
  | element i tag text children tail rest =>
      element i (f tag) text (children.mapTags f) tail (rest.mapTags f)
  | other i tail rest => other i tail (rest.mapTags f)

theorem ids_mapTags {υ : Type} (f : τ → υ) : (t.mapTags f).ids = t.ids := by
  induction t with
  | nil => rfl
  | element i tag text children tail rest ihc ihr => rw [mapTags, ids, ids, ihc, ihr]
  | other i tail rest ihr => rw [mapTags, ids, ids, ihr]

theorem mapTags_eq_self {f : τ → τ} (same : ∀ tag ∈ t.tags, f tag = tag) : t.mapTags f = t := by
  induction t with
  | nil => rfl
  | element i tag text children tail rest ihc ihr =>
      simp only [tags, List.mem_cons, List.mem_append] at same
      rw [mapTags, same tag (.inl rfl), ihc fun tag' there => same tag' (.inr (.inl there)),
        ihr fun tag' there => same tag' (.inr (.inr there))]
  | other i tail rest ihr => rw [mapTags, ihr same]

theorem mapTags_mapTags {υ φ : Type} (f : τ → υ) (g : υ → φ) :
    (t.mapTags f).mapTags g = t.mapTags (g ∘ f) := by
  induction t with
  | nil => rfl
  | element i tag text children tail rest ihc ihr =>
      rw [mapTags, mapTags, mapTags, ihc, ihr, Function.comp_apply]
  | other i tail rest ihr => rw [mapTags, mapTags, mapTags, ihr]

end Cut

end Nodes

/-- Give the element and those in it other tags. -/
def Root.mapTags {τ υ : Type} (f : τ → υ) (r : Root τ) : Root υ :=
  ⟨r.id, f r.tag, r.text, r.children.mapTags f⟩

def Root.tags {τ : Type} (r : Root τ) : List τ := r.tag :: r.children.tags

theorem Root.mapTags_eq_self {τ : Type} {f : τ → τ} {r : Root τ}
    (same : ∀ tag ∈ r.tags, f tag = tag) : r.mapTags f = r := by
  simp only [Root.tags, List.mem_cons] at same
  rw [Root.mapTags, same r.tag (.inl rfl),
    Nodes.mapTags_eq_self fun tag there => same tag (.inr there)]

theorem Nodes.tags_taken_subset {τ : Type} {p : τ → Bool} {before : String} {t : Nodes τ}
    {r : Root τ} (taken : r ∈ (t.without p before).taken) : r.tags ⊆ t.tags := by
  induction t generalizing before with
  | nil => cases taken
  | element i tag text children tail rest ihc ihr =>
      rw [tags]
      by_cases has : p tag = true
      · rw [without_pos has] at taken
        rcases List.mem_cons.mp taken with rfl | later
        · exact List.cons_subset_cons _ (List.subset_append_left _ _)
        · exact List.subset_cons_of_subset _
            (List.Subset.trans (ihr later) (List.subset_append_right _ _))
      · rw [without_neg has] at taken
        rcases List.mem_append.mp taken with inner | later
        · exact List.subset_cons_of_subset _
            (List.Subset.trans (ihc inner) (List.subset_append_left _ _))
        · exact List.subset_cons_of_subset _
            (List.Subset.trans (ihr later) (List.subset_append_right _ _))
  | other i tail rest ihr => exact ihr taken

/-- Elements are taken out alike if the tags say so. -/
theorem Nodes.without_mapTags {τ : Type} {p : τ → Bool} {f : τ → τ} {t : Nodes τ}
    (before : String) (alike : ∀ tag, p (f tag) = p tag) :
    (t.mapTags f).without p before =
      ⟨(t.without p before).before, (t.without p before).nodes.mapTags f,
        (t.without p before).taken.map (Root.mapTags f)⟩ := by
  induction t generalizing before with
  | nil => rfl
  | element i tag text children tail rest ihc ihr =>
      rw [mapTags]
      by_cases has : p tag = true
      · rw [without_pos (by rw [alike]; exact has), without_pos has, ihr]
        rfl
      · rw [without_neg (by rw [alike]; exact has), without_neg has, ihc, ihr, List.map_append]
        rfl
  | other i tail rest ihr =>
      rw [mapTags, without, ihr, without]
      rfl

end Py20305
