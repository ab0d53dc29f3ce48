import Py20305.Lib.Gathering
import Py20305.Xml.Layers

/-!
The order of extensions in a body the client writes (`xml/serialization.py`:
`_reorder_csipaus_extensions`).

The loop goes through a list of the elements made before the first move, and moves the extensions of
each to its end. Main results: every row ends with its extensions and nothing else has changed
(`reorder_gathers`), and the body without its extensions is the body it was (`reorder_body`).
-/

namespace Py20305.Xml

/-- `child.tag.startswith(_CSIPAUS_TAG_PREFIX)`. -/
def QName.csipaus (name : QName) : Bool := name.namespaceUri = some nsCsipaus

/-- Move the extensions of one element to its end. -/
def reorderIn (doc : Root QName) (parent : Nat) : Root QName :=
  if parent = doc.id then { doc with children := doc.children.gatherEach QName.csipaus }
  else { doc with children := doc.children.modify parent (Nodes.gatherEach QName.csipaus) }

/-- `_reorder_csipaus_extensions`, of the parsed document. -/
def reorderCsipausExtensions (doc : Root QName) : Root QName := doc.ids.foldl reorderIn doc

section Reorder

variable {doc : Root QName}

theorem foldl_reorderIn (is : List Nat) (apart : doc.id ∉ is) :
    is.foldl reorderIn doc =
      { doc with children := Nodes.gatherAll QName.csipaus is doc.children } := by
  induction is generalizing doc with
  | nil => rfl
  | cons i is ih =>
      simp only [List.mem_cons, not_or] at apart
      let doc' : Root QName :=
        { doc with children := doc.children.modify i (Nodes.gatherEach QName.csipaus) }
      have first : reorderIn doc i = doc' := if_neg (Ne.symm apart.1)
      rw [List.foldl_cons, first, ih (show doc'.id ∉ is from apart.2)]
      rfl

/-- The loop edits every row once. -/
theorem reorder_eq (distinct : doc.ids.Nodup) :
    reorderCsipausExtensions doc = doc.everywhere (Nodes.gather QName.csipaus) := by
  obtain ⟨apart, inner⟩ := List.nodup_cons.mp distinct
  have row : doc.children.gatherEach QName.csipaus = doc.children.gather QName.csipaus :=
    Nodes.gatherEach_eq (inner.sublist Nodes.siblings_sublist)
  let doc' : Root QName := { doc with children := doc.children.gather QName.csipaus }
  have first : reorderIn doc doc.id = doc' := by
    rw [reorderIn, if_pos rfl, row]
  rw [reorderCsipausExtensions, Root.ids, List.foldl_cons, first,
    foldl_reorderIn _ (show doc'.id ∉ doc.children.ids from apart), Root.everywhere,
    ← Nodes.gatherAll_gather inner]

theorem ids_reorder (distinct : doc.ids.Nodup) :
    (reorderCsipausExtensions doc).ids.Nodup := by
  rw [reorder_eq distinct]
  have kept : (doc.everywhere (Nodes.gather QName.csipaus)).children.ids.Perm doc.children.ids :=
    Nodes.ids_perm ((Nodes.facts_gather 0).trans
      (Nodes.facts_everywhere (fun k _ => Nodes.facts_gather k) 0))
  exact (kept.cons doc.id).nodup_iff.mpr distinct

end Reorder

/-- Every element keeps its parent, its name and its text, the extensions are the last children
wherever there are any, and doing it again changes nothing. -/
theorem reorder_gathers (doc : Root QName) (distinct : doc.ids.Nodup) :
    let out := reorderCsipausExtensions doc
    (out.id = doc.id ∧ out.tag = doc.tag ∧ out.text = doc.text ∧
      (out.children.facts out.id).Perm (doc.children.facts doc.id)) ∧
    (out.children.Ended QName.csipaus ∧ out.children.InEach (Nodes.Ended QName.csipaus)) ∧
    reorderCsipausExtensions out = out := by
  intro out
  have whole : out = doc.everywhere (Nodes.gather QName.csipaus) := reorder_eq distinct
  have ended : out.children.Ended QName.csipaus := by
    rw [whole]
    exact Nodes.ended_gather
  have each : out.children.InEach (Nodes.Ended QName.csipaus) := by
    rw [whole]
    obtain ⟨others, some_⟩ := Nodes.inEach_but_those
      (Nodes.inEach_everywhere (p := QName.csipaus) (t := doc.children))
    exact Nodes.inEach_append others some_
  refine ⟨⟨?_, ?_, ?_, ?_⟩, ⟨ended, each⟩, ?_⟩
  · rw [whole]
    rfl
  · rw [whole]
    rfl
  · rw [whole]
    rfl
  · rw [whole]
    exact (Nodes.facts_gather doc.id).trans
      (Nodes.facts_everywhere (fun k _ => Nodes.facts_gather k) doc.id)
  · rw [reorder_eq (ids_reorder distinct), Root.everywhere, Nodes.everywhere_of_inEach each,
      ended.gather_eq]

/-- The extensions come first, as the serializer renders them. -/
def rendered : Root QName where
  id := 0
  tag := ⟨some nsSep, "DERCapability"⟩
  text := ""
  children :=
    .element 1 ⟨some nsCsipaus, "doeModesSupported"⟩ "0B" .nil ""
      (.element 2 ⟨some nsSep, "modesSupported"⟩ "00" .nil ""
        (.element 3 ⟨some nsSep, "type"⟩ "4" .nil "" .nil))

theorem reorder_gathers_rendered :
    (reorderCsipausExtensions rendered).children.ids = [2, 3, 1] ∧
    reorderCsipausExtensions (reorderCsipausExtensions rendered) =
      reorderCsipausExtensions rendered :=
  ⟨by decide, (reorder_gathers rendered (by decide)).2.2⟩

/-- Extensions that no text follows: the body without its extensions is the same before and after,
and the extensions set aside are the same but for the order inside. -/
theorem reorder_body (doc : Root QName) (distinct : doc.ids.Nodup)
    (sep : doc.tag.namespaceUri = some nsSep) (bare : doc.children.Bare QName.csipaus) :
    (setAsideExtensions (reorderCsipausExtensions doc)).1 = (setAsideExtensions doc).1 ∧
    (setAsideExtensions (reorderCsipausExtensions doc)).2.Perm
      ((setAsideExtensions doc).2.map reorderCsipausExtensions) := by
  have inside : doc.tag.outside = false := by simp [QName.outside, sep]
  have sub : ∀ name, QName.csipaus name = true → QName.outside name = true := by
    intro name csipaus
    have uri : name.namespaceUri = some nsCsipaus := by simpa [QName.csipaus] using csipaus
    simp [QName.outside, uri, nsSep, nsCsipaus]
  have again := ids_reorder distinct
  rw [reorder_eq distinct] at again ⊢
  have root : (doc.everywhere (Nodes.gather QName.csipaus)).tag.outside = false := inside
  obtain ⟨row, left, out⟩ := Nodes.without_gather doc.text sub bare.everywhere
  obtain ⟨row', left', out'⟩ := Nodes.without_everywhere doc.text sub bare
  dsimp only at row' left' out'
  have inner := (Nodes.without_layers QName.outside doc.text doc.children).takenOrder.nodup
    (List.nodup_cons.mp distinct).2
  have each : ∀ e ∈ (doc.children.without QName.outside doc.text).taken,
      reorderCsipausExtensions e = e.everywhere (Nodes.gather QName.csipaus) :=
    fun e set => reorder_eq ((List.nodup_flatMap.mp inner).1 e set)
  rw [setAside_eq again, setAside_eq distinct, root, inside]
  simp only [Bool.false_eq_true, if_false]
  rw [List.map_congr_left each]
  refine ⟨?_, out.trans out'⟩
  rw [Root.everywhere, row, row', left, left']

theorem reorder_body_rendered :
    (setAsideExtensions (reorderCsipausExtensions rendered)).1 =
      (setAsideExtensions rendered).1 :=
  (reorder_body rendered (by decide) rfl
    ⟨fun _ => rfl, trivial, fun _ => rfl, trivial, fun _ => rfl, trivial, trivial⟩).1

end Py20305.Xml
