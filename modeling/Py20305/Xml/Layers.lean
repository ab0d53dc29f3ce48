import Py20305.Lib.Documents

/-!
Validation of a body in layers (`xml/serialization.py`: `_set_aside_extensions`, `_keep_tail`,
`_extension_errors`, `_validate_layered`).

What is outside the IEEE 2030.5 namespace is set aside, and validated on its own. The schema
validator is a parameter.
-/

namespace Py20305.Xml

def nsSep : String := "urn:ieee:std:2030.5:ns"

def nsCsipaus : String := "https://csipaus.org/ns"

/-- The namespace of the extensions since CSIP-AUS 1.3. -/
def nsCsipaus13 : String := "https://csipaus.org/ns/v1.3"

/-- `etree.QName`. -/
structure QName where
  namespaceUri : Option String
  localname : String
  deriving DecidableEq, Repr

def QName.outside (name : QName) : Bool := name.namespaceUri ≠ some nsSep

/-! ### Setting extensions aside -/

/-- An element that `doc.iter()` comes to, with its ancestors, the nearest first. -/
structure Visited where
  id : Nat
  tag : QName
  ancestors : List QName

def visited (ancestors : List QName) : Nodes QName → List Visited
  | .nil => []
  | .element i tag _ children _ rest =>
      ⟨i, tag, ancestors⟩ :: (visited (tag :: ancestors) children ++ visited ancestors rest)
  | .other _ _ rest => visited ancestors rest

/-- `doc.iter()`. -/
def iter (doc : Root QName) : List Visited :=
  ⟨doc.id, doc.tag, []⟩ :: visited [doc.tag] doc.children

/-- Is the element one to set aside? -/
def Visited.found (v : Visited) : Bool :=
  v.tag.namespaceUri ≠ some nsSep && v.ancestors.all fun a => a.namespaceUri = some nsSep

/-- Detach one element, with `_keep_tail`. The root has no parent, and stays. -/
def setAsideNext (state : Root QName × List (Root QName)) (i : Nat) :
    Root QName × List (Root QName) :=
  let (doc, aside) := state
  if i = doc.id then (doc, aside ++ [doc])
  else
    let c := doc.children.cut i doc.text
    ({ doc with text := c.before, children := c.nodes }, aside ++ c.taken)

/-- `_set_aside_extensions`: the document after it, and what it returns. -/
def setAsideExtensions (doc : Root QName) : Root QName × List (Root QName) :=
  (((iter doc).filter Visited.found).map Visited.id).foldl setAsideNext (doc, [])

/-! ### Validation -/

/-- Where a schema file is taken from. -/
inductive SchemaFile where
  /-- `schema_dir`. -/
  | given (name : String)
  | packaged (name : String)
  deriving DecidableEq, Repr

/-- `EXTENSION_SCHEMAS`: the file that declares the elements of a namespace, and the namespace that
file declares. -/
def extensionSchemas : List (String × String × String) :=
  [("https://csipaus.org/ns", "csipaus-ext.xsd", "https://csipaus.org/ns"),
    ("https://csipaus.org/ns/v1.3", "csipaus-ext.xsd", "https://csipaus.org/ns"),
    ("https://csipaus.org/ns/v1.3-beta/storage", "csipaus-ext-v1.3-beta_storage.xsd",
      "https://csipaus.org/ns/v1.3-beta/storage")]

/-- `EXTENSION_RESOURCES`. -/
def extensionResources : List String := ["ConnectionPoint"]

/-- `_BASE_SCHEMA_NAMES`. -/
def baseSchemaNames : List String := ["sep2_schema_2023.xsd", "sep.xsd"]

/-- `_schema_file`, with the files there are in `schema_dir`. -/
def schemaFile (name : String) (schemaDir : Option (String → Bool)) : SchemaFile :=
  match schemaDir with
  | some has => if has name then .given name else .packaged name
  | none => .packaged name

/-- `_base_schema`. -/
def baseSchema (schemaDir : Option (String → Bool)) : SchemaFile :=
  match schemaDir.bind fun has => baseSchemaNames.find? has with
  | some name => .given name
  | none => .packaged "sep2_schema_2023.xsd"

/-- The errors of a body, with what their texts tell. -/
inductive LayerError (ε : Type) where
  | base (error : ε)
  | rootOutside (localname : String) (namespaceUri : Option String)
  | noSchemaKnown (localname : String) (namespaceUri : Option String)
  | extension (localname : String) (error : ε)
  deriving DecidableEq, Repr

/-- Write the names of one namespace in another. -/
def rename (old new : String) (name : QName) : QName :=
  if name.namespaceUri = some old then { name with namespaceUri := some new } else name

section Validation

variable {ε : Type} (schemaErrors : SchemaFile → Root QName → List ε)
  (schemaDir : Option (String → Bool))

/-- `_extension_errors`. -/
def extensionErrors (element : Root QName) : List (LayerError ε) :=
  match extensionSchemas.lookup (element.tag.namespaceUri.getD "") with
  | none => [.noSchemaKnown element.tag.localname element.tag.namespaceUri]
  | some (fileName, declared) =>
      let standalone :=
        if some declared ≠ element.tag.namespaceUri then
          element.mapTags (rename (element.tag.namespaceUri.getD "") declared)
        else element
      (schemaErrors (schemaFile fileName schemaDir) standalone).map
        (.extension element.tag.localname)

/-- `_validate_layered`. -/
def validateLayered (doc : Root QName) : List (LayerError ε) :=
  let (doc, extensions) := setAsideExtensions doc
  let errors :=
    if doc.tag.namespaceUri = some nsSep then
      (schemaErrors (baseSchema schemaDir) doc).map .base
    else if doc.tag.localname ∉ extensionResources then
      [.rootOutside doc.tag.localname doc.tag.namespaceUri]
    else []
  errors ++ extensions.flatMap (extensionErrors schemaErrors schemaDir)

end Validation

/-! ### What is set aside -/

section Aside

variable {doc : Root QName}

theorem found_eq (v : Visited) :
    v.found = (v.tag.outside && v.ancestors.all fun a => !a.outside) := by
  simp [Visited.found, QName.outside]

/-- The outermost elements outside the namespace are found. -/
theorem visited_found (ancestors : List QName) (t : Nodes QName) :
    ((visited ancestors t).filter Visited.found).map Visited.id =
      if ancestors.all fun a => !a.outside then t.outermost QName.outside else [] := by
  induction t generalizing ancestors with
  | nil => simp [visited, Nodes.outermost]
  | element i tag text children tail rest ihc ihr =>
      rw [visited, List.filter_cons, found_eq, Nodes.outermost]
      have inner := ihc (tag :: ancestors)
      have later := ihr ancestors
      cases out : tag.outside with
      | true =>
          -- nothing below it is outermost
          rw [List.all_cons, out] at inner
          cases within : ancestors.all fun a => !a.outside with
          | true =>
              rw [within] at later
              simp [inner, later]
          | false =>
              rw [within] at later
              simp [inner, later]
      | false =>
          rw [List.all_cons, out] at inner
          cases within : ancestors.all fun a => !a.outside with
          | true =>
              rw [within] at inner later
              simp [inner, later]
          | false =>
              rw [within] at inner later
              simp [inner, later]
  | other i tail rest ihr =>
      rw [visited, Nodes.outermost]
      exact ihr ancestors

theorem foldl_setAsideNext (is : List Nat) (apart : doc.id ∉ is) (aside : List (Root QName)) :
    is.foldl setAsideNext (doc, aside) =
      ({ doc with
          text := (Nodes.cutAll is doc.text doc.children).before
          children := (Nodes.cutAll is doc.text doc.children).nodes },
        aside ++ (Nodes.cutAll is doc.text doc.children).taken) := by
  induction is generalizing doc aside with
  | nil => simp [Nodes.cutAll]
  | cons i is ih =>
      simp only [List.mem_cons, not_or] at apart
      let c := doc.children.cut i doc.text
      let doc' : Root QName := { doc with text := c.before, children := c.nodes }
      have first : setAsideNext (doc, aside) i = (doc', aside ++ c.taken) :=
        if_neg (Ne.symm apart.1)
      rw [List.foldl_cons, first, ih (show doc'.id ∉ is from apart.2), Nodes.cutAll_cons, List.append_assoc]

/-- What is set aside one by one is set aside at once; a root outside the namespace is set aside
whole. -/
theorem setAside_eq (distinct : doc.ids.Nodup) : setAsideExtensions doc =
    if doc.tag.outside then (doc, [doc])
    else
      ({ doc with
          text := (doc.children.without QName.outside doc.text).before
          children := (doc.children.without QName.outside doc.text).nodes },
        (doc.children.without QName.outside doc.text).taken) := by
  obtain ⟨apart, inner⟩ := List.nodup_cons.mp distinct
  have below := visited_found [doc.tag] doc.children
  rw [List.all_cons, List.all_nil, Bool.and_true] at below
  rw [setAsideExtensions, iter, List.filter_cons, found_eq, List.all_nil, Bool.and_true]
  cases out : doc.tag.outside with
  | true =>
      rw [out] at below
      simp only [if_true, List.map_cons, below, Bool.not_true, Bool.false_eq_true, if_false,
        List.foldl_cons, List.foldl_nil, setAsideNext, List.nil_append]
  | false =>
      rw [out] at below
      simp only [Bool.false_eq_true, if_false, below, Bool.not_false, if_true]
      rw [foldl_setAsideNext _ (fun there => apart (Nodes.outermost_subset there)),
        Nodes.cutAll_eq inner, List.nil_append]

end Aside

/-- A body falls into two layers: what is left has no element outside the namespace, what is set
aside are the outermost of these, each node is in one of the two, in order, and no text outside an
extension is lost or moves past other text. -/
theorem setAside_layers (doc : Root QName) (distinct : doc.ids.Nodup)
    (sep : doc.tag.namespaceUri = some nsSep) :
    (setAsideExtensions doc).1.id = doc.id ∧ (setAsideExtensions doc).1.tag = doc.tag ∧
    Nodes.Layers QName.outside doc.text doc.children
      ⟨(setAsideExtensions doc).1.text, (setAsideExtensions doc).1.children,
        (setAsideExtensions doc).2⟩ := by
  have inside : doc.tag.outside = false := by simp [QName.outside, sep]
  rw [setAside_eq distinct, inside]
  exact ⟨rfl, rfl, Nodes.without_layers QName.outside doc.text doc.children⟩

/-- A control with an import limit, as the client reads it from a server. -/
def limited : Root QName where
  id := 0
  tag := ⟨some nsSep, "DERControlBase"⟩
  text := ""
  children :=
    .element 1 ⟨some nsCsipaus, "opModImpLimW"⟩ ""
      (.element 2 ⟨some nsCsipaus, "value"⟩ "1500" .nil "" .nil) "stray"
      (.other 3 "" (.element 4 ⟨some nsSep, "opModEnergize"⟩ "true" .nil "" .nil))

theorem setAside_layers_limited :
    (setAsideExtensions limited).2.map Root.ids = [[1, 2]] ∧
    Nodes.Layers QName.outside limited.text limited.children
      ⟨(setAsideExtensions limited).1.text, (setAsideExtensions limited).1.children,
        (setAsideExtensions limited).2⟩ :=
  ⟨by decide, (setAside_layers limited (by decide) rfl).2.2⟩

/-! ### The namespace of CSIP-AUS 1.3 -/

section Moved

variable {ε : Type} {schemaErrors : SchemaFile → Root QName → List ε}
  {schemaDir : Option (String → Bool)} {doc e : Root QName}

/-- Write the CSIP-AUS extensions in the namespace of 1.3. -/
def moved (name : QName) : QName := rename nsCsipaus nsCsipaus13 name

theorem outside_moved (name : QName) : (moved name).outside = name.outside := by
  unfold moved rename
  split
  · rename_i csipaus
    simp [QName.outside, csipaus, nsSep, nsCsipaus, nsCsipaus13]
  · rfl

theorem moved_eq_self {name : QName} (other : name.namespaceUri ≠ some nsCsipaus) :
    moved name = name := if_neg other

/-- The validator reads the 1.3 elements back. -/
theorem rename_moved {name : QName} (old : name.namespaceUri ≠ some nsCsipaus13) :
    rename nsCsipaus13 nsCsipaus (moved name) = name := by
  by_cases csipaus : name.namespaceUri = some nsCsipaus
  · have now : moved name = ⟨some nsCsipaus13, name.localname⟩ := if_pos csipaus
    rw [now]
    refine (if_pos rfl).trans ?_
    rw [← csipaus]
  · rw [moved_eq_self csipaus]
    exact if_neg old

theorem localname_moved (name : QName) : (moved name).localname = name.localname := by
  unfold moved rename
  split <;> rfl

theorem extensionErrors_moved (old : ∀ tag ∈ e.tags, tag.namespaceUri ≠ some nsCsipaus13)
    (csipaus : e.tag.namespaceUri = some nsCsipaus) :
    extensionErrors schemaErrors schemaDir (e.mapTags moved) =
      extensionErrors schemaErrors schemaDir e := by
  have now : (moved e.tag).namespaceUri = some nsCsipaus13 := by
    rw [moved, rename, if_pos csipaus]
  have back : (e.mapTags moved).mapTags (rename nsCsipaus13 nsCsipaus) = e := by
    have same : e.mapTags (rename nsCsipaus13 nsCsipaus ∘ moved) = e :=
      Root.mapTags_eq_self fun tag there => rename_moved (old tag there)
    rw [Root.mapTags, Root.mapTags, Nodes.mapTags_mapTags]
    exact same
  have listed : extensionSchemas.lookup nsCsipaus = some ("csipaus-ext.xsd", nsCsipaus) := by decide
  have listed13 : extensionSchemas.lookup nsCsipaus13 = some ("csipaus-ext.xsd", nsCsipaus) := by
    decide
  have differ : some nsCsipaus ≠ some nsCsipaus13 := by decide
  have tag : (e.mapTags moved).tag = moved e.tag := rfl
  rw [extensionErrors, extensionErrors, tag, now, csipaus, Option.getD_some, Option.getD_some,
    listed, listed13, localname_moved]
  simp only [if_pos differ, ne_eq, not_true_eq_false, if_false, back]

theorem setAside_moved (distinct : doc.ids.Nodup) :
    setAsideExtensions (doc.mapTags moved) =
      ((setAsideExtensions doc).1.mapTags moved,
        (setAsideExtensions doc).2.map (Root.mapTags moved)) := by
  have distinct' : (doc.mapTags moved).ids.Nodup := by
    change (doc.id :: (doc.children.mapTags moved).ids).Nodup
    rw [Nodes.ids_mapTags]
    exact distinct
  have root : (doc.mapTags moved).tag.outside = doc.tag.outside := outside_moved doc.tag
  have below : (doc.mapTags moved).children.without QName.outside (doc.mapTags moved).text = _ :=
    Nodes.without_mapTags doc.text outside_moved
  rw [setAside_eq distinct', setAside_eq distinct, root, below]
  cases doc.tag.outside with
  | true => rfl
  | false => rfl

/-- Of a body that the client writes: an element is in the namespace, or an extension of one. -/
theorem tags_aside (distinct : doc.ids.Nodup) (set : e ∈ (setAsideExtensions doc).2) :
    e.tags ⊆ doc.tags := by
  rw [setAside_eq distinct] at set
  cases out : doc.tag.outside with
  | true =>
      rw [out] at set
      rw [List.mem_singleton.mp set]
      exact List.Subset.refl _
  | false =>
      rw [out] at set
      exact List.subset_cons_of_subset _ (Nodes.tags_taken_subset set)

/-- What is left of a body has nothing to move. -/
theorem moved_left (distinct : doc.ids.Nodup) (sep : doc.tag.namespaceUri = some nsSep) :
    (setAsideExtensions doc).1.mapTags moved = (setAsideExtensions doc).1 := by
  obtain ⟨-, tag, layers⟩ := setAside_layers doc distinct sep
  have other (name : QName) (inside : name.outside = false) :
      name.namespaceUri ≠ some nsCsipaus := by
    have sep : name.namespaceUri = some nsSep := by simpa [QName.outside] using inside
    rw [sep]
    decide
  refine Root.mapTags_eq_self fun name there => moved_eq_self (other name ?_)
  rcases List.mem_cons.mp there with rfl | below
  · rw [tag]
    simp [QName.outside, sep]
  · exact layers.left name below

end Moved

/-- A body is found as valid with its CSIP-AUS extensions in the namespace of 1.3 as with them in
the one they had before: the errors are the same. -/
theorem validateLayered_moved {ε : Type} (schemaErrors : SchemaFile → Root QName → List ε)
    (schemaDir : Option (String → Bool)) (doc : Root QName) (distinct : doc.ids.Nodup)
    (resource : doc.tag.namespaceUri = some nsSep ∨ doc.tag.localname ∈ extensionResources)
    (old : ∀ tag ∈ doc.tags, tag.namespaceUri ≠ some nsCsipaus13)
    (alone : ∀ e ∈ (setAsideExtensions doc).2, e.tag.namespaceUri = some nsCsipaus ∨
      ∀ tag ∈ e.tags, tag.namespaceUri ≠ some nsCsipaus) :
    validateLayered schemaErrors schemaDir (doc.mapTags moved) =
      validateLayered schemaErrors schemaDir doc := by
  have each : ∀ e ∈ (setAsideExtensions doc).2,
      extensionErrors schemaErrors schemaDir (e.mapTags moved) =
        extensionErrors schemaErrors schemaDir e := by
    intro e set
    rcases alone e set with csipaus | none_
    · exact extensionErrors_moved (fun tag there => old tag (tags_aside distinct set there)) csipaus
    · rw [Root.mapTags_eq_self fun tag there => moved_eq_self (none_ tag there)]
  have extensions : ((setAsideExtensions doc).2.map (Root.mapTags moved)).flatMap
      (extensionErrors schemaErrors schemaDir) =
        (setAsideExtensions doc).2.flatMap (extensionErrors schemaErrors schemaDir) := by
    rw [List.flatMap_map]
    exact List.flatMap_congr each
  unfold validateLayered
  rw [setAside_moved distinct]
  dsimp only
  rw [extensions]
  by_cases sep : doc.tag.namespaceUri = some nsSep
  · rw [moved_left distinct sep]
  · have out : doc.tag.outside = true := by simpa [QName.outside] using sep
    have whole : (setAsideExtensions doc).1 = doc := by
      rw [setAside_eq distinct, out]
      rfl
    have name := resource.resolve_left sep
    have still : (moved doc.tag).namespaceUri ≠ some nsSep := by
      have outside := (outside_moved doc.tag).trans out
      simpa [QName.outside] using outside
    rw [whole, if_neg (show (doc.mapTags moved).tag.namespaceUri ≠ some nsSep from still),
      if_neg sep, if_neg, if_neg (not_not.mpr name)]
    rw [not_not]
    exact (localname_moved doc.tag).symm ▸ name

/-- The validator is shown the same elements. -/
theorem validateLayered_moved_limited :
    validateLayered (fun file r => [(file, r)]) none (limited.mapTags moved) =
      validateLayered (fun file r => [(file, r)]) none limited :=
  validateLayered_moved _ none limited (by decide) (.inl rfl) (by decide) (by decide)

end Py20305.Xml
