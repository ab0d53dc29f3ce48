import Py20305.Lib.Bytes
import Py20305.Profile.Editions

/-!
Outbound restriction and audit (`server_profile.py`).

`restrict` leaves out of a model what the profile does not permit, and `audit` reports it in a
payload. `restrict` goes through the whole model and `audit` does not look into an element that is
new in its type, nor for the attributes of global elements below the root, so a model that `audit`
accepts is not always sent as it is (`agree_iff`).

A model is its filled fields, in the order of its class: a field that holds a list stands once for
each item. A field of the class `DERControlType2` holds a bitmap. Left out: what is inbound, the
extensions, and wildcards.
-/

namespace Py20305.Profile

/-! ### Profiles -/

inductive Edition where
  | e2018
  | e2023
  deriving DecidableEq, Repr

/-- `Feature`. -/
structure Feature where
  elements : List Item
  modeBits2 : List ℕ := []

/-- `ServerProfile`. -/
structure ServerProfile where
  base : Option Edition := none
  features : List String := []

/-- The schemas, the table of features, and the profile. -/
structure Outbound extends Editions where
  table : Dict String Feature
  profile : ServerProfile

namespace Outbound

variable (o : Outbound)

/-- `is_2018`. -/
def is2018 : Bool := o.profile.base ≠ some .e2023

/-- `permits_item`. -/
def permitsItem (item : Item) : Bool :=
  !o.is2018 || o.profile.features.any fun f => (o.table.get? f).any fun feature =>
    item ∈ feature.elements

/-- `permits`. -/
def permits (parent : String) (name : Key) : Bool :=
  match o.newItem parent name with
  | none => true
  | some item => o.permitsItem item

/-- `mode_bits2`. -/
def modeBits2 : List ℕ :=
  if o.is2018 then o.profile.features.flatMap fun f => ((o.table.get? f).map (·.modeBits2)).getD []
  else List.range 10

/-- `mask_modes2`. -/
def maskModes2 (bits : ℕ) : ℕ :=
  bits &&& o.modeBits2.foldl (fun allowed bit => allowed ||| 1 <<< bit) 0

/-- `_root_attributes_2023`. -/
def rootAttributes2023 : List String :=
  o.new.rootAttributes.filter fun name => name ∉ o.old.rootAttributes

end Outbound

/-! ### Models -/

inductive Kind where
  | element
  | attribute
  | text
  deriving DecidableEq, Repr

/-- A field of a class. -/
structure Var where
  kind : Kind
  localName : String
  required : Bool := false
  deriving DecidableEq, Repr

def Var.key (var : Var) : Key :=
  if var.kind = .attribute then .attribute var.localName else .element var.localName

/-- The filled fields of a model: with a plain value, a bitmap of `DERControlType2`, or another
model, whose class is that of a type. -/
inductive Fields where
  | nil
  | plain (var : Var) (value : String) (rest : Fields)
  | modes (var : Var) (raw : Bytes) (rest : Fields)
  | model (var : Var) (typeId : String) (fields rest : Fields)
  deriving DecidableEq, Repr

structure Model where
  typeId : String
  fields : Fields
  deriving DecidableEq, Repr

namespace Outbound

variable (o : Outbound)

/-- `_restrict_modes2`. -/
def restrictModes2 (raw : Bytes) : Bytes :=
  let bits := ofBytes raw
  let masked := o.maskModes2 bits
  if masked = bits then raw else toBytes (if raw.length = 0 then 4 else raw.length) masked

/-- Does `_restrict` leave the field out? -/
def drops (typeId : String) (var : Var) : Bool :=
  (var.kind = .attribute && var.localName ∈ o.rootAttributes2023) ||
    (!var.required && !o.permits typeId var.key)

/-- `_restrict`, of the fields of a model. -/
def restrictFields : String → Fields → Fields
  | _, .nil => .nil
  | typeId, .plain var value rest =>
      if o.drops typeId var then restrictFields typeId rest
      else .plain var value (restrictFields typeId rest)
  | typeId, .modes var raw rest =>
      if o.drops typeId var then restrictFields typeId rest
      else .modes var (o.restrictModes2 raw) (restrictFields typeId rest)
  | typeId, .model var type fields rest =>
      if o.drops typeId var then restrictFields typeId rest
      else .model var type (restrictFields type fields) (restrictFields typeId rest)

/-- `restrict`. -/
def restrict (m : Model) : Model :=
  if o.is2018 then ⟨m.typeId, o.restrictFields m.typeId m.fields⟩ else m

/-- `audit`. -/
def audit (xml : Document) : List Item :=
  if o.is2018 then
    ((o.borrowedItems xml).filter fun item => !o.permitsItem item) ++
      ((xml.attributes.mergeSort fun a b => a ≤ b).filter (· ∈ o.rootAttributes2023)).map
        fun name => ⟨"(root)", .attribute name⟩
  else []

end Outbound

/-! ### The serializer -/

namespace Fields

/-- The attributes the serializer writes. -/
def attributes : Fields → List String
  | nil => []
  | plain var _ rest | modes var _ rest | model var _ _ rest =>
      (if var.kind = .attribute then [var.localName] else []) ++ rest.attributes

/-- The elements the serializer writes. -/
def children : Fields → Elements
  | nil => .nil
  | plain var _ rest | modes var _ rest =>
      if var.kind = .element then .cons var.localName [] .nil rest.children else rest.children
  | model var _ fields rest =>
      if var.kind = .element then
        .cons var.localName fields.attributes fields.children rest.children
      else rest.children

end Fields

/-- The payload of a model: the serializer writes the filled fields. -/
def serialize (name : String) (m : Model) : Document :=
  ⟨name, m.fields.attributes, m.fields.children⟩

/-! ### What is looked at -/

namespace Fields

/-- The fields of a model have the types of their places in the schema. -/
def Typed (s : Schema) : String → Fields → Prop
  | _, nil => True
  | position, plain _ _ rest => rest.Typed s position
  | position, modes var _ rest =>
      (var.kind = .element ∧
        (s.effective position).1.get? var.localName = some "DERControlType2") ∧
      rest.Typed s position
  | position, model var type fields rest =>
      (var.kind = .element ∧ (s.effective position).1.get? var.localName = some type ∧
        type ≠ "DERControlType2") ∧
      fields.Typed s type ∧ rest.Typed s position

/-- The fields of a model itself. -/
def vars : Fields → List Var
  | nil => []
  | plain var _ rest | modes var _ rest | model var _ _ rest => var :: rest.vars

end Fields

namespace Outbound

variable (o : Outbound)

/-- What is reported of a field for itself, on a place of a type, at the root or below it. -/
def itemsOf (root : Bool) (position : String) (var : Var) : List Item :=
  if var.kind = .text then []
  else ((o.newItem position var.key).toList.filter fun item => !o.permitsItem item) ++
    if root ∧ var.kind = .attribute ∧ var.localName ∈ o.rootAttributes2023 then
      [⟨"(root)", var.key⟩] else []

/-- Are the fields of a field's model looked at? -/
def looksInto (position : String) (var : Var) (type : String) : Bool :=
  (o.newItem position var.key).isNone && type ≠ ""

/-- The items that are reported, each with its field. -/
def reported : Bool → String → Fields → List (Item × Var)
  | _, _, .nil => []
  | root, position, .plain var _ rest | root, position, .modes var _ rest =>
      (o.itemsOf root position var).map (·, var) ++ reported root position rest
  | root, position, .model var type fields rest =>
      (o.itemsOf root position var).map (·, var) ++
        (if o.looksInto position var type then reported false type fields else []) ++
        reported root position rest

/-- A field is left out somewhere. -/
def strips : String → Fields → Bool
  | _, .nil => false
  | typeId, .plain var _ rest | typeId, .modes var _ rest => o.drops typeId var || strips typeId rest
  | typeId, .model var type fields rest =>
      o.drops typeId var || strips type fields || strips typeId rest

/-- A field is left out that is not reported for itself, on a place that is looked at, or anywhere
in a model whose fields are not looked at. -/
def hides : Bool → String → String → Fields → Bool
  | _, _, _, .nil => false
  | root, position, typeId, .plain var _ rest | root, position, typeId, .modes var _ rest =>
      (o.drops typeId var && (o.itemsOf root position var).isEmpty) ||
        hides root position typeId rest
  | root, position, typeId, .model var type fields rest =>
      (o.drops typeId var && (o.itemsOf root position var).isEmpty) ||
        (if o.looksInto position var type then hides false type type fields
          else o.strips type fields) ||
        hides root position typeId rest

/-- The fields with their bitmaps limited to the bits of the profile. -/
def masked : Fields → Fields
  | .nil => .nil
  | .plain var value rest => .plain var value (masked rest)
  | .modes var raw rest => .modes var (o.restrictModes2 raw) (masked rest)
  | .model var type fields rest => .model var type (masked fields) (masked rest)

end Outbound

/-! ### Restriction -/

section Restriction

variable {o : Outbound} {typeId : String}

theorem maskModes2_maskModes2 (bits : ℕ) : o.maskModes2 (o.maskModes2 bits) = o.maskModes2 bits := by
  rw [Outbound.maskModes2, Outbound.maskModes2, Nat.and_assoc, Nat.and_self]

theorem restrictModes2_restrictModes2 (raw : Bytes) :
    o.restrictModes2 (o.restrictModes2 raw) = o.restrictModes2 raw := by
  by_cases same : o.maskModes2 (ofBytes raw) = ofBytes raw
  · have kept : o.restrictModes2 raw = raw := if_pos same
    rw [kept, kept]
  · have cut : o.restrictModes2 raw =
        toBytes (if raw.length = 0 then 4 else raw.length) (o.maskModes2 (ofBytes raw)) :=
      if_neg same
    have some_ : raw.length ≠ 0 := by
      intro nothing
      rw [List.length_eq_zero_iff.mp nothing] at same
      exact same (Nat.zero_and _)
    have fits : o.maskModes2 (ofBytes raw) < 256 ^ raw.length :=
      Nat.and_le_left.trans_lt (ofBytes_lt raw)
    rw [if_neg some_] at cut
    rw [cut]
    refine if_pos ?_
    rw [ofBytes_toBytes fits, maskModes2_maskModes2]

theorem restrictFields_restrictFields (fields : Fields) :
    o.restrictFields typeId (o.restrictFields typeId fields) = o.restrictFields typeId fields := by
  induction fields generalizing typeId with
  | nil => rfl
  | plain var value rest ih =>
      rw [Outbound.restrictFields]
      split
      · exact ih
      · rename_i kept
        rw [Outbound.restrictFields, if_neg kept, ih]
  | modes var raw rest ih =>
      rw [Outbound.restrictFields]
      split
      · exact ih
      · rename_i kept
        rw [Outbound.restrictFields, if_neg kept, ih, restrictModes2_restrictModes2]
  | model var type fields rest ihFields ih =>
      rw [Outbound.restrictFields]
      split
      · exact ih
      · rename_i kept
        rw [Outbound.restrictFields, if_neg kept, ih, ihFields]

theorem masked_masked (fields : Fields) : o.masked (o.masked fields) = o.masked fields := by
  induction fields with
  | nil => rfl
  | plain var value rest ih => rw [Outbound.masked, Outbound.masked, ih]
  | modes var raw rest ih =>
      rw [Outbound.masked, Outbound.masked, ih, restrictModes2_restrictModes2]
  | model var type fields rest ihFields ih => rw [Outbound.masked, Outbound.masked, ih, ihFields]

/-- Where no field is left out the bitmaps are limited. -/
theorem restrictFields_eq_masked {fields : Fields} (kept : o.strips typeId fields = false) :
    o.restrictFields typeId fields = o.masked fields := by
  induction fields generalizing typeId with
  | nil => rfl
  | plain var value rest ih =>
      obtain ⟨here, later⟩ := Bool.or_eq_false_iff.mp kept
      rw [Outbound.restrictFields, here, ih later]
      rfl
  | modes var raw rest ih =>
      obtain ⟨here, later⟩ := Bool.or_eq_false_iff.mp kept
      rw [Outbound.restrictFields, here, ih later]
      rfl
  | model var type fields rest ihFields ih =>
      obtain ⟨both, later⟩ := Bool.or_eq_false_iff.mp kept
      obtain ⟨here, inside⟩ := Bool.or_eq_false_iff.mp both
      rw [Outbound.restrictFields, here, ih later, ihFields inside]
      rfl

/-- How many fields are filled. -/
def Fields.count : Fields → ℕ
  | nil => 0
  | plain _ _ rest | modes _ _ rest => rest.count + 1
  | model _ _ fields rest => fields.count + rest.count + 1

theorem count_masked (fields : Fields) : (o.masked fields).count = fields.count := by
  induction fields with
  | nil => rfl
  | plain var value rest ih => rw [Outbound.masked, Fields.count, Fields.count, ih]
  | modes var raw rest ih => rw [Outbound.masked, Fields.count, Fields.count, ih]
  | model var type fields rest ihFields ih =>
      rw [Outbound.masked, Fields.count, Fields.count, ih, ihFields]

theorem count_restrictFields (fields : Fields) :
    (o.restrictFields typeId fields).count ≤ fields.count ∧
      (o.strips typeId fields = true → (o.restrictFields typeId fields).count < fields.count) := by
  induction fields generalizing typeId with
  | nil => exact ⟨le_rfl, fun strips => by cases strips⟩
  | plain var value rest ih | modes var raw rest ih =>
      obtain ⟨upper, lower⟩ := @ih typeId
      rw [Outbound.restrictFields, Outbound.strips]
      split
      · rename_i left
        rw [Fields.count]
        exact ⟨by omega, fun _ => by omega⟩
      · rename_i kept
        rw [Fields.count, Fields.count, Bool.eq_false_iff.mpr kept, Bool.false_or]
        exact ⟨by omega, fun strips => by have := lower strips; omega⟩
  | model var type fields rest ihFields ih =>
      obtain ⟨upper, lower⟩ := @ih typeId
      obtain ⟨inner, fewer⟩ := @ihFields type
      rw [Outbound.restrictFields, Outbound.strips]
      split
      · rename_i left
        rw [Fields.count]
        exact ⟨by omega, fun _ => by omega⟩
      · rename_i kept
        rw [Fields.count, Fields.count, Bool.eq_false_iff.mpr kept, Bool.false_or]
        refine ⟨by omega, fun strips => ?_⟩
        rcases (Bool.or_eq_true _ _).mp strips with inside | later
        · have := fewer inside
          omega
        · have := lower later
          omega

/-- A model is the same up to its bitmaps where no field is left out. -/
theorem masked_restrictFields_iff (fields : Fields) :
    o.masked (o.restrictFields typeId fields) = o.masked fields ↔
      o.strips typeId fields = false := by
  constructor
  · intro same
    rw [Bool.eq_false_iff]
    intro strips
    have fewer := (count_restrictFields fields).2 strips
    have counts := congrArg Fields.count same
    rw [count_masked, count_masked] at counts
    omega
  · intro kept
    rw [restrictFields_eq_masked kept, masked_masked]

end Restriction

/-! ### Audit -/

section Audit

variable {o : Outbound} {root : Bool} {position typeId : String} {var : Var} {item : Item}

/-- The audit of a payload finds the item, below its root element. -/
def Outbound.Finds (o : Outbound) (root : Bool) (position : String) (attributes : List String)
    (children : Elements) (item : Item) : Prop :=
  ((item ∈ o.walkAttributes position attributes ∨ item ∈ o.walkChildren position children) ∧
      o.permitsItem item = false) ∨
    root = true ∧ ∃ name ∈ attributes, name ∈ o.rootAttributes2023 ∧
      item = ⟨"(root)", .attribute name⟩

theorem mem_itemsOf : item ∈ o.itemsOf root position var ↔ var.kind ≠ .text ∧
    ((o.newItem position var.key = some item ∧ o.permitsItem item = false) ∨
      (root = true ∧ var.kind = .attribute ∧ var.localName ∈ o.rootAttributes2023) ∧
        item = ⟨"(root)", var.key⟩) := by
  unfold Outbound.itemsOf
  by_cases text : var.kind = .text
  · simp [text]
  · rw [if_neg text, List.mem_append]
    simp only [text, not_false_eq_true, true_and, ne_eq, List.mem_filter, Option.mem_toList,
      Bool.not_eq_true', List.mem_ite_nil_right, List.mem_singleton]

/-- What the audit finds of a field and of the others. -/
theorem finds_attribute {name : String} {attributes : List String} {children : Elements} :
    o.Finds root position (name :: attributes) children item ↔
      (o.newItem position (.attribute name) = some item ∧ o.permitsItem item = false) ∨
        (root = true ∧ name ∈ o.rootAttributes2023 ∧ item = ⟨"(root)", .attribute name⟩) ∨
        o.Finds root position attributes children item := by
  have shuffle {a b c d e p r : Prop} : ((a ∨ b) ∨ c) ∧ p ∨ r ∧ (d ∨ e) ↔
      a ∧ p ∨ r ∧ d ∨ (b ∨ c) ∧ p ∨ r ∧ e := by tauto
  simp only [Outbound.Finds, walkAttributes_eq, List.mem_filterMap, List.mem_cons,
    exists_eq_or_imp]
  exact shuffle

theorem finds_element {name : String} {attributes inside : List String}
    {children rest : Elements} :
    o.Finds root position attributes (.cons name inside children rest) item ↔
      ((∃ type, (o.new.effective position).1.get? name = some type ∧
          (o.newItem position (.element name) = some item ∨
            o.newItem position (.element name) = none ∧ type ≠ "" ∧
              (item ∈ o.walkAttributes type inside ∨ item ∈ o.walkChildren type children))) ∧
        o.permitsItem item = false) ∨ o.Finds root position attributes rest item := by
  have here : item ∈ o.walkChildren position (.cons name inside children rest) ↔
      (∃ type, (o.new.effective position).1.get? name = some type ∧
          (o.newItem position (.element name) = some item ∨
            o.newItem position (.element name) = none ∧ type ≠ "" ∧
              (item ∈ o.walkAttributes type inside ∨ item ∈ o.walkChildren type children))) ∨
        item ∈ o.walkChildren position rest := by
    rw [Editions.walkChildren, List.mem_append]
    refine or_congr_left ?_
    cases (o.new.effective position).1.get? name with
    | none => simp
    | some type =>
        cases o.newItem position (.element name) with
        | some found => simp [eq_comm]
        | none => by_cases none_ : type = "" <;> simp [none_]
  have shuffle {a b c p q : Prop} : (a ∨ b ∨ c) ∧ p ∨ q ↔ b ∧ p ∨ (a ∨ c) ∧ p ∨ q := by tauto
  rw [Outbound.Finds, Outbound.Finds, here]
  exact shuffle

theorem not_finds_nil : ¬ o.Finds root position [] .nil item := by
  simp [Outbound.Finds, walkAttributes_eq, Editions.walkChildren]

/-- What the audit finds of a field that holds no model. -/
theorem finds_plain {attributes : List String} {children : Elements} :
    o.Finds root position
      ((if var.kind = .attribute then [var.localName] else []) ++ attributes)
      (if var.kind = .element then .cons var.localName [] .nil children else children) item ↔
      item ∈ o.itemsOf root position var ∨ o.Finds root position attributes children item := by
  obtain ⟨kind, name, required⟩ := var
  rw [mem_itemsOf]
  cases kind with
  | element =>
      have known : (∃ type, (o.new.effective position).1.get? name = some type ∧
          o.newItem position (.element name) = some item) ↔
            o.newItem position (.element name) = some item :=
        ⟨fun both => both.choose_spec.2, fun new =>
          (Option.isSome_iff_exists.mp (isSome_of_newItem new)).imp fun type has => ⟨has, new⟩⟩
      simp only [reduceCtorEq, if_false, if_true, List.nil_append, finds_element, walkAttributes_eq,
        List.filterMap_nil, List.not_mem_nil, Editions.walkChildren, or_self, and_false, or_false,
        known, Var.key, ne_eq, not_false_eq_true, true_and, false_and]
  | «attribute» =>
      simp only [reduceCtorEq, if_false, if_true, List.singleton_append, finds_attribute, Var.key,
        ne_eq, not_false_eq_true, true_and, or_assoc, and_assoc]
  | text =>
      simp only [reduceCtorEq, if_false, List.nil_append, ne_eq, not_true_eq_false, false_and,
        false_or]

/-- What the audit finds of a field that holds a model. -/
theorem finds_model {type : String} {inside attributes : List String} {within children : Elements}
    (kind : var.kind = .element)
    (typed : (o.new.effective position).1.get? var.localName = some type) :
    o.Finds root position attributes (.cons var.localName inside within children) item ↔
      item ∈ o.itemsOf root position var ∨
        (o.looksInto position var type = true ∧ o.Finds false type inside within item) ∨
        o.Finds root position attributes children item := by
  have key : var.key = .element var.localName := by simp [Var.key, kind]
  rw [mem_itemsOf, finds_element, Outbound.looksInto, key]
  simp only [typed, Option.some.injEq, exists_eq_left', kind, ne_eq, reduceCtorEq, not_false_eq_true,
    true_and, false_and, and_false, or_false, Bool.and_eq_true, Option.isNone_iff_eq_none,
    decide_eq_true_eq, Outbound.Finds, Bool.false_eq_true]
  simp only [or_and_right, or_assoc, and_assoc]

theorem exists_mem_map {items : List Item} :
    (∃ other, (item, other) ∈ items.map (·, var)) ↔ item ∈ items := by
  simp

/-- What the audit finds is what is reported of the fields. -/
theorem exists_mem_reported_iff {fields : Fields} (typed : fields.Typed o.new position) :
    (∃ var, (item, var) ∈ o.reported root position fields) ↔
      o.Finds root position fields.attributes fields.children item := by
  induction fields generalizing root position with
  | nil => simp [Outbound.reported, Fields.attributes, Fields.children, not_finds_nil]
  | plain var value rest ih =>
      simp only [Outbound.reported, List.mem_append, exists_or, exists_mem_map, ih typed,
        Fields.attributes, Fields.children, finds_plain]
  | modes var raw rest ih =>
      simp only [Outbound.reported, List.mem_append, exists_or, exists_mem_map, ih typed.2,
        Fields.attributes, Fields.children, finds_plain]
  | model var type fields rest ihFields ih =>
      obtain ⟨⟨kind, known, -⟩, inside, later⟩ := typed
      have split : (∃ other, (item, other) ∈ if o.looksInto position var type = true then
          o.reported false type fields else []) ↔ o.looksInto position var type = true ∧
            o.Finds false type fields.attributes fields.children item := by
        rw [← ihFields inside]
        split <;> simp_all
      simp only [Outbound.reported, List.mem_append, exists_or, exists_mem_map, split, ih later,
        Fields.attributes, Fields.children, kind, reduceCtorEq, if_false, if_true, List.nil_append,
        or_assoc]
      exact (finds_model kind known).symm

/-- The audit of a payload reports the items of the fields. -/
theorem mem_audit_iff (is2018 : o.is2018 = true) {m : Model} {name : String}
    (root : o.new.roots.get? name = some position) (typed : m.fields.Typed o.new position) :
    item ∈ o.audit (serialize name m) ↔ ∃ var, (item, var) ∈ o.reported true position m.fields := by
  rw [exists_mem_reported_iff typed, Outbound.audit, if_pos is2018, Editions.borrowedItems]
  simp only [serialize, root, List.mem_append, List.mem_filter, List.mem_map, Bool.not_eq_true',
    List.mem_mergeSort, decide_eq_true_eq, Outbound.Finds, true_and, and_assoc]
  simp only [eq_comm]

theorem required_of_kept (kept : o.drops position var = false)
    (found : item ∈ o.itemsOf false position var) : var.required = true := by
  obtain ⟨-, ⟨new, refused⟩ | ⟨⟨below, -⟩, -⟩⟩ := mem_itemsOf.mp found
  · have permits : o.permits position var.key = false := by
      rw [Outbound.permits, new]
      exact refused
    have optional := (Bool.or_eq_false_iff.mp kept).2
    rw [permits, Bool.not_false, Bool.and_true] at optional
    exact (Bool.not_eq_false' ..).mp optional
  · cases below

theorem required_of_listed {other : Var} (kept : ¬ o.drops position other = true)
    (listed : (item, var) ∈ (o.itemsOf false position other).map (·, other)) :
    var.required = true := by
  obtain ⟨item', found, same⟩ := List.mem_map.mp listed
  cases same
  exact required_of_kept (Bool.eq_false_iff.mpr kept) found

/-- Of a restricted model only required fields are reported below the root. -/
theorem required_of_reported {fields : Fields} (typed : fields.Typed o.new position)
    (reports : (item, var) ∈ o.reported false position (o.restrictFields position fields)) :
    var.required = true := by
  induction fields generalizing position with
  | nil => cases reports
  | plain other value rest ih =>
      rw [Outbound.restrictFields] at reports
      split at reports
      · exact ih typed reports
      · rename_i kept
        rcases List.mem_append.mp reports with listed | later
        · exact required_of_listed kept listed
        · exact ih typed later
  | modes other raw rest ih =>
      rw [Outbound.restrictFields] at reports
      split at reports
      · exact ih typed.2 reports
      · rename_i kept
        rcases List.mem_append.mp reports with listed | later
        · exact required_of_listed kept listed
        · exact ih typed.2 later
  | model other type fields rest ihFields ih =>
      obtain ⟨-, inside, typed⟩ := typed
      rw [Outbound.restrictFields] at reports
      split at reports
      · exact ih typed reports
      · rename_i kept
        rcases List.mem_append.mp reports with both | later
        · rcases List.mem_append.mp both with listed | within
          · exact required_of_listed kept listed
          · split at within
            · exact ihFields inside within
            · cases within
        · exact ih typed later

/-- At the root, others are those that the type of the model permits and that of the element does
not. -/
theorem reported_root_iff {fields : Fields} (typed : fields.Typed o.new position) :
    (∀ item var, (item, var) ∈ o.reported true position (o.restrictFields typeId fields) →
      var.required = true) ↔
    ∀ var ∈ fields.vars, var.required = false → o.drops typeId var = false →
      o.itemsOf true position var = [] := by
  have here (var : Var) : (∀ item other, (item, other) ∈ (o.itemsOf true position var).map (·, var) →
      other.required = true) ↔ (var.required = false → o.itemsOf true position var = []) := by
    constructor
    · intro each optional
      refine List.eq_nil_iff_forall_not_mem.mpr fun item found => ?_
      have required := each item var (List.mem_map_of_mem found)
      rw [optional] at required
      cases required
    · intro none_ item other listed
      obtain ⟨item', found, same⟩ := List.mem_map.mp listed
      cases same
      by_contra optional
      rw [none_ (Bool.eq_false_iff.mpr optional)] at found
      cases found
  induction fields with
  | nil => simp [Outbound.restrictFields, Outbound.reported, Fields.vars]
  | plain var value rest ih =>
      rw [Outbound.restrictFields, Fields.vars, List.forall_mem_cons]
      refine Iff.trans ?_ (and_congr_right' (ih typed))
      split
      · rename_i left
        simp [left]
      · rename_i kept
        simp only [Outbound.reported, List.mem_append, or_imp, forall_and, here,
          Bool.eq_false_iff.mpr kept, true_imp_iff]
  | modes var raw rest ih =>
      rw [Outbound.restrictFields, Fields.vars, List.forall_mem_cons]
      refine Iff.trans ?_ (and_congr_right' (ih typed.2))
      split
      · rename_i left
        simp [left]
      · rename_i kept
        simp only [Outbound.reported, List.mem_append, or_imp, forall_and, here,
          Bool.eq_false_iff.mpr kept, true_imp_iff]
  | model var type fields rest ihFields ih =>
      obtain ⟨-, inside, later⟩ := typed
      have within : ∀ item other, ((item, other) ∈ if o.looksInto position var type = true then
          o.reported false type (o.restrictFields type fields) else []) →
            other.required = true := by
        intro item other listed
        split at listed
        · exact required_of_reported inside listed
        · cases listed
      rw [Outbound.restrictFields, Fields.vars, List.forall_mem_cons]
      refine Iff.trans ?_ (and_congr_right' (ih later))
      split
      · rename_i left
        simp [left]
      · rename_i kept
        simp only [Outbound.reported, List.mem_append, or_imp, forall_and, here,
          Bool.eq_false_iff.mpr kept, true_imp_iff]
        rw [and_iff_left within]

theorem Fields.Typed.restrictFields {fields : Fields} (typed : fields.Typed o.new position) :
    (o.restrictFields typeId fields).Typed o.new position := by
  induction fields generalizing typeId position with
  | nil => trivial
  | plain var value rest ih =>
      rw [Outbound.restrictFields]
      split
      · exact ih typed
      · exact ih typed
  | modes var raw rest ih =>
      rw [Outbound.restrictFields]
      split
      · exact ih typed.2
      · exact ⟨typed.1, ih typed.2⟩
  | model var type fields rest ihFields ih =>
      obtain ⟨here, inside, later⟩ := typed
      rw [Outbound.restrictFields]
      split
      · exact ih later
      · exact ⟨here, ihFields inside, ih later⟩

/-- Where nothing is reported, a field is left out where one is hidden. -/
theorem strips_eq_hides {fields : Fields} (none_ : o.reported root position fields = []) :
    o.strips typeId fields = o.hides root position typeId fields := by
  have here {var : Var} (none_ : (o.itemsOf root position var).map (·, var) = []) :
      (o.itemsOf root position var).isEmpty = true :=
    List.isEmpty_iff.mpr (List.map_eq_nil_iff.mp none_)
  induction fields generalizing root position typeId with
  | nil => rfl
  | plain var value rest ih | modes var raw rest ih =>
      obtain ⟨itself, later⟩ := List.append_eq_nil_iff.mp none_
      rw [Outbound.strips, Outbound.hides, here itself, Bool.and_true, ih later here]
  | model var type fields rest ihFields ih =>
      obtain ⟨both, later⟩ := List.append_eq_nil_iff.mp none_
      obtain ⟨itself, inside⟩ := List.append_eq_nil_iff.mp both
      rw [Outbound.strips, Outbound.hides, here itself, Bool.and_true, ih later here]
      split
      · rename_i looks
        rw [if_pos looks] at inside
        rw [ihFields inside fun none_ => List.isEmpty_iff.mpr (List.map_eq_nil_iff.mp none_)]
      · rfl

end Audit

/-! ### Agreement -/

/-- The audit reports only fields that are required. -/
def Outbound.OnlyRequired (o : Outbound) (position : String) (items : List Item)
    (fields : Fields) : Prop :=
  ∀ item ∈ items, (∃ var, (item, var) ∈ o.reported true position fields) ∧
    ∀ var, (item, var) ∈ o.reported true position fields → var.required = true

/-- Restriction and audit agree on a model if and only if the type of the root element reports no
optional field that the type of the model permits; and something is reported of the model, or
nothing is left out of it on a place that the audit passes over. -/
theorem agree_iff (o : Outbound) (is2018 : o.is2018 = true) (name position : String) (m : Model)
    (root : o.new.roots.get? name = some position) (typed : m.fields.Typed o.new position) :
    (o.OnlyRequired position (o.audit (serialize name (o.restrict m))) (o.restrict m).fields ∧
      o.restrict (o.restrict m) = o.restrict m ∧
      (o.audit (serialize name m) = [] →
        o.masked (o.restrict m).fields = o.masked m.fields)) ↔
    (∀ var ∈ m.fields.vars, var.required = false → o.drops m.typeId var = false →
      o.itemsOf true position var = []) ∧
    (o.reported true position m.fields ≠ [] ∨
      o.hides true position m.typeId m.fields = false) := by
  have restricted : o.restrict m = ⟨m.typeId, o.restrictFields m.typeId m.fields⟩ := if_pos is2018
  have again : o.restrict (o.restrict m) = o.restrict m := by
    rw [restricted, Outbound.restrict, if_pos is2018, restrictFields_restrictFields]
  have only : o.OnlyRequired position (o.audit (serialize name (o.restrict m)))
      (o.restrict m).fields ↔ ∀ var ∈ m.fields.vars, var.required = false →
        o.drops m.typeId var = false → o.itemsOf true position var = [] := by
    rw [← reported_root_iff typed, restricted]
    have audited (item : Item) :
        item ∈ o.audit (serialize name ⟨m.typeId, o.restrictFields m.typeId m.fields⟩) ↔
          ∃ var, (item, var) ∈ o.reported true position (o.restrictFields m.typeId m.fields) :=
      mem_audit_iff is2018 root typed.restrictFields
    constructor
    · intro each item var listed
      exact (each item ((audited item).mpr ⟨var, listed⟩)).2 var listed
    · exact fun each item found => ⟨(audited item).mp found, each item⟩
  have silent : o.audit (serialize name m) = [] ↔ o.reported true position m.fields = [] := by
    simp only [List.eq_nil_iff_forall_not_mem, Prod.forall]
    refine forall_congr' fun item => ?_
    rw [mem_audit_iff is2018 root typed, not_exists]
  rw [only, and_iff_right again, silent, restricted, masked_restrictFields_iff, imp_iff_not_or]
  refine and_congr_right fun _ => ?_
  by_cases nothing : o.reported true position m.fields = []
  · rw [strips_eq_hides nothing]
  · simp only [nothing, not_false_eq_true, true_or, ne_eq]

/-! ### A disabled limit -/

/-- Types of the 2023 schema around a limit. -/
def limits2023 : Schema where
  types := ⟨[("DefaultDERControl",
        { elements := ⟨[("DERControlBase", "DERControlBase")], by decide⟩ }),
      ("DERControlBase",
        { elements := ⟨[("opModMaxLimWInject", "UnsignedActivePowerControlType")], by decide⟩ }),
      ("UnsignedActivePowerControlType",
        { base := some "UnsignedActivePower", attributes := ["disabled"] }),
      ("UnsignedActivePower", { elements := ⟨[("multiplier", "PowerOfTenMultiplierType"),
        ("value", "UInt16")], by decide⟩ }),
      ("<DefaultDERControl>",
        { base := some "DefaultDERControl", attributes := ["schemaVer"] })], by decide⟩
  roots := ⟨[("DefaultDERControl", "<DefaultDERControl>")], by decide⟩

/-- Those that the 2018 schema has of them. -/
def limits2018 : Schema where
  types := ⟨[("DefaultDERControl",
        { elements := ⟨[("DERControlBase", "DERControlBase")], by decide⟩ }),
      ("DERControlBase", {})], by decide⟩
  roots := ⟨[("DefaultDERControl", "DefaultDERControl")], by decide⟩

/-- A 2018 server with `import_export_limits`. -/
def withLimits : Outbound where
  new := limits2023
  old := limits2018
  table := ⟨[("import_export_limits",
    { elements := [⟨"DERControlBase", .element "opModMaxLimWInject"⟩], modeBits2 := [7, 8] })],
    by decide⟩
  profile := { base := some .e2018, features := ["import_export_limits"] }

/-- A limit that says whether it is disabled. -/
def disabledLimit : Model where
  typeId := "DefaultDERControl"
  fields := .model ⟨.element, "DERControlBase", true⟩ "DERControlBase"
    (.model ⟨.element, "opModMaxLimWInject", false⟩ "UnsignedActivePowerControlType"
      (.plain ⟨.attribute, "disabled", false⟩ "false"
        (.plain ⟨.element, "multiplier", true⟩ "0" (.plain ⟨.element, "value", true⟩ "100" .nil)))
      .nil) .nil

theorem disabledLimit_typed : disabledLimit.fields.Typed limits2023 "<DefaultDERControl>" := by
  refine ⟨⟨rfl, ?_, ?_⟩, ⟨⟨rfl, ?_, ?_⟩, trivial, trivial⟩, trivial⟩ <;> decide +kernel

/-- `audit` accepts the limit and `restrict` leaves its attribute out. -/
theorem disabledLimit_changed :
    withLimits.audit (serialize "DefaultDERControl" disabledLimit) = [] ∧
      withLimits.masked (withLimits.restrict disabledLimit).fields ≠
        withLimits.masked disabledLimit.fields := by
  decide +kernel

theorem disabledLimit_agree_iff :
    (withLimits.OnlyRequired "<DefaultDERControl>"
        (withLimits.audit (serialize "DefaultDERControl" (withLimits.restrict disabledLimit)))
        (withLimits.restrict disabledLimit).fields ∧
      withLimits.restrict (withLimits.restrict disabledLimit) = withLimits.restrict disabledLimit ∧
      (withLimits.audit (serialize "DefaultDERControl" disabledLimit) = [] →
        withLimits.masked (withLimits.restrict disabledLimit).fields =
          withLimits.masked disabledLimit.fields)) ↔
    (∀ var ∈ disabledLimit.fields.vars, var.required = false →
      withLimits.drops disabledLimit.typeId var = false →
      withLimits.itemsOf true "<DefaultDERControl>" var = []) ∧
    (withLimits.reported true "<DefaultDERControl>" disabledLimit.fields ≠ [] ∨
      withLimits.hides true "<DefaultDERControl>" disabledLimit.typeId disabledLimit.fields =
        false) :=
  agree_iff withLimits rfl "DefaultDERControl" "<DefaultDERControl>" disabledLimit rfl
    disabledLimit_typed

end Py20305.Profile
