import Mathlib.Data.List.DropRight
import Py20305.Lib.Bytes
import Py20305.Telemetry.Manager
import Py20305.Telemetry.Mrids

/-!
Registered readings as JSON (`telemetry/checkpoint.py`).

A reading that `reading_to_dict` writes is read back as it was (`readingFromJson_toJson`), and
`reading_from_dict` raises nothing but a `ValueError`, whatever it is given
(`readingFromJson_raises`).

Left out: the values that the error texts quote.
-/

namespace Py20305.Telemetry

open Security (isHex hexValue)

/-! ### JSON -/

inductive Json where
  | null
  | bool (b : Bool)
  | int (n : ℤ)
  /-- `none`: not a finite number. -/
  | float (x : Option ℚ)
  | text (s : String)
  | list (items : List Json)
  | object (fields : List (String × Json))

/-- Whether the value equals a number. -/
def Json.isNumber (n : ℤ) : Json → Bool
  | bool b => decide ((if b then 1 else 0) = n)
  | int k => decide (k = n)
  | float (some x) => decide (x = n)
  | _ => false

def Json.isText (s : String) : Json → Bool
  | text t => decide (t = s)
  | _ => false

/-- What a conversion or a lookup raises. -/
inductive PyError where
  | valueError (text : String)
  | keyError (key : String)
  | typeError
  deriving DecidableEq

/-- `fields[key]`. -/
def item (fields : List (String × Json)) (key : String) : Except PyError Json :=
  match fields.lookup key with
  | none => .error (.keyError key)
  | some value => .ok value

/-- `tuple(value)`. -/
def asTuple : Json → Except PyError (List Json)
  | .list items => .ok items
  | .text s => .ok (s.toList.map fun c => .text (String.singleton c))
  | .object fields => .ok (fields.map fun field => .text field.1)
  | _ => .error .typeError

/-! ### Hexadecimal texts -/

/-- The white space of `int` and of `bytes.fromhex`, in ASCII. -/
def isSpace (c : Char) : Bool := c = ' ' || (9 ≤ c.toNat && c.toNat ≤ 13)

/-- `bytes.fromhex`. -/
def bytesFromHex : List Char → Option Bytes
  | [] => some []
  | [c] => if isSpace c then some [] else none
  | high :: low :: rest =>
      if isSpace high then bytesFromHex (low :: rest)
      else if isHex high && isHex low then
        (bytesFromHex rest).map (UInt8.ofNat (hexValue high * 16 + hexValue low) :: ·)
      else none

def hexChar (digit : Nat) : Char :=
  if digit < 10 then Char.ofNat (digit + '0'.toNat) else Char.ofNat (digit - 10 + 'a'.toNat)

/-- `bytes.hex`. -/
def hexText (bytes : Bytes) : String :=
  String.ofList (bytes.flatMap fun byte => [hexChar (byte.toNat / 16), hexChar (byte.toNat % 16)])

/-- The digits of `int(text, 16)`: an underscore may stand between two. -/
def readDigits : Bool → Nat → List Char → Option Nat
  | afterDigit, n, [] => if afterDigit then some n else none
  | afterDigit, n, c :: rest =>
      if c = '_' then if afterDigit then readDigits false n rest else none
      else if isHex c then readDigits true (n * 16 + hexValue c) rest
      else none

/-- The text without a sign, and whether it is a minus. -/
def unsigned : List Char → Bool × List Char
  | '-' :: rest => (true, rest)
  | '+' :: rest => (false, rest)
  | text => (false, text)

/-- The text without `0x`. -/
def unprefixed : List Char → List Char
  | '0' :: x :: rest =>
      if x = 'x' ∨ x = 'X' then if rest.head? = some '_' then rest.tail else rest
      else '0' :: x :: rest
  | text => text

/-- `int(text, 16)`. It also reads decimal digits outside of ASCII, but `bytes.fromhex` does not,
and both are read in what follows. -/
def intBase16 (text : List Char) : Option ℤ :=
  let (negative, body) := unsigned ((text.dropWhile isSpace).rdropWhile isSpace)
  (readDigits false 0 (unprefixed body)).map fun n => if negative then -n else n

/-! ### Readings -/

def codeField (name : String) (value : Option Int) : String × Json :=
  (name, (value.map Json.int).getD .null)

/-- The data of `reading_to_dict`. -/
def ReadingData.toJson (d : ReadingData) : Json :=
  .object
    [("mrid", .text (hexText (toBytes 16 d.mrid))),
      ("description", .text d.description),
      ("order", .list [.int d.order.1, .int d.order.2.1, .int d.order.2.2]),
      ("reading_type", .object
        [codeField "accumulation_behaviour" d.accumulationBehaviour,
          codeField "commodity" d.commodity, codeField "data_qualifier" d.dataQualifier,
          codeField "flow_direction" d.flowDirection, codeField "kind" d.kind,
          codeField "power_of_ten_multiplier" d.powerOfTenMultiplier, codeField "uom" d.uom,
          codeField "phase" d.phase])]

/-- `reading_to_dict`. -/
def readingToJson (r : RegisteredReading) : Json := (readingToDict r).toJson

/-- `_code(types.get(name))`. -/
def code (types : List (String × Json)) (name : String) : Except PyError (Option Int) :=
  match types.lookup name with
  | none | some .null => .ok none
  | some (.int n) => .ok (some n)
  | some _ => .error (.valueError "expected an integer code")

/-- `_required`. -/
def requiredCode (types : List (String × Json)) (name : String) : Except PyError Int := do
  match ← code types name with
  | none => .error (.valueError s!"reading_type.{name} is required")
  | some n => .ok n

/-- `bytes.fromhex(value)`. -/
def fromHexJson : Json → Except PyError Bytes
  | .text s =>
      match bytesFromHex s.toList with
      | none => .error (.valueError "non-hexadecimal number found in fromhex() arg")
      | some bytes => .ok bytes
  | _ => .error .typeError

/-- What `reading_from_dict` reads first. -/
structure RawReading where
  mrid : Bytes
  description : Json
  order : List Json
  types : Json

/-- The body of the `try` of `reading_from_dict`. -/
def rawReading (fields : List (String × Json)) : Except PyError RawReading := do
  let mrid ← fromHexJson (← item fields "mrid")
  let description ← item fields "description"
  let order ← asTuple (← item fields "order")
  let types ← item fields "reading_type"
  .ok ⟨mrid, description, order, types⟩

/-- Its `except (KeyError, TypeError)`. -/
def malformed {α : Type} : Except PyError α → Except PyError α
  | .error (.keyError _) | .error .typeError =>
      .error (.valueError "missing or malformed field")
  | result => result

/-- The ReadingType that `reading_from_dict` builds. -/
def readingTypeFrom (types : List (String × Json)) : Except PyError ReadingType := do
  let flow ← code types "flow_direction"
  let phase ← code types "phase"
  let accumulation ← requiredCode types "accumulation_behaviour"
  let commodity ← requiredCode types "commodity"
  let qualifier ← requiredCode types "data_qualifier"
  let kind ← requiredCode types "kind"
  let multiplier ← requiredCode types "power_of_ten_multiplier"
  let uom ← requiredCode types "uom"
  .ok
    { accumulationBehaviour := accumulation
      commodity := commodity
      dataQualifier := qualifier
      flowDirection := flow
      kind := kind
      powerOfTenMultiplier := multiplier
      uom := uom
      phase := phase.filter (· != 0) }

/-- What `reading_from_dict` checks of what it has read, in its order. -/
def checkedReading (raw : RawReading) : Except PyError RegisteredReading :=
  if raw.mrid.length ≠ 16 then .error (.valueError "an mRID is 16 bytes")
  else
    match raw.description with
    | .text description =>
        match raw.order with
        | [.int first, .int second, .int third] =>
            match raw.types with
            | .object types =>
                (readingTypeFrom types).map fun readingType =>
                  { mrid := ofBytes raw.mrid
                    description := description
                    readingType := readingType
                    order := (first, second, third) }
            | _ => .error (.valueError "reading_type must be an object")
        | _ => .error (.valueError "order must be three integers")
    | _ => .error (.valueError "description must be text")

/-- `reading_from_dict`. -/
def readingFromJson : Json → Except PyError RegisteredReading
  | .object fields => malformed (rawReading fields) >>= checkedReading
  | _ => .error (.valueError "a registered reading must be an object")

/-! ### Hexadecimal texts are read back -/

theorem hexChar_facts : ∀ digit < 16, isHex (hexChar digit) = true ∧
    isSpace (hexChar digit) = false ∧ hexValue (hexChar digit) = digit := by
  decide

theorem bytesFromHex_pair {high low : Nat} (highHex : high < 16) (lowHex : low < 16)
    (rest : List Char) :
    bytesFromHex (hexChar high :: hexChar low :: rest) =
      (bytesFromHex rest).map (UInt8.ofNat (high * 16 + low) :: ·) := by
  obtain ⟨isHigh, space, highValue⟩ := hexChar_facts high highHex
  obtain ⟨isLow, -, lowValue⟩ := hexChar_facts low lowHex
  simp [bytesFromHex, space, isHigh, isLow, highValue, lowValue]

theorem bytesFromHex_hexText (bytes : Bytes) : bytesFromHex (hexText bytes).toList = some bytes := by
  rw [hexText, String.toList_ofList]
  induction bytes with
  | nil => rfl
  | cons byte rest ih =>
      have small := byte.toNat_lt
      rw [List.flatMap_cons, List.cons_append, List.cons_append, List.nil_append,
        bytesFromHex_pair (by omega) (by omega), ih, Option.map_some]
      have whole : byte.toNat / 16 * 16 + byte.toNat % 16 = byte.toNat := by omega
      rw [whole, UInt8.ofNat_toNat]

theorem not_isSpace {c : Char} (hex : isHex c = true) : isSpace c = false := by
  simp only [isHex, Char.isDigit, Bool.or_eq_true, Bool.and_eq_true, decide_eq_true_eq,
    Char.le_def, UInt32.le_iff_toNat_le] at hex
  have code : c.val.toNat = c.toNat := rfl
  have blank : c ≠ ' ' := by
    rintro rfl
    simp at hex
  have above : ¬ c.toNat ≤ 13 := by
    simp at hex
    omega
  simp [isSpace, blank, above]

/-- Hexadecimal digits, an even number of them, are bytes. -/
theorem exists_bytesFromHex {digits : List Char} (hex : ∀ c ∈ digits, isHex c = true)
    (even : digits.length % 2 = 0) : ∃ bytes, bytesFromHex digits = some bytes := by
  induction digits using bytesFromHex.induct with
  | case1 => exact ⟨[], rfl⟩
  | case2 c space => cases even
  | case3 c other => cases even
  | case4 high low rest space ih =>
      rw [not_isSpace (hex high List.mem_cons_self)] at space
      cases space
  | case5 high low rest text both ih =>
      obtain ⟨bytes, read⟩ := ih
        (fun c listed => hex c (List.mem_cons_of_mem _ (List.mem_cons_of_mem _ listed)))
        (by simp only [List.length_cons] at even; omega)
      rw [bytesFromHex, if_neg text, if_pos both, read]
      exact ⟨_, rfl⟩
  | case6 high low rest text none =>
      have first := hex high List.mem_cons_self
      have second := hex low (List.mem_cons_of_mem _ List.mem_cons_self)
      simp [first, second] at none

/-! ### Readings are read back -/

/-- What a manager registers: under its mRID, of 16 bytes, with no phase that is not applicable. -/
structure Readable (r : RegisteredReading) : Prop where
  phase : r.readingType.phase ≠ some 0
  mrid : r.mrid < 256 ^ 16

/-- A code is read back, and one that is absent stays absent. -/
theorem code_of_lookup {types : List (String × Json)} {name : String} {value : Option Int}
    (found : types.lookup name = some ((value.map Json.int).getD .null)) :
    code types name = .ok value := by
  cases value <;> simp [code, found]

theorem requiredCode_of_lookup {types : List (String × Json)} {name : String} {value : Int}
    (found : types.lookup name = some (.int value)) : requiredCode types name = .ok value := by
  have read : code types name = .ok (some value) := code_of_lookup found
  rw [requiredCode, read]
  rfl

/-- The fields of a ReadingType, as they are written. -/
def typeFields (t : ReadingType) : List (String × Json) :=
  [codeField "accumulation_behaviour" (some t.accumulationBehaviour),
    codeField "commodity" (some t.commodity), codeField "data_qualifier" (some t.dataQualifier),
    codeField "flow_direction" t.flowDirection, codeField "kind" (some t.kind),
    codeField "power_of_ten_multiplier" (some t.powerOfTenMultiplier),
    codeField "uom" (some t.uom), codeField "phase" t.phase]

theorem readingTypeFrom_typeFields {t : ReadingType} (phase : t.phase ≠ some 0) :
    readingTypeFrom (typeFields t) = .ok t := by
  have kept : t.phase.filter (· != 0) = t.phase := by
    cases found : t.phase with
    | none => rfl
    | some p =>
        rw [found] at phase
        simpa using phase
  have flow : code (typeFields t) "flow_direction" = .ok t.flowDirection := code_of_lookup rfl
  have phaseRead : code (typeFields t) "phase" = .ok t.phase := code_of_lookup rfl
  have accumulation : requiredCode (typeFields t) "accumulation_behaviour" =
      .ok t.accumulationBehaviour := requiredCode_of_lookup rfl
  have commodity : requiredCode (typeFields t) "commodity" = .ok t.commodity :=
    requiredCode_of_lookup rfl
  have qualifier : requiredCode (typeFields t) "data_qualifier" = .ok t.dataQualifier :=
    requiredCode_of_lookup rfl
  have kind : requiredCode (typeFields t) "kind" = .ok t.kind := requiredCode_of_lookup rfl
  have multiplier : requiredCode (typeFields t) "power_of_ten_multiplier" =
      .ok t.powerOfTenMultiplier := requiredCode_of_lookup rfl
  have uom : requiredCode (typeFields t) "uom" = .ok t.uom := requiredCode_of_lookup rfl
  rw [readingTypeFrom, flow, phaseRead, accumulation, commodity, qualifier, kind, multiplier, uom]
  simp only [Except.bind, bind, kept]

theorem malformed_ok {α : Type} (value : α) : malformed (.ok value) = .ok value := rfl

/-- The fields of a registered reading, as they are written. -/
def readingFields (r : RegisteredReading) : List (String × Json) :=
  [("mrid", .text (hexText (toBytes 16 r.mrid))), ("description", .text r.description),
    ("order", .list [.int r.order.1, .int r.order.2.1, .int r.order.2.2]),
    ("reading_type", .object (typeFields r.readingType))]

theorem readingToJson_eq (r : RegisteredReading) : readingToJson r = .object (readingFields r) := rfl

theorem rawReading_readingFields (r : RegisteredReading) :
    rawReading (readingFields r) =
      .ok ⟨toBytes 16 r.mrid, .text r.description,
        [.int r.order.1, .int r.order.2.1, .int r.order.2.2],
        .object (typeFields r.readingType)⟩ := by
  have mrid : item (readingFields r) "mrid" = .ok (.text (hexText (toBytes 16 r.mrid))) := rfl
  have description : item (readingFields r) "description" = .ok (.text r.description) := rfl
  have order : item (readingFields r) "order" =
      .ok (.list [.int r.order.1, .int r.order.2.1, .int r.order.2.2]) := rfl
  have types : item (readingFields r) "reading_type" =
      .ok (.object (typeFields r.readingType)) := rfl
  have hex : fromHexJson (.text (hexText (toBytes 16 r.mrid))) = .ok (toBytes 16 r.mrid) := by
    rw [fromHexJson, bytesFromHex_hexText]
  simp only [rawReading, mrid, description, order, types, hex, asTuple, bind, Except.bind]

/-- A registered reading is read back. -/
theorem readingFromJson_toJson {r : RegisteredReading} (readable : Readable r) :
    readingFromJson (readingToJson r) = .ok r := by
  rw [readingToJson_eq, readingFromJson, rawReading_readingFields, malformed_ok]
  simp only [bind, Except.bind]
  rw [checkedReading, if_neg (by simp [length_toBytes])]
  simp only [readingTypeFrom_typeFields readable.phase, ofBytes_toBytes readable.mrid]
  rfl

/-! ### Arbitrary data -/

/-- Nothing but a `ValueError` is raised. -/
def ValueErrorsOnly {α : Type} (result : Except PyError α) : Prop :=
  ∀ e, result = .error e → ∃ text, e = .valueError text

section ValueErrors

variable {α β : Type}

theorem ValueErrorsOnly.ok (value : α) : ValueErrorsOnly (.ok value) := by
  rintro e ⟨⟩

theorem ValueErrorsOnly.raised (text : String) :
    ValueErrorsOnly (.error (.valueError text) : Except PyError α) := by
  rintro e ⟨⟩
  exact ⟨text, rfl⟩

theorem ValueErrorsOnly.bind {result : Except PyError α} {next : α → Except PyError β}
    (first : ValueErrorsOnly result) (second : ∀ value, ValueErrorsOnly (next value)) :
    ValueErrorsOnly (result >>= next) := by
  cases result with
  | error e =>
      intro e' same
      cases same
      exact first e rfl
  | ok value => exact second value

theorem ValueErrorsOnly.malformed (result : Except PyError α) :
    ValueErrorsOnly (malformed result) := by
  cases result with
  | ok value => exact .ok value
  | error e =>
      cases e with
      | valueError text => exact .raised text
      | keyError key => exact .raised _
      | typeError => exact .raised _

end ValueErrors

theorem code_raises (types : List (String × Json)) (name : String) :
    ValueErrorsOnly (code types name) := by
  unfold code
  split
  · exact .ok _
  · exact .ok _
  · exact .ok _
  · exact .raised _

theorem requiredCode_raises (types : List (String × Json)) (name : String) :
    ValueErrorsOnly (requiredCode types name) := by
  refine (code_raises types name).bind fun value => ?_
  cases value with
  | none => exact .raised _
  | some n => exact .ok n

theorem readingTypeFrom_raises (types : List (String × Json)) :
    ValueErrorsOnly (readingTypeFrom types) := by
  refine (code_raises types _).bind fun flow => (code_raises types _).bind fun phase => ?_
  refine (requiredCode_raises types _).bind fun accumulation =>
    (requiredCode_raises types _).bind fun commodity => ?_
  refine (requiredCode_raises types _).bind fun qualifier =>
    (requiredCode_raises types _).bind fun kind => ?_
  exact (requiredCode_raises types _).bind fun multiplier =>
    (requiredCode_raises types _).bind fun uom => .ok _

theorem checkedReading_raises (raw : RawReading) : ValueErrorsOnly (checkedReading raw) := by
  unfold checkedReading
  split
  · exact .raised _
  split
  · split
    · split
      · rename_i types _
        have typed := readingTypeFrom_raises types
        cases read : readingTypeFrom types with
        | ok readingType => exact .ok _
        | error e =>
            obtain ⟨text, rfl⟩ := typed e read
            exact .raised text
      · exact .raised _
    · exact .raised _
  · exact .raised _

theorem readingFromJson_raises (data : Json) : ValueErrorsOnly (readingFromJson data) := by
  unfold readingFromJson
  split
  · exact (ValueErrorsOnly.malformed _).bind checkedReading_raises
  · exact .raised _

end Py20305.Telemetry
