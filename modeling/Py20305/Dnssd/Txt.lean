import Mathlib.Data.List.TakeWhile
import Py20305.Dnssd.Names
import Py20305.Lib.Dict
import Py20305.Lib.Utf8

/-!
TXT records (`client/dnssd/wire.py`).

`encode_txt` writes each key as a string of its own, with `=` and the value if it has one.
`decode_txt` takes the strings apart again: of several with one key the first counts. The keys
are folded by `str.lower`, which is a parameter `lower` here. What is read is what was written,
the difference of no value and an empty one included (`txt_round_trip`).
-/

namespace Py20305.Dnssd

/-- The attributes of a service: a key can have no value. -/
abbrev Attributes := Dict String (Option String)

/-- The string of an attribute. -/
def txtItem : String × Option String → Bytes
  | (key, none) => utf8 key
  | (key, some value) => utf8 (key ++ "=" ++ value)

/-- The loop of `encode_txt`. -/
def encodeItems : List (String × Option String) → Except EncodeError Bytes
  | [] => .ok []
  | (key, value) :: rest =>
      let item := txtItem (key, value)
      if 255 < item.length then .error (.txtEntryTooLong key)
      else (encodeItems rest).map fun out => UInt8.ofNat item.length :: (item ++ out)

/-- `encode_txt`. -/
def encodeTxt (values : Attributes) : Except EncodeError Bytes :=
  (encodeItems values.entries).map fun out => if out = [] then [0] else out

/-- `item.partition(b"=")`: the key, and the value if there is a separator. -/
def partitionItem (item : Bytes) : Bytes × Option Bytes :=
  (item.takeWhile (· ≠ 61), (item.dropWhile (· ≠ 61)).tail?)

/-- The attribute that a string of a record holds: none where it is empty, or its key no text. -/
def readItem (lower : String → String) (item : Bytes) : Option (String × Option String) :=
  if item = [] then none
  else
    let (key, value) := partitionItem item
    (decodeStrict key).map fun name => (lower name, value.map decodeReplace)

/-- Keep the attribute of a string, unless its name is there already. -/
def keepFirst (lower : String → String) (out : Attributes) (item : Bytes) : Attributes :=
  match readItem lower item with
  | none => out
  | some (name, value) => if (out.get? name).isSome then out else out.set name value

/-- The loop of `decode_txt`, on the bytes that are left. -/
def readItems (lower : String → String) (out : Attributes) :
    Bytes → Except DnsDecodeError Attributes
  | [] => .ok out
  | length :: rest =>
      if rest.length < length.toNat then .error ⟨"TXT string runs past the end of the record"⟩
      else readItems lower (keepFirst lower out (rest.take length.toNat)) (rest.drop length.toNat)
termination_by rdata => rdata.length
decreasing_by
  simp only [List.length_drop, List.length_cons]
  omega

/-- `decode_txt`. -/
def decodeTxt (lower : String → String) (rdata : Bytes) : Except DnsDecodeError Attributes :=
  readItems lower .empty rdata

/-! ### The strings of a record -/

/-- Some strings of at most 255 bytes, each behind its length. -/
def joined (items : List Bytes) : Bytes :=
  items.flatMap fun item => UInt8.ofNat item.length :: item

/-- `rdata` is made of these strings. -/
def MadeOf (items : List Bytes) (rdata : Bytes) : Prop :=
  (∀ item ∈ items, item.length ≤ 255) ∧ rdata = joined items

section Strings

variable {lower : String → String}

theorem readItems_joined {items : List Bytes} (short : ∀ item ∈ items, item.length ≤ 255)
    (out : Attributes) :
    readItems lower out (joined items) = .ok (items.foldl (keepFirst lower) out) := by
  induction items generalizing out with
  | nil =>
      unfold joined
      rw [List.flatMap_nil, readItems]
      rfl
  | cons item rest ih =>
      have size : (UInt8.ofNat item.length).toNat = item.length :=
        UInt8.toNat_ofNat_of_lt' (Nat.lt_of_le_of_lt (short item List.mem_cons_self) (by decide))
      have later := ih (fun i member => short i (List.mem_cons_of_mem item member))
        (keepFirst lower out item)
      have split : joined (item :: rest) = UInt8.ofNat item.length :: (item ++ joined rest) := rfl
      rw [split, readItems, size, if_neg (by simp), List.take_left, List.drop_left, later]
      rfl

/-- Bytes that the loop reads are made of strings. -/
theorem madeOf_of_readItems {out found : Attributes} {rdata : Bytes}
    (read : readItems lower out rdata = .ok found) : ∃ items, MadeOf items rdata := by
  fun_induction readItems lower out rdata with
  | case1 out => exact ⟨[], by simp, rfl⟩
  | case2 out length rest short => cases read
  | case3 out length rest whole ih =>
      obtain ⟨items, lengths, made⟩ := ih read
      have size : (rest.take length.toNat).length = length.toNat :=
        List.length_take_of_le (Nat.le_of_not_lt whole)
      refine ⟨rest.take length.toNat :: items, fun item member => ?_, ?_⟩
      · rcases List.mem_cons.mp member with rfl | later
        · rw [size]
          exact Nat.le_of_lt_succ length.toNat_lt
        · exact lengths item later
      · have byte : UInt8.ofNat (rest.take length.toNat).length = length := by
          rw [size, UInt8.ofNat_toNat]
        have split : joined (rest.take length.toNat :: items) =
            UInt8.ofNat (rest.take length.toNat).length ::
              (rest.take length.toNat ++ joined items) := rfl
        rw [split, byte, ← made, List.take_append_drop]

/-- The first attribute of a name counts. -/
theorem get?_foldl_keepFirst (items : List Bytes) (out : Attributes) (name : String) :
    (items.foldl (keepFirst lower) out).get? name =
      (out.get? name).or (Dict.lookupEntry name (items.filterMap (readItem lower))) := by
  induction items generalizing out with
  | nil => simp [Dict.lookupEntry]
  | cons item rest ih =>
      rw [List.foldl_cons, ih]
      cases found : readItem lower item with
      | none => simp only [keepFirst, found, List.filterMap_cons_none]
      | some entry =>
          obtain ⟨key, value⟩ := entry
          rw [List.filterMap_cons_some found]
          simp only [keepFirst, found, Dict.lookupEntry]
          by_cases same : key = name
          · cases known : out.get? key with
            | none => simp [same ▸ known, same]
            | some old => simp [same ▸ known, same]
          · have other : name ≠ key := fun equal => same equal.symm
            cases known : out.get? key with
            | none => simp [same, Dict.get?_set_ne _ _ other]
            | some old => simp [same]

end Strings

/-! ### What is written is read -/

section RoundTrip

variable {lower : String → String} {key : String}

/-- A key that an attribute can be written under: one that reads as itself. -/
structure IsKey (lower : String → String) (key : String) : Prop where
  nonempty : key ≠ ""
  separated : '=' ∉ key.toList
  folded : lower key = key

theorem IsKey.plain (isKey : IsKey lower key) : ∀ byte ∈ utf8 key, byte ≠ 61 := by
  rintro byte member rfl
  obtain ⟨c, listed, same⟩ := mem_utf8_ascii member (by decide)
  have equals : c = '=' := Char.toNat_inj.mp same
  exact isKey.separated (equals ▸ listed)

theorem utf8_ne_nil (nonempty : key ≠ "") : utf8 key ≠ [] := by
  intro nothing
  refine nonempty (String.toList_eq_nil_iff.mp ?_)
  cases chars : key.toList with
  | nil => rfl
  | cons c rest =>
      rw [utf8, chars, List.flatMap_cons] at nothing
      exact absurd (List.append_eq_nil_iff.mp nothing).1 String.utf8EncodeChar_ne_nil

/-- The string of an attribute reads as the attribute. -/
theorem readItem_txtItem (isKey : IsKey lower key) (value : Option String) :
    readItem lower (txtItem (key, value)) = some (key, value) := by
  have apart : ∀ byte ∈ utf8 key, decide (byte ≠ 61) = true := fun byte member =>
    decide_eq_true (isKey.plain byte member)
  have nonempty := utf8_ne_nil isKey.nonempty
  cases value with
  | none =>
      have split : partitionItem (utf8 key) = (utf8 key, none) := by
        rw [partitionItem, List.takeWhile_eq_self_iff.mpr apart,
          List.dropWhile_eq_nil_iff.mpr apart]
        rfl
      simp only [txtItem, readItem, if_neg nonempty, split, decodeStrict_utf8, isKey.folded,
        Option.map_some, Option.map_none]
  | some text =>
      have item : utf8 (key ++ "=" ++ text) = utf8 key ++ 61 :: utf8 text := by
        rw [utf8_append, utf8_append, List.append_assoc]
        rfl
      have split : partitionItem (utf8 key ++ 61 :: utf8 text) =
          (utf8 key, some (utf8 text)) := by
        rw [partitionItem, List.takeWhile_append_of_pos apart, List.dropWhile_append_of_pos apart]
        simp
      have some_ : utf8 key ++ 61 :: utf8 text ≠ [] :=
        List.append_ne_nil_of_left_ne_nil nonempty _
      simp only [txtItem, item, readItem, if_neg some_, split, decodeStrict_utf8, isKey.folded,
        decodeReplace_utf8, Option.map_some]

/-- Reading the strings of some attributes with new names adds these. -/
theorem foldl_keepFirst_txtItem {entries : List (String × Option String)} (out : Attributes)
    (isKey : ∀ e ∈ entries, IsKey lower e.1)
    (distinct : (out.keys ++ entries.map Prod.fst).Nodup) :
    (entries.map txtItem).foldl (keepFirst lower) out =
      entries.foldl (fun out e => out.set e.1 e.2) out := by
  induction entries generalizing out with
  | nil => rfl
  | cons e rest ih =>
      obtain ⟨name, value⟩ := e
      have absent : name ∉ out.keys := fun old =>
        (List.nodup_append.mp distinct).2.2 name old name List.mem_cons_self rfl
      have kept : keepFirst lower out (txtItem (name, value)) = out.set name value := by
        simp [keepFirst, readItem_txtItem (isKey _ List.mem_cons_self),
          (Dict.get?_eq_none_iff out name).mpr absent]
      rw [List.map_cons, List.foldl_cons, List.foldl_cons, kept]
      refine ih _ (fun e member => isKey e (List.mem_cons_of_mem _ member)) ?_
      rw [Dict.keys_set, if_neg absent, List.append_assoc]
      exact distinct

theorem encodeItems_eq {entries : List (String × Option String)}
    (short : ∀ e ∈ entries, (txtItem e).length ≤ 255) :
    encodeItems entries = .ok (joined (entries.map txtItem)) := by
  induction entries with
  | nil => rfl
  | cons e rest ih =>
      obtain ⟨name, value⟩ := e
      have fits := short (name, value) List.mem_cons_self
      rw [encodeItems, if_neg (Nat.not_lt.mpr fits),
        ih fun e member => short e (List.mem_cons_of_mem _ member)]
      rfl

/-- Attributes are written as their strings, or as an empty string where there is none. -/
theorem encodeTxt_eq {values : Attributes} (short : ∀ e ∈ values.entries, (txtItem e).length ≤ 255) :
    encodeTxt values =
      .ok (joined (if values.entries = [] then [[]] else values.entries.map txtItem)) := by
  rw [encodeTxt, encodeItems_eq short]
  cases values.entries <;> rfl

theorem encodeTxt_decodeTxt {values : Attributes} (isKey : ∀ key ∈ values.keys, IsKey lower key)
    (short : ∀ e ∈ values.entries, (txtItem e).length ≤ 255) :
    ∃ rdata, encodeTxt values = .ok rdata ∧ decodeTxt lower rdata = .ok values := by
  refine ⟨_, encodeTxt_eq short, ?_⟩
  split
  · rename_i nothing
    rw [decodeTxt, readItems_joined (by simp)]
    exact congrArg _ (Dict.eq_of_entries nothing.symm)
  · rw [decodeTxt, readItems_joined fun item member => by
      obtain ⟨e, listed, rfl⟩ := List.mem_map.mp member
      exact short e listed]
    rw [foldl_keepFirst_txtItem _ (fun e listed => isKey e.1 (List.mem_map_of_mem listed))
      (by simpa [Dict.keys, Dict.empty] using values.nodup), Dict.foldl_set_entries]

/-- What is encoded decodes to the same attributes. Any other bytes are either made of strings of
which, for each name, the first counts, or they raise. -/
theorem txt_round_trip {lower : String → String} {values : Attributes}
    (isKey : ∀ key ∈ values.keys, IsKey lower key)
    (short : ∀ e ∈ values.entries, (txtItem e).length ≤ 255) (rdata : Bytes) :
    (∃ rdata, encodeTxt values = .ok rdata ∧ decodeTxt lower rdata = .ok values) ∧
      ((∃ e, decodeTxt lower rdata = .error e) ∨
        ∃ items out, MadeOf items rdata ∧ decodeTxt lower rdata = .ok out ∧
          ∀ name, out.get? name = Dict.lookupEntry name (items.filterMap (readItem lower))) := by
  refine ⟨encodeTxt_decodeTxt isKey short, ?_⟩
  cases read : decodeTxt lower rdata with
  | error e => exact .inl ⟨e, rfl⟩
  | ok out =>
      obtain ⟨items, lengths, rfl⟩ := madeOf_of_readItems read
      rw [decodeTxt, readItems_joined lengths] at read
      refine .inr ⟨items, out, ⟨lengths, rfl⟩, rfl, fun name => ?_⟩
      rw [← Except.ok.inj read, get?_foldl_keepFirst]
      rfl

/-- A key without a value, and one with an empty value. -/
def plainAttributes : Attributes := ⟨[("https", none), ("path", some "")], by decide⟩

theorem plainAttributes_round_trip :
    (∃ rdata, encodeTxt plainAttributes = .ok rdata ∧
        decodeTxt id rdata = .ok plainAttributes) ∧
      ((∃ e, decodeTxt id [9] = .error e) ∨
        ∃ items out, MadeOf items [9] ∧ decodeTxt id [9] = .ok out ∧
          ∀ name, out.get? name = Dict.lookupEntry name (items.filterMap (readItem id))) := by
  refine txt_round_trip (fun key listed => ?_) (by decide) [9]
  have cases : key = "https" ∨ key = "path" := by
    simpa [plainAttributes, Dict.keys] using listed
  rcases cases with rfl | rfl
  · exact ⟨by decide, by decide, rfl⟩
  · exact ⟨by decide, by decide, rfl⟩

end RoundTrip

end Py20305.Dnssd
