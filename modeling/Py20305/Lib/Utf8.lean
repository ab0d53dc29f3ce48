import Mathlib.Tactic.Cases
import Py20305.Lib.Bytes

/-!
UTF-8 over byte strings.

`decodeStrict` is `bytes.decode("utf-8")`, and `decodeReplace` the same with `"replace"`: what is
no character becomes U+FFFD, once for each longest start of a character (`invalidLength`). Both
read back what `utf8` wrote. An ASCII character is one byte of its own, so a byte below 128 stands
in an encoding only for itself (`mem_utf8_ascii`).
-/

namespace Py20305

/-- `text.encode("utf-8")`. -/
def utf8 (text : String) : Bytes := text.toList.flatMap String.utf8EncodeChar

theorem utf8_append (first second : String) : utf8 (first ++ second) = utf8 first ++ utf8 second := by
  simp [utf8]

/-- The character at the front of some bytes. -/
def decodeChar? (bytes : Bytes) : Option Char := bytes.toByteArray.utf8DecodeChar? 0

theorem decodeChar?_encoded (c : Char) (rest : Bytes) :
    decodeChar? (String.utf8EncodeChar c ++ rest) = some c := by
  rw [decodeChar?, List.toByteArray_append]
  exact ByteArray.utf8DecodeChar?_utf8EncodeChar_append

/-- The characters of some bytes, where they are an encoding. -/
def decodeChars : Bytes → Option (List Char)
  | [] => some []
  | byte :: rest =>
      match decodeChar? (byte :: rest) with
      | none => none
      | some c => (decodeChars ((byte :: rest).drop c.utf8Size)).map (c :: ·)
termination_by bytes => bytes.length
decreasing_by
  have := c.utf8Size_pos
  simp only [List.length_drop, List.length_cons]
  omega

/-- `bytes.decode("utf-8")`. -/
def decodeStrict (bytes : Bytes) : Option String := (decodeChars bytes).map String.ofList

def isContinuation (byte : UInt8) : Bool := 0x80 ≤ byte ∧ byte ≤ 0xBF

/-- May `second` come after the first byte of a character of three or four bytes? -/
def mayFollow (first second : UInt8) : Bool :=
  isContinuation second ∧ (first = 0xE0 → 0xA0 ≤ second) ∧ (first = 0xED → second < 0xA0) ∧
    (first = 0xF0 → 0x90 ≤ second) ∧ (first = 0xF4 → second < 0x90)

/-- How many bytes of an invalid character are the start of one, and are replaced at once. -/
def invalidLength : Bytes → Nat
  | first :: second :: third =>
      if 0xE0 ≤ first ∧ first ≤ 0xEF then
        if mayFollow first second then 2 else 1
      else if 0xF0 ≤ first ∧ first ≤ 0xF4 then
        if mayFollow first second then
          if third.head?.any isContinuation then 3 else 2
        else 1
      else 1
  | _ => 1

theorem invalidLength_pos (bytes : Bytes) : 0 < invalidLength bytes := by
  unfold invalidLength
  split
  · split_ifs <;> decide
  · decide

/-- The characters of some bytes, with U+FFFD for what is none. -/
def decodeReplacing : Bytes → List Char
  | [] => []
  | byte :: rest =>
      match decodeChar? (byte :: rest) with
      | none => Char.ofNat 0xFFFD :: decodeReplacing ((byte :: rest).drop (invalidLength (byte :: rest)))
      | some c => c :: decodeReplacing ((byte :: rest).drop c.utf8Size)
termination_by bytes => bytes.length
decreasing_by
  · have := invalidLength_pos (byte :: rest)
    simp only [List.length_drop, List.length_cons]
    omega
  · have := c.utf8Size_pos
    simp only [List.length_drop, List.length_cons]
    omega

/-- `bytes.decode("utf-8", "replace")`. -/
def decodeReplace (bytes : Bytes) : String := String.ofList (decodeReplacing bytes)

section RoundTrip

variable (c : Char) (rest : Bytes)

theorem drop_encoded : (String.utf8EncodeChar c ++ rest).drop c.utf8Size = rest :=
  List.drop_left' (String.length_utf8EncodeChar c)

theorem encoded_cons : ∃ byte later, String.utf8EncodeChar c ++ rest = byte :: later :=
  List.exists_cons_of_ne_nil (List.append_ne_nil_of_left_ne_nil String.utf8EncodeChar_ne_nil rest)

theorem decodeChars_cons :
    decodeChars (String.utf8EncodeChar c ++ rest) = (decodeChars rest).map (c :: ·) := by
  have found := decodeChar?_encoded c rest
  have dropped := drop_encoded c rest
  obtain ⟨byte, later, split⟩ := encoded_cons c rest
  rw [split] at found dropped ⊢
  rw [decodeChars, found]
  simp only [dropped]

theorem decodeReplacing_cons :
    decodeReplacing (String.utf8EncodeChar c ++ rest) = c :: decodeReplacing rest := by
  have found := decodeChar?_encoded c rest
  have dropped := drop_encoded c rest
  obtain ⟨byte, later, split⟩ := encoded_cons c rest
  rw [split] at found dropped ⊢
  rw [decodeReplacing, found]
  simp only [dropped]

/-- An encoding decodes to the text. -/
theorem decodeStrict_utf8 (text : String) : decodeStrict (utf8 text) = some text := by
  have chars : ∀ cs : List Char, decodeChars (cs.flatMap String.utf8EncodeChar) = some cs := by
    intro cs
    induction cs with
    | nil => rw [List.flatMap_nil, decodeChars]
    | cons c cs ih => rw [List.flatMap_cons, decodeChars_cons, ih, Option.map_some]
  rw [decodeStrict, utf8, chars, Option.map_some, String.ofList_toList]

/-- Nothing is replaced in it. -/
theorem decodeReplace_utf8 (text : String) : decodeReplace (utf8 text) = text := by
  have chars : ∀ cs : List Char, decodeReplacing (cs.flatMap String.utf8EncodeChar) = cs := by
    intro cs
    induction cs with
    | nil => rw [List.flatMap_nil, decodeReplacing]
    | cons c cs ih => rw [List.flatMap_cons, decodeReplacing_cons, ih]
  rw [decodeReplace, utf8, chars, String.ofList_toList]

end RoundTrip

/-! ### ASCII -/

/-- A byte below 128 is a character of its own. -/
theorem mem_utf8EncodeChar_ascii {c : Char} {byte : UInt8} (member : byte ∈ String.utf8EncodeChar c)
    (ascii : byte.toNat < 128) : c.toNat = byte.toNat := by
  have high : ∀ n : Nat, 128 ≤ n → n < 256 → byte ≠ UInt8.ofNat n := by
    rintro n least most rfl
    rw [UInt8.toNat_ofNat_of_lt' most] at ascii
    omega
  unfold String.utf8EncodeChar at member
  dsimp only at member
  split_ifs at member with one two three
  · rw [List.mem_singleton.mp member]
    exact (UInt8.toNat_ofNat_of_lt' (Nat.lt_of_le_of_lt one (by decide))).symm
  · simp only [List.mem_cons, List.not_mem_nil, or_false] at member
    rcases member with first | second
    · exact absurd first (high _ (by omega) (by omega))
    · exact absurd second (high _ (by omega) (by omega))
  · simp only [List.mem_cons, List.not_mem_nil, or_false] at member
    rcases member with first | second | third
    · exact absurd first (high _ (by omega) (by omega))
    · exact absurd second (high _ (by omega) (by omega))
    · exact absurd third (high _ (by omega) (by omega))
  · simp only [List.mem_cons, List.not_mem_nil, or_false] at member
    rcases member with first | second | third | fourth
    · exact absurd first (high _ (by omega) (by omega))
    · exact absurd second (high _ (by omega) (by omega))
    · exact absurd third (high _ (by omega) (by omega))
    · exact absurd fourth (high _ (by omega) (by omega))

theorem mem_utf8_ascii {text : String} {byte : UInt8} (member : byte ∈ utf8 text)
    (ascii : byte.toNat < 128) : ∃ c ∈ text.toList, c.toNat = byte.toNat := by
  obtain ⟨c, listed, encoded⟩ := List.mem_flatMap.mp member
  exact ⟨c, listed, mem_utf8EncodeChar_ascii encoded ascii⟩

end Py20305
