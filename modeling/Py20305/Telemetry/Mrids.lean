import Mathlib.Data.Nat.Digits.Defs
import Py20305.Lib.Bytes
import Py20305.Telemetry.Mup

/-!
The mRIDs of one device (`telemetry/mup.py`), and the SFDI they begin with.

An mRID is put together of hexadecimal digits: the SFDI, the slot with some of the LFDI, and the
PEN. A slot of one digit is followed by a digit of the LFDI where a slot of two digits has its
second, so the slots are apart if and only if the LFDI does not begin with eleven times the same
decimal digit (`mrids_apart_iff`).
-/

namespace Py20305.Security

open Telemetry

/-- A hexadecimal digit of either case. -/
def isHex (c : Char) : Bool := c.isDigit || ('a' ≤ c ∧ c ≤ 'f') || ('A' ≤ c ∧ c ≤ 'F')

/-- What it counts for in `int(text, 16)`. -/
def hexValue (c : Char) : Nat := hexDigit c.toLower

/-- `int(lfdi[:9], 16)`. -/
def sfdiBase (lfdi : Lfdi) : Nat := number 16 ((lfdi.toList.take 9).map hexValue)

/-- The digits of `str(n)`. -/
def decimalDigits (n : Nat) : List Nat := if n = 0 then [0] else (Nat.digits 10 n).reverse

/-- `compute_sfdi` of `security/identity.py`. -/
def computeSfdi (lfdi : Lfdi) : Except String Nat :=
  if lfdi.length < 9 then .error s!"LFDI must be at least 9 characters, got {lfdi.length}"
  else
    let base := sfdiBase lfdi
    let check := (10 - (decimalDigits base).sum % 10) % 10
    .ok (base * 10 + check)

end Py20305.Security

namespace Py20305.Telemetry

open Security (isHex hexValue sfdiBase decimalDigits)

/-- A LFDI as 40 hexadecimal digits. -/
structure IsLfdi (lfdi : Lfdi) : Prop where
  length : lfdi.toList.length = 40
  hex : ∀ c ∈ lfdi.toList, isHex c = true

/-- `compute_sfdi` of `telemetry/mup.py`, over the texts it puts together: `computeSfdi` is its
value (`sfdiText_eq`). -/
def sfdiText (lfdi : Lfdi) : Nat :=
  let digits := decimalDigits (sfdiBase lfdi)
  let check := (10 - digits.sum % 10) % 10
  number 10 (digits ++ decimalDigits check)

/-- `bytes.fromhex`, of an even number of digits. -/
def fromHex : List Nat → Bytes
  | high :: low :: rest => UInt8.ofNat (high * 16 + low) :: fromHex rest
  | _ => []

/-- The slot of an mRID and the digits of the LFDI behind it. -/
def slotDigits (lfdi : Lfdi) (index : Nat) : List Nat :=
  if index < 10 then index :: (hexDigits lfdi).take 11
  else fixedDigits 10 2 index ++ (hexDigits lfdi).take 10

/-- An mRID of a device, in hexadecimal digits. -/
def mridDigits (lfdi : Lfdi) (middle : List Nat) : List Nat :=
  fixedDigits 10 12 (computeSfdi lfdi) ++ middle ++ fixedDigits 16 8 defaultPen

/-- The bytes of `_create_mrid`. -/
def createMridBytes (lfdi : Lfdi) (index : Nat) : Bytes :=
  let norm := lfdi.toLower
  fromHex (mridDigits norm (slotDigits norm index))

/-- What `hexdigest` returns. -/
structure HexDigest where
  digits : List Nat
  length : digits.length = 64
  hex : ∀ d ∈ digits, d < 16

/-- The bytes of `_hashed_mrid`. -/
def hashedMridBytes (sha256 : String → HexDigest) (lfdi : Lfdi) (identity : ReadingIdentity)
    (salt : String) : Bytes :=
  let norm := lfdi.toLower
  fromHex (mridDigits norm (15 :: (sha256 (hashedText norm identity salt)).digits.take 11))

/-! ### Digits -/

theorem length_fixedDigits (base width n : Nat) : (fixedDigits base width n).length = width := by
  induction width generalizing n with
  | zero => rfl
  | succ width ih => rw [fixedDigits, List.length_append, ih]; rfl

theorem fixedDigits_lt {base : Nat} (positive : 0 < base) (width n : Nat) :
    ∀ d ∈ fixedDigits base width n, d < base := by
  induction width generalizing n with
  | zero => simp [fixedDigits]
  | succ width ih =>
      intro d member
      rw [fixedDigits, List.mem_append, List.mem_singleton] at member
      rcases member with earlier | rfl
      · exact ih _ d earlier
      · exact Nat.mod_lt _ positive

theorem number_append (base : Nat) (xs : List Nat) (d : Nat) :
    number base (xs ++ [d]) = number base xs * base + d := by
  simp [number]

/-- The first digit counts most. -/
theorem number_eq_ofDigits (base : Nat) (xs : List Nat) :
    number base xs = Nat.ofDigits base xs.reverse := by
  have step : (fun n d : Nat => n * base + d) = fun n d => d + base * n := by
    funext n d
    ring
  rw [number, Nat.ofDigits_eq_foldr, List.foldr_reverse, step]
  rfl

theorem number_injective {base : Nat} (large : 1 < base) {xs ys : List Nat}
    (xsSmall : ∀ d ∈ xs, d < base) (ysSmall : ∀ d ∈ ys, d < base)
    (same : xs.length = ys.length) (equal : number base xs = number base ys) : xs = ys := by
  rw [number_eq_ofDigits, number_eq_ofDigits] at equal
  apply List.reverse_injective
  apply Nat.ofDigits_inj_of_len_eq large _ _ _ equal
  · rw [List.length_reverse, List.length_reverse, same]
  · intro d listed
    exact xsSmall d (List.mem_reverse.mp listed)
  · intro d listed
    exact ysSmall d (List.mem_reverse.mp listed)

theorem number_lt {base : Nat} {xs : List Nat} (small : ∀ d ∈ xs, d < base) :
    number base xs < base ^ xs.length := by
  induction xs using List.reverseRecOn with
  | nil => simp [number]
  | append_singleton xs d ih =>
      have earlier := ih fun e member => small e (List.mem_append_left _ member)
      have last := small d (List.mem_append_right _ (List.mem_singleton.mpr rfl))
      rw [number_append, List.length_append, List.length_singleton, Nat.pow_succ]
      calc number base xs * base + d < number base xs * base + base := by omega
        _ = (number base xs + 1) * base := by ring
        _ ≤ base ^ xs.length * base := Nat.mul_le_mul_right _ earlier

theorem length_fromHex (xs : List Nat) : (fromHex xs).length = xs.length / 2 := by
  induction xs using fromHex.induct with
  | case1 high low rest ih =>
      simp only [fromHex, List.length_cons, ih]
      omega
  | case2 xs short =>
      cases xs with
      | nil => rfl
      | cons high rest =>
          cases rest with
          | nil => simp [fromHex]
          | cons low rest => exact absurd rfl (short high low rest)

/-- The number of an mRID's digits is the number of its bytes. -/
theorem ofBytes_fromHex {xs : List Nat} (hex : ∀ d ∈ xs, d < 16) (even : xs.length % 2 = 0) :
    ofBytes (fromHex xs) = number 16 xs := by
  have each : ∀ n, (fromHex xs).foldl (fun n byte => n * 256 + byte.toNat) n =
      xs.foldl (fun n d => n * 16 + d) n := by
    induction xs using fromHex.induct with
    | case1 high low rest ih =>
        intro n
        simp only [List.mem_cons, forall_eq_or_imp] at hex
        simp only [List.length_cons] at even
        simp only [fromHex, List.foldl_cons]
        rw [UInt8.toNat_ofNat_of_lt' (by change _ < 256; omega), ih hex.2.2 (by omega)]
        congr 1
        ring
    | case2 xs short =>
        intro n
        cases xs with
        | nil => rfl
        | cons high rest =>
            cases rest with
            | nil => cases even
            | cons low rest => exact absurd rfl (short high low rest)
  exact each 0

/-! ### The SFDI -/

section Sfdi

variable {lfdi : Lfdi}

theorem toList_toLower (text : String) :
    text.toLower.toList = text.toList.map Char.toLower :=
  String.toList_map

theorem hexDigits_toLower (lfdi : Lfdi) : hexDigits lfdi.toLower = lfdi.toList.map hexValue := by
  simp [hexDigits, toList_toLower, hexValue, Function.comp_def]

theorem hexValue_lt {c : Char} (hex : isHex c = true) : hexValue c < 16 := by
  have ascii : c.toNat < 128 := by
    simp only [isHex, Char.isDigit, Bool.or_eq_true, Bool.and_eq_true, decide_eq_true_eq,
      Char.le_def, UInt32.le_iff_toNat_le] at hex
    have same : c.val.toNat = c.toNat := rfl
    simp at hex
    omega
  have small : ∀ n : Fin 128, isHex (Char.ofNat n) = true → hexValue (Char.ofNat n) < 16 := by
    decide
  have found := small ⟨c.toNat, ascii⟩
  rw [Char.ofNat_toNat] at found
  exact found hex

theorem sfdiBase_lt (valid : IsLfdi lfdi) : sfdiBase lfdi < 16 ^ 9 := by
  have digits : ∀ d ∈ (lfdi.toList.take 9).map hexValue, d < 16 := by
    intro d member
    obtain ⟨c, listed, rfl⟩ := List.mem_map.mp member
    exact hexValue_lt (valid.hex c (List.mem_of_mem_take listed))
  have bound := number_lt digits
  rwa [List.length_map, List.length_take_of_le (by rw [valid.length]; decide)] at bound

theorem sum_decimalDigits (n : Nat) : (decimalDigits n).sum = (Nat.digits 10 n).sum := by
  unfold decimalDigits
  split
  · rename_i zero
    simp [zero]
  · exact List.sum_reverse _

theorem sum_fixedDigits (width n : Nat) (fits : n < 10 ^ width) :
    (fixedDigits 10 width n).sum = (Nat.digits 10 n).sum := by
  induction width generalizing n with
  | zero =>
      have zero : n = 0 := Nat.lt_one_iff.mp fits
      simp [zero, fixedDigits]
  | succ width ih =>
      rw [fixedDigits, List.sum_append, ih (n / 10) (by rw [Nat.pow_succ] at fits; omega)]
      by_cases zero : n = 0
      · simp [zero]
      · rw [Nat.digits_def' (by decide) (Nat.pos_of_ne_zero zero), List.sum_cons]
        simp [Nat.add_comm]

theorem number_decimalDigits (n : Nat) : number 10 (decimalDigits n) = n := by
  unfold decimalDigits
  split
  · rename_i zero
    rw [zero]
    rfl
  · rw [number_eq_ofDigits, List.reverse_reverse, Nat.ofDigits_digits]

/-- The SFDI with its check digit. -/
theorem computeSfdi_toLower (valid : IsLfdi lfdi) : computeSfdi lfdi.toLower =
    sfdiBase lfdi * 10 + (10 - (Nat.digits 10 (sfdiBase lfdi)).sum % 10) % 10 := by
  have base := sfdiBase_lt valid
  have few : sfdiBase lfdi < 10 ^ 11 := by omega
  rw [computeSfdi, hexDigits_toLower, ← List.map_take]
  change sfdiBase lfdi * 10 + (10 - (fixedDigits 10 11 (sfdiBase lfdi)).sum % 10) % 10 = _
  rw [sum_fixedDigits 11 _ few]

/-- Both functions compute it. -/
theorem sfdi_agree (valid : IsLfdi lfdi) :
    sfdiText lfdi = computeSfdi lfdi.toLower ∧
      Security.computeSfdi lfdi = .ok (computeSfdi lfdi.toLower) := by
  have length : ¬ lfdi.length < 9 := by
    rw [← String.length_toList, valid.length]
    decide
  rw [computeSfdi_toLower valid]
  constructor
  · have one : ∀ check, check < 10 → decimalDigits check = [check] := by decide
    simp only [sfdiText, sum_decimalDigits]
    rw [one _ (Nat.mod_lt _ (by decide)), number_append, number_decimalDigits]
  · simp only [Security.computeSfdi, if_neg length, sum_decimalDigits]

/-- It fits twelve digits, and their sum is a multiple of ten. -/
theorem computeSfdi_checks (valid : IsLfdi lfdi) :
    computeSfdi lfdi.toLower < 10 ^ 12 ∧
      (Nat.digits 10 (computeSfdi lfdi.toLower)).sum % 10 = 0 := by
  have base := sfdiBase_lt valid
  rw [computeSfdi_toLower valid]
  generalize sfdiBase lfdi = n at base
  constructor
  · have check := Nat.mod_lt (10 - (Nat.digits 10 n).sum % 10) (show 0 < 10 by decide)
    omega
  · by_cases zero : n = 0
    · simp [zero]
    · rw [Nat.add_comm, Nat.mul_comm, Nat.digits_add 10 (by decide) _ _ (Nat.mod_lt _ (by decide))
        (.inr zero), List.sum_cons]
      omega

end Sfdi

/-! ### The slots -/

section Slots

variable {lfdi : Lfdi}

/-- The LFDI begins with eleven times the same decimal digit. -/
def Uniform (lfdi : Lfdi) : Prop :=
  ∃ digit < 10, ((lfdi.toList.take 11).map hexValue) = List.replicate 11 digit

/-- The slots of the tables have mRIDs of their own. -/
def SlotsApart (lfdi : Lfdi) : Prop :=
  ∀ i ≤ 97, ∀ j ≤ 97, createMridBytes lfdi i = createMridBytes lfdi j → i = j

/-- What stands between the SFDI and the PEN: twelve hexadecimal digits. -/
structure IsMiddle (middle : List Nat) : Prop where
  length : middle.length = 12
  hex : ∀ d ∈ middle, d < 16

theorem mridDigits_hex {middle : List Nat} (isMiddle : IsMiddle middle) :
    (mridDigits lfdi middle).length = 32 ∧ ∀ d ∈ mridDigits lfdi middle, d < 16 := by
  constructor
  · simp only [mridDigits, List.length_append, length_fixedDigits, isMiddle.length]
  · intro d member
    simp only [mridDigits, List.mem_append] at member
    rcases member with (sfdi | mid) | pen
    · exact (fixedDigits_lt (by decide) 12 _ d sfdi).trans (by decide)
    · exact isMiddle.hex d mid
    · exact fixedDigits_lt (by decide) 8 _ d pen

/-- mRIDs of one device differ where the digits in their middle do. -/
theorem mridNumber_injective {first second : List Nat} (isFirst : IsMiddle first)
    (isSecond : IsMiddle second)
    (same : number 16 (mridDigits lfdi first) = number 16 (mridDigits lfdi second)) :
    first = second := by
  obtain ⟨length, hex⟩ := @mridDigits_hex lfdi _ isFirst
  obtain ⟨length', hex'⟩ := @mridDigits_hex lfdi _ isSecond
  have digits := number_injective (by decide) hex hex' (by rw [length, length']) same
  simp only [mridDigits] at digits
  exact List.append_cancel_left (List.append_cancel_right digits)

theorem mrid_injective {first second : List Nat} (isFirst : IsMiddle first)
    (isSecond : IsMiddle second)
    (same : fromHex (mridDigits lfdi first) = fromHex (mridDigits lfdi second)) :
    first = second := by
  obtain ⟨length, hex⟩ := @mridDigits_hex lfdi _ isFirst
  obtain ⟨length', hex'⟩ := @mridDigits_hex lfdi _ isSecond
  apply @mridNumber_injective lfdi _ _ isFirst isSecond
  rw [← ofBytes_fromHex hex (by rw [length]), ← ofBytes_fromHex hex' (by rw [length']), same]

theorem hexDigits_valid (valid : IsLfdi lfdi) :
    (hexDigits lfdi.toLower).length = 40 ∧ ∀ d ∈ hexDigits lfdi.toLower, d < 16 := by
  rw [hexDigits_toLower]
  refine ⟨by rw [List.length_map, valid.length], fun d member => ?_⟩
  obtain ⟨c, listed, rfl⟩ := List.mem_map.mp member
  exact hexValue_lt (valid.hex c listed)

theorem slotDigits_isMiddle (valid : IsLfdi lfdi) (index : Nat) :
    IsMiddle (slotDigits lfdi.toLower index) := by
  obtain ⟨length, hex⟩ := hexDigits_valid valid
  unfold slotDigits
  split
  · rename_i one
    refine ⟨?_, fun d member => ?_⟩
    · rw [List.length_cons, List.length_take_of_le (by omega)]
    · rcases List.mem_cons.mp member with rfl | later
      · omega
      · exact hex d (List.mem_of_mem_take later)
  · refine ⟨?_, fun d member => ?_⟩
    · rw [List.length_append, length_fixedDigits, List.length_take_of_le (by omega)]
    · rcases List.mem_append.mp member with slot | later
      · exact (fixedDigits_lt (by decide) 2 _ d slot).trans (by decide)
      · exact hex d (List.mem_of_mem_take later)

theorem hashed_isMiddle (digest : HexDigest) : IsMiddle (15 :: digest.digits.take 11) := by
  refine ⟨?_, fun d member => ?_⟩
  · rw [List.length_cons, List.length_take_of_le (by rw [digest.length]; decide)]
  · rcases List.mem_cons.mp member with rfl | later
    · decide
    · exact digest.hex d (List.mem_of_mem_take later)

/-- A list is its own beginning one place on if it has one member only there. -/
theorem take_eq_cons_take_iff {n : Nat} {xs : List Nat} (long : n < xs.length) (d : Nat) :
    xs.take (n + 1) = d :: xs.take n ↔ xs.take (n + 1) = List.replicate (n + 1) d := by
  induction n generalizing xs with
  | zero => rw [List.take_zero, List.replicate_one]
  | succ n ih =>
      obtain ⟨x, rest, rfl⟩ := List.exists_cons_of_length_pos (Nat.zero_lt_of_lt long)
      have later := ih (Nat.lt_of_succ_lt_succ long : n < rest.length)
      have replicated : List.replicate (n + 1 + 1) d = d :: List.replicate (n + 1) d := rfl
      rw [replicated]
      simp only [List.take_succ_cons, List.cons.injEq]
      constructor
      · rintro ⟨rfl, repeats⟩
        exact ⟨rfl, later.mp repeats⟩
      · rintro ⟨rfl, all⟩
        exact ⟨rfl, later.mpr all⟩

/-- A slot of one digit and one of two have the same digits where the LFDI repeats the second of
the two. -/
theorem slotDigits_eq_iff (valid : IsLfdi lfdi) {i j : Nat} (one : i < 10) (two : 10 ≤ j)
    (most : j < 100) :
    slotDigits lfdi.toLower i = slotDigits lfdi.toLower j ↔
      i = j / 10 ∧ (lfdi.toList.take 11).map hexValue = List.replicate 11 (j % 10) := by
  have long : 10 < (hexDigits lfdi.toLower).length := by
    rw [(hexDigits_valid valid).1]
    decide
  have slot : fixedDigits 10 2 j = [j / 10, j % 10] := by
    have tens : j / 10 % 10 = j / 10 := Nat.mod_eq_of_lt (by omega)
    simp [fixedDigits, tens]
  rw [slotDigits, if_pos one, slotDigits, if_neg (Nat.not_lt.mpr two), slot, List.map_take,
    ← hexDigits_toLower, ← take_eq_cons_take_iff long]
  simp only [List.cons_append, List.nil_append, List.cons.injEq]

/-- A slot of one digit reads as this one of two, with the LFDI behind it. -/
def ReadsAs (lfdi : Lfdi) (i j : Nat) : Prop :=
  10 ≤ j ∧ i = j / 10 ∧ (hexDigits lfdi).take 11 = List.replicate 11 (j % 10)

instance (lfdi : Lfdi) (i j : Nat) : Decidable (ReadsAs lfdi i j) :=
  inferInstanceAs (Decidable (_ ∧ _ ∧ _))

theorem eq_or_readsAs (valid : IsLfdi lfdi) {i j : Nat} (iSlot : i < 100) (jSlot : j < 100)
    (same : slotDigits lfdi.toLower i = slotDigits lfdi.toLower j) :
    i = j ∨ ReadsAs lfdi.toLower i j ∨ ReadsAs lfdi.toLower j i := by
  have digits : (hexDigits lfdi.toLower).take 11 = (lfdi.toList.take 11).map hexValue := by
    rw [hexDigits_toLower, List.map_take]
  rcases Nat.lt_or_ge i 10 with one | two <;> rcases Nat.lt_or_ge j 10 with one' | two'
  · rw [slotDigits, if_pos one, slotDigits, if_pos one'] at same
    exact .inl (List.cons.inj same).1
  · obtain ⟨tens, repeats⟩ := (slotDigits_eq_iff valid one two' jSlot).mp same
    exact .inr (.inl ⟨two', tens, digits.trans repeats⟩)
  · obtain ⟨tens, repeats⟩ := (slotDigits_eq_iff valid one' two iSlot).mp same.symm
    exact .inr (.inr ⟨two, tens, digits.trans repeats⟩)
  · rw [slotDigits, if_neg (Nat.not_lt.mpr two), slotDigits, if_neg (Nat.not_lt.mpr two')] at same
    have slots := List.append_inj_left same (by simp [length_fixedDigits])
    simp only [fixedDigits, List.nil_append, List.cons_append, List.cons.injEq] at slots
    exact .inl (by omega)

theorem ReadsAs.uniform {i j : Nat} (reads : ReadsAs lfdi.toLower i j) : Uniform lfdi := by
  obtain ⟨_, _, repeats⟩ := reads
  rw [hexDigits_toLower, ← List.map_take] at repeats
  exact ⟨j % 10, Nat.mod_lt _ (by decide), repeats⟩

theorem slotDigits_injective (valid : IsLfdi lfdi) (mixed : ¬ Uniform lfdi) {i j : Nat}
    (iSlot : i ≤ 97) (jSlot : j ≤ 97)
    (same : slotDigits lfdi.toLower i = slotDigits lfdi.toLower j) : i = j := by
  rcases eq_or_readsAs valid (by omega) (by omega) same with one | reads | reads
  · exact one
  · exact absurd reads.uniform mixed
  · exact absurd reads.uniform mixed

theorem createMridBytes_eq (index : Nat) : createMridBytes lfdi index =
    fromHex (mridDigits lfdi.toLower (slotDigits lfdi.toLower index)) :=
  rfl

theorem slotsApart_iff (valid : IsLfdi lfdi) : SlotsApart lfdi ↔ ¬ Uniform lfdi := by
  constructor
  · rintro apart ⟨digit, small, repeats⟩
    have same : slotDigits lfdi.toLower 1 = slotDigits lfdi.toLower (10 + digit) :=
      (slotDigits_eq_iff valid (by decide) (by omega) (by omega)).mpr
        ⟨by omega, by rw [show (10 + digit) % 10 = digit by omega]; exact repeats⟩
    have equal := apart 1 (by decide) (10 + digit) (by omega)
      (by rw [createMridBytes_eq, createMridBytes_eq, same])
    omega
  · intro mixed i iSlot j jSlot same
    rw [createMridBytes_eq, createMridBytes_eq] at same
    exact slotDigits_injective valid mixed iSlot jSlot (mrid_injective
      (slotDigits_isMiddle valid i) (slotDigits_isMiddle valid j) same)

/-- The middle of a hashed mRID begins with a letter. -/
theorem slotDigits_ne_hashed {index : Nat} (fits : index < 100) (digest : List Nat) :
    slotDigits lfdi index ≠ 15 :: digest := by
  intro same
  unfold slotDigits at same
  split at same
  · rename_i one
    have := (List.cons.inj same).1
    omega
  · simp only [fixedDigits, List.nil_append, List.cons_append, List.cons.injEq] at same
    omega

theorem slot_ne_hashed (valid : IsLfdi lfdi) {index : Nat} (fits : index < 100)
    (sha256 : String → HexDigest) (identity : ReadingIdentity) (salt : String) :
    createMridBytes lfdi index ≠ hashedMridBytes sha256 lfdi identity salt := by
  intro same
  rw [createMridBytes_eq] at same
  simp only [hashedMridBytes] at same
  have middle := mrid_injective (slotDigits_isMiddle valid index) (hashed_isMiddle _) same
  exact slotDigits_ne_hashed fits _ middle

end Slots

theorem createMrid_eq (lfdi : Lfdi) (index : Nat) :
    createMrid lfdi index = number 16 (mridDigits lfdi (slotDigits lfdi index)) := by
  unfold createMrid
  rfl

/-- The mRIDs of a device's slots have 16 bytes and are none of its hashed ones, and both functions
compute a SFDI of twelve digits with a sum that is a multiple of ten. The slots are apart if and
only if the LFDI does not begin with eleven times the same decimal digit. -/
theorem mrids_apart_iff {lfdi : Lfdi} (valid : IsLfdi lfdi) :
    (SlotsApart lfdi ∧
      (∀ i ≤ 97, (createMridBytes lfdi i).length = 16 ∧ ∀ sha256 identity salt,
        createMridBytes lfdi i ≠ hashedMridBytes sha256 lfdi identity salt) ∧
      ∃ sfdi, sfdiText lfdi = sfdi ∧ Security.computeSfdi lfdi = .ok sfdi ∧ sfdi < 10 ^ 12 ∧
        (Nat.digits 10 sfdi).sum % 10 = 0) ↔
      ¬ Uniform lfdi := by
  have others : (∀ i ≤ 97, (createMridBytes lfdi i).length = 16 ∧ ∀ sha256 identity salt,
      createMridBytes lfdi i ≠ hashedMridBytes sha256 lfdi identity salt) ∧
      ∃ sfdi, sfdiText lfdi = sfdi ∧ Security.computeSfdi lfdi = .ok sfdi ∧ sfdi < 10 ^ 12 ∧
        (Nat.digits 10 sfdi).sum % 10 = 0 := by
    refine ⟨fun i slot => ⟨?_, slot_ne_hashed valid (by omega)⟩, computeSfdi lfdi.toLower, ?_⟩
    · rw [createMridBytes, length_fromHex, (mridDigits_hex (slotDigits_isMiddle valid i)).1]
    · exact ⟨(sfdi_agree valid).1, (sfdi_agree valid).2, computeSfdi_checks valid⟩
  rw [and_iff_left others]
  exact slotsApart_iff valid

/-- An LFDI of one digit, 40 times. -/
def repeated (c : Char) : Lfdi := String.ofList (List.replicate 40 c)

theorem repeated_isLfdi {c : Char} (hex : isHex c = true) : IsLfdi (repeated c) := by
  refine ⟨by simp [repeated], fun d member => ?_⟩
  rw [repeated, String.toList_ofList] at member
  rwa [List.eq_of_mem_replicate member]

/-- With zeros only, slots 1 and 10 have one mRID. -/
theorem zeros_clash : IsLfdi (repeated '0') ∧
    createMridBytes (repeated '0') 1 = createMridBytes (repeated '0') 10 ∧
    ¬ SlotsApart (repeated '0') := by
  have same : createMridBytes (repeated '0') 1 = createMridBytes (repeated '0') 10 := by
    decide +kernel
  exact ⟨repeated_isLfdi (by decide), same,
    fun apart => absurd (apart 1 (by decide) 10 (by decide) same) (by decide)⟩

/-- With letters only, the slots are apart. -/
theorem letters_apart : (SlotsApart (repeated 'a') ∧
    (∀ i ≤ 97, (createMridBytes (repeated 'a') i).length = 16 ∧ ∀ sha256 identity salt,
      createMridBytes (repeated 'a') i ≠ hashedMridBytes sha256 (repeated 'a') identity salt) ∧
    ∃ sfdi, sfdiText (repeated 'a') = sfdi ∧ Security.computeSfdi (repeated 'a') = .ok sfdi ∧
      sfdi < 10 ^ 12 ∧ (Nat.digits 10 sfdi).sum % 10 = 0) := by
  refine (mrids_apart_iff (repeated_isLfdi (by decide))).mpr ?_
  rintro ⟨digit, small, same⟩
  have first : [10] = [digit] := congrArg (List.take 1) same
  have := List.cons.inj first
  omega

end Py20305.Telemetry
