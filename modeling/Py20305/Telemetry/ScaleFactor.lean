import Mathlib.Algebra.Order.Field.Power
import Mathlib.Tactic.Positivity
import Py20305.Lib.Dict
import Py20305.Lib.Rounding

/-!
Values with a power-of-ten multiplier (`telemetry/scale_factor.py`).

`float_to_int` moves the decimal point behind the last place of a number, and `_clamp_int16`
gives up places again, one rounding a round, until the value fits 16 bits. The error does not
pile up: it stays below 5/9 of the last place (`clampInt16_error`). How far a number takes the
multiplier is decided by the bounds `lowest` and `highest` (`clampInt16_le_iff`).

A float is an exact rational here; its decimals are those that `str` prints in positional
notation.
-/

namespace Py20305.Telemetry

/-! ### Converting -/

theorem natAbs_roundHalfEven_tenth_lt {value : ℤ} (large : value > 32767 ∨ value < -32768) :
    (roundHalfEven ((value : ℚ) / 10)).natAbs < value.natAbs := by
  rw [roundHalfEven_tenth]
  split_ifs <;> omega

/-- `_clamp_int16`. -/
def clampInt16 (value multiplier : ℤ) : ℤ × ℤ :=
  if value > 32767 ∨ value < -32768 then
    clampInt16 (roundHalfEven ((value : ℚ) / 10)) (multiplier + 1)
  else (value, multiplier)
termination_by value.natAbs
decreasing_by
  rename_i large
  exact natAbs_roundHalfEven_tenth_lt large

/-- `round(value, 9)`. -/
def roundNinePlaces (value : ℚ) : ℚ := roundHalfEven (value * 10 ^ 9) / 10 ^ 9

/-- How many decimal places `str(value)` has, without trailing zeros. -/
def decimalPlaces (value : ℚ) : ℕ :=
  ((List.range 10).find? fun places => (value * 10 ^ places).den = 1).getD 9

/-- `float_to_int`. -/
def floatToInt (value : ℚ) : ℤ × ℤ :=
  let value := roundNinePlaces value
  let places := decimalPlaces value
  if places = 0 then clampInt16 (truncate value) 0
  else clampInt16 (roundHalfEven (value * 10 ^ places)) (-places)

/-- What a value is, or an entry of one. -/
inductive Scalar where
  | none
  | int (n : ℤ)
  | float (x : ℚ)
  /-- A string, or anything else that is no number. -/
  | other
  deriving DecidableEq

/-- What a connector reports. -/
inductive ConnectorValue where
  | scalar (value : Scalar)
  | list
  | dict (entries : Dict String Scalar)

/-- The dict that is returned: the value under its name, and the multiplier. -/
structure ScaleFactor where
  valueName : String
  value : ℤ
  multiplier : ℤ
  deriving DecidableEq

/-- `sf_data.get("value") if "value" in sf_data else sf_data.get(value_name)`. -/
def dictValue (entries : Dict String Scalar) (valueName : String) : Scalar :=
  match entries.get? "value" with
  | some value => value
  | Option.none => entries.getD valueName .none

def dictMultiplier (entries : Dict String Scalar) : Scalar := entries.getD "multiplier" .none

/-- `_convert_dict_sf`. -/
def convertDictSf (entries : Dict String Scalar) (valueName : String) : Option ScaleFactor :=
  match dictMultiplier entries with
  | .int multiplier =>
      if multiplier < -128 ∨ multiplier > 127 then none
      else
        match dictValue entries valueName with
        | .float x =>
            let converted := floatToInt x
            let clamped := clampInt16 converted.1 converted.2
            some ⟨valueName, clamped.1, clamped.2⟩
        | .int n =>
            let clamped := clampInt16 n multiplier
            some ⟨valueName, clamped.1, clamped.2⟩
        | _ => none
  | _ => none

/-- `get_sf`. -/
def getSf (value : ConnectorValue) (valueName : String) : Option ScaleFactor :=
  match value with
  | .scalar (.int n) =>
      let converted := floatToInt n
      some ⟨valueName, converted.1, converted.2⟩
  | .scalar (.float x) =>
      let converted := floatToInt x
      some ⟨valueName, converted.1, converted.2⟩
  | .dict entries => convertDictSf entries valueName
  | _ => none

/-! ### The rounds of the clamp -/

/-- The greatest value that fits 16 bits after some rounds. -/
def highest : ℕ → ℤ
  | 0 => 32767
  | rounds + 1 => 10 * highest rounds + if highest rounds % 2 = 0 then 5 else 4

/-- The least one. -/
def lowest : ℕ → ℤ
  | 0 => -32768
  | rounds + 1 => 10 * lowest rounds - if lowest rounds % 2 = 0 then 5 else 4

/-- A value that fits 16 bits after some rounds. -/
def FitsAfter (rounds : ℕ) (value : ℤ) : Prop := lowest rounds ≤ value ∧ value ≤ highest rounds

instance (rounds : ℕ) (value : ℤ) : Decidable (FitsAfter rounds value) := by
  unfold FitsAfter; infer_instance

theorem fitsAfter_zero (value : ℤ) : FitsAfter 0 value ↔ ¬ (value > 32767 ∨ value < -32768) := by
  simp only [FitsAfter, lowest, highest]
  omega

theorem fitsAfter_succ (rounds : ℕ) (value : ℤ) :
    FitsAfter (rounds + 1) value ↔ FitsAfter rounds (roundHalfEven ((value : ℚ) / 10)) := by
  rw [roundHalfEven_tenth]
  simp only [FitsAfter, lowest, highest]
  split_ifs <;> omega

theorem lowest_highest (rounds : ℕ) : lowest rounds ≤ -32768 ∧ 32767 ≤ highest rounds := by
  induction rounds with
  | zero => exact ⟨le_rfl, le_rfl⟩
  | succ rounds ih =>
      simp only [lowest, highest]
      split_ifs <;> omega

theorem le_clampInt16 (value multiplier : ℤ) : multiplier ≤ (clampInt16 value multiplier).2 := by
  fun_induction clampInt16 value multiplier with
  | case1 value multiplier large ih => omega
  | case2 value multiplier small => exact le_rfl

/-- The clamp raises the multiplier by so many rounds at most as the value needs. -/
theorem clampInt16_le_iff (rounds : ℕ) (value multiplier : ℤ) :
    (clampInt16 value multiplier).2 ≤ multiplier + rounds ↔ FitsAfter rounds value := by
  fun_induction clampInt16 value multiplier generalizing rounds with
  | case1 value multiplier large ih =>
      cases rounds with
      | zero =>
          have later := le_clampInt16 (roundHalfEven ((value : ℚ) / 10)) (multiplier + 1)
          rw [fitsAfter_zero]
          push_cast
          omega
      | succ rounds =>
          rw [fitsAfter_succ, ← ih rounds]
          push_cast
          omega
  | case2 value multiplier small =>
      have bounds := lowest_highest rounds
      simp only [FitsAfter]
      omega

/-- What is left fits 16 bits. -/
theorem clampInt16_fits (value multiplier : ℤ) :
    -32768 ≤ (clampInt16 value multiplier).1 ∧ (clampInt16 value multiplier).1 ≤ 32767 := by
  fun_induction clampInt16 value multiplier with
  | case1 value multiplier large ih => exact ih
  | case2 value multiplier small => dsimp only; omega

theorem clampInt16_eq_zero_iff (value multiplier : ℤ) :
    (clampInt16 value multiplier).1 = 0 ↔ value = 0 := by
  fun_induction clampInt16 value multiplier with
  | case1 value multiplier large ih =>
      rw [ih, roundHalfEven_tenth]
      split_ifs <;> omega
  | case2 value multiplier small => exact Iff.rfl

/-- The value of a pair. -/
def worth (pair : ℤ × ℤ) : ℚ := pair.1 * (10 : ℚ) ^ pair.2

/-- Each round adds at most a half, and leaves a tenth of the error there was. -/
theorem clampInt16_error {x : ℚ} {value multiplier : ℤ}
    (near : |worth (value, multiplier) - x| ≤ 5 / 9 * (10 : ℚ) ^ multiplier) :
    |worth (clampInt16 value multiplier) - x| ≤
      5 / 9 * (10 : ℚ) ^ (clampInt16 value multiplier).2 := by
  fun_induction clampInt16 value multiplier with
  | case1 value multiplier large ih =>
      apply ih
      have rounded := abs_roundHalfEven_sub_le ((value : ℚ) / 10)
      have unit : (10 : ℚ) ^ (multiplier + 1) = 10 * 10 ^ multiplier := by
        rw [zpow_add_one₀ (by norm_num), mul_comm]
      have positive : (0 : ℚ) < 10 ^ multiplier := zpow_pos (by norm_num) _
      rw [abs_le] at near rounded ⊢
      simp only [worth, unit] at near ⊢
      constructor <;> nlinarith
  | case2 value multiplier small => exact near

/-! ### Numbers -/

/-- A number with at most nine decimal places. -/
def NinePlaces (x : ℚ) : Prop := (x * 10 ^ 9).den = 1

instance (x : ℚ) : Decidable (NinePlaces x) := by
  unfold NinePlaces; infer_instance

/-- The digits of a number, read without the decimal point. -/
def digits (x : ℚ) : ℤ := (x * 10 ^ decimalPlaces x).num

theorem roundNinePlaces_eq {x : ℚ} (nine : NinePlaces x) : roundNinePlaces x = x := by
  have whole : x * 10 ^ 9 = ((x * 10 ^ 9).num : ℚ) := (Rat.den_eq_one_iff _).mp nine |>.symm
  rw [roundNinePlaces, whole, roundHalfEven_intCast, ← whole, mul_div_cancel_right₀ _ (by norm_num)]

theorem digits_eq {x : ℚ} (nine : NinePlaces x) : (digits x : ℚ) = x * 10 ^ decimalPlaces x := by
  apply (Rat.den_eq_one_iff _).mp
  unfold decimalPlaces
  cases found : (List.range 10).find? fun places => (x * 10 ^ places).den = 1 with
  | none => exact nine
  | some places =>
      have least := List.find?_some found
      simpa using least

theorem floatToInt_eq {x : ℚ} (nine : NinePlaces x) :
    floatToInt x = clampInt16 (digits x) (-(decimalPlaces x : ℤ)) := by
  have whole := digits_eq nine
  simp only [floatToInt, roundNinePlaces_eq nine]
  split
  · rename_i integral
    rw [integral, pow_zero, mul_one] at whole
    have same : truncate x = digits x := by
      conv_lhs => rw [truncate, ← whole]
      simp
    rw [same, integral]
    rfl
  · rw [← whole, roundHalfEven_intCast]

theorem decimalPlaces_le (x : ℚ) : decimalPlaces x ≤ 9 := by
  unfold decimalPlaces
  cases found : (List.range 10).find? fun places => (x * 10 ^ places).den = 1 with
  | none => exact le_rfl
  | some places => exact Nat.le_of_lt_succ (List.mem_range.mp (List.mem_of_find?_eq_some found))

theorem decimalPlaces_intCast (n : ℤ) : decimalPlaces n = 0 := by
  simp [decimalPlaces, List.range_succ_eq_map]

theorem ninePlaces_intCast (n : ℤ) : NinePlaces n := by
  have whole : (n : ℚ) * 10 ^ 9 = ((n * 10 ^ 9 : ℤ) : ℚ) := by push_cast; rfl
  rw [NinePlaces, whole, Rat.den_intCast]

theorem digits_intCast (n : ℤ) : digits n = n := by
  simp [digits, decimalPlaces_intCast]

theorem digits_eq_zero_iff {x : ℚ} (nine : NinePlaces x) : digits x = 0 ↔ x = 0 := by
  have whole := digits_eq nine
  constructor
  · intro zero
    rw [zero, Int.cast_zero] at whole
    exact (mul_eq_zero.mp whole.symm).resolve_right (by positivity)
  · rintro rfl
    simp [digits]

/-- What `float_to_int` makes of a number. -/
theorem floatToInt_spec {x : ℚ} (nine : NinePlaces x) :
    |worth (floatToInt x) - x| ≤ 5 / 9 * (10 : ℚ) ^ (floatToInt x).2 ∧
      -128 ≤ (floatToInt x).2 ∧ ((floatToInt x).1 = 0 ↔ x = 0) ∧
      ((floatToInt x).2 ≤ 127 ↔ FitsAfter (127 + decimalPlaces x) (digits x)) := by
  rw [floatToInt_eq nine]
  have places := decimalPlaces_le x
  refine ⟨clampInt16_error ?_, ?_, ?_, ?_⟩
  · have exact_ : worth (digits x, -(decimalPlaces x : ℤ)) = x := by
      rw [worth, digits_eq nine, zpow_neg, zpow_natCast, mul_assoc,
        mul_inv_cancel₀ (by positivity), mul_one]
    rw [exact_, sub_self, abs_zero]
    positivity
  · have := le_clampInt16 (digits x) (-(decimalPlaces x : ℤ))
    omega
  · rw [clampInt16_eq_zero_iff, digits_eq_zero_iff nine]
  · rw [← clampInt16_le_iff _ _ (-(decimalPlaces x : ℤ))]
    push_cast
    constructor <;> intro <;> omega

/-! ### Accuracy -/

/-- The number a value stands for. -/
def ConnectorValue.input (valueName : String) : ConnectorValue → Option ℚ
  | .scalar (.int n) => some n
  | .scalar (.float x) => some x
  | .dict entries =>
      match dictValue entries valueName, dictMultiplier entries with
      | .int n, .int multiplier => some (n * (10 : ℚ) ^ multiplier)
      | .float x, .int multiplier => some (x * (10 : ℚ) ^ multiplier)
      | _, _ => none
  | _ => none

/-- The floats in a value have at most nine decimal places. -/
def ConnectorValue.NinePlaces (valueName : String) : ConnectorValue → Prop
  | .scalar (.float x) => Telemetry.NinePlaces x
  | .dict entries => ∀ x, dictValue entries valueName = .float x → Telemetry.NinePlaces x
  | _ => True

/-- A scale factor is within the types of its fields and, but for 0.56 of the last place, the
number `x`. -/
structure ScaleFactor.Near (sf : ScaleFactor) (x : ℚ) : Prop where
  value : -32768 ≤ sf.value ∧ sf.value ≤ 32767
  multiplier : -128 ≤ sf.multiplier ∧ sf.multiplier ≤ 127
  error : |sf.value * (10 : ℚ) ^ sf.multiplier - x| < 56 / 100 * (10 : ℚ) ^ sf.multiplier

/-- A value is left out or converted to a scale factor near it. -/
def ConnectorValue.Preserved (valueName : String) (value : ConnectorValue) : Prop :=
  ∀ sf, getSf value valueName = some sf → ∃ x, value.input valueName = some x ∧ sf.Near x

/-- A number that takes the multiplier to 127 at most. -/
def Representable (x : ℚ) : Prop := FitsAfter (127 + decimalPlaces x) (digits x)

/-- What converts as it should: no number is out of the multiplier's range, and a dict with a float
that is not zero has the multiplier 0. -/
def ConnectorValue.Converts (valueName : String) : ConnectorValue → Prop
  | .scalar (.int n) => FitsAfter 127 n
  | .scalar (.float x) => Representable x
  | .dict entries => ∀ multiplier, dictMultiplier entries = .int multiplier →
      -128 ≤ multiplier → multiplier ≤ 127 →
        match dictValue entries valueName with
        | .int n => FitsAfter (127 - multiplier).toNat n
        | .float x => (multiplier = 0 ∨ x = 0) ∧ Representable x
        | _ => True
  | _ => True

section Accuracy

variable {valueName : String} {x : ℚ}

theorem near_of_error {pair : ℤ × ℤ}
    (fits : -32768 ≤ pair.1 ∧ pair.1 ≤ 32767) (least : -128 ≤ pair.2)
    (error : |worth pair - x| ≤ 5 / 9 * (10 : ℚ) ^ pair.2) :
    ScaleFactor.Near ⟨valueName, pair.1, pair.2⟩ x ↔ pair.2 ≤ 127 := by
  have unit : (0 : ℚ) < 10 ^ pair.2 := zpow_pos (by norm_num) _
  refine ⟨fun near => near.multiplier.2, fun most => ⟨fits, ⟨least, most⟩, ?_⟩⟩
  refine lt_of_le_of_lt error ?_
  linarith

theorem floatToInt_fits {x : ℚ} (nine : NinePlaces x) :
    -32768 ≤ (floatToInt x).1 ∧ (floatToInt x).1 ≤ 32767 := by
  rw [floatToInt_eq nine]
  exact clampInt16_fits _ _

/-- A number is preserved as long as its multiplier is in range. -/
theorem floatToInt_near_iff (nine : NinePlaces x) :
    ScaleFactor.Near ⟨valueName, (floatToInt x).1, (floatToInt x).2⟩ x ↔ Representable x := by
  obtain ⟨error, least, -, most⟩ := floatToInt_spec nine
  exact (near_of_error (floatToInt_fits nine) least error).trans most

theorem clampInt16_of_fits {value : ℤ} (multiplier : ℤ) (fits : -32768 ≤ value ∧ value ≤ 32767) :
    clampInt16 value multiplier = (value, multiplier) := by
  rw [clampInt16, if_neg (by omega)]

/-- An integer with a multiplier is preserved as long as the multiplier stays in range. -/
theorem clampInt16_near_iff {n multiplier : ℤ} (least : -128 ≤ multiplier)
    (most : multiplier ≤ 127) :
    ScaleFactor.Near ⟨valueName, (clampInt16 n multiplier).1, (clampInt16 n multiplier).2⟩
        (n * (10 : ℚ) ^ multiplier) ↔ FitsAfter (127 - multiplier).toNat n := by
  have error : |worth (clampInt16 n multiplier) - n * (10 : ℚ) ^ multiplier| ≤
      5 / 9 * (10 : ℚ) ^ (clampInt16 n multiplier).2 := by
    refine clampInt16_error ?_
    rw [worth, sub_self, abs_zero]
    positivity
  have risen := le_clampInt16 n multiplier
  rw [near_of_error (clampInt16_fits n multiplier) (by omega) error,
    ← clampInt16_le_iff _ _ multiplier]
  omega

/-- A number that is near an integer other than zero is near it after no other power of ten. -/
theorem shift_eq_zero {v y : ℚ} (large : 1 ≤ v) (near : |v - y| ≤ 5 / 9) {k : ℤ}
    (shifted : |v - y * 10 ^ k| < 56 / 100) : k = 0 := by
  rw [abs_le] at near
  rw [abs_lt] at shifted
  have positive : 0 < y := by linarith
  rcases lt_trichotomy k 0 with less | zero | greater
  · have tenth : (10 : ℚ) ^ k ≤ 1 / 10 := by
      have := zpow_le_zpow_right₀ (by norm_num : (1 : ℚ) ≤ 10) (show k ≤ -1 by omega)
      simpa using this
    have := mul_le_mul_of_nonneg_left tenth positive.le
    linarith
  · exact zero
  · have ten : (10 : ℚ) ≤ 10 ^ k := by
      have := zpow_le_zpow_right₀ (by norm_num : (1 : ℚ) ≤ 10) (show 1 ≤ k by omega)
      simpa using this
    have := mul_le_mul_of_nonneg_left ten positive.le
    linarith

/-- A scale factor near a number, but not zero, is near no other power of ten of it. -/
theorem near_shifted {v m k : ℤ} (nonzero : v ≠ 0)
    (near : |(v : ℚ) * 10 ^ m - x| ≤ 5 / 9 * (10 : ℚ) ^ m)
    (shifted : |(v : ℚ) * 10 ^ m - x * 10 ^ k| < 56 / 100 * (10 : ℚ) ^ m) : k = 0 := by
  have unit : (0 : ℚ) < 10 ^ m := zpow_pos (by norm_num) _
  obtain ⟨y, rfl⟩ : ∃ y, x = y * 10 ^ m := ⟨x / 10 ^ m, (div_mul_cancel₀ x unit.ne').symm⟩
  have scaled : ∀ z : ℚ, |(v : ℚ) * 10 ^ m - z * 10 ^ m| = |v - z| * 10 ^ m := fun z => by
    rw [← sub_mul, abs_mul, abs_of_pos unit]
  rw [scaled, mul_le_mul_iff_left₀ unit] at near
  rw [mul_right_comm, scaled, mul_lt_mul_iff_left₀ unit] at shifted
  rcases lt_or_gt_of_ne nonzero with negative | positive
  · have large : (1 : ℚ) ≤ -v := by exact_mod_cast (show (1 : ℤ) ≤ -v by omega)
    refine shift_eq_zero (y := -y) large ?_ ?_
    · rwa [neg_sub_neg, abs_sub_comm]
    · rwa [neg_mul, neg_sub_neg, abs_sub_comm]
  · exact shift_eq_zero (by exact_mod_cast positive) near shifted

/-- A float in a dict loses its multiplier: it is preserved only where that is 0, or the float. -/
theorem dict_float_near_iff (nine : NinePlaces x) (k : ℤ) :
    ScaleFactor.Near ⟨valueName, (floatToInt x).1, (floatToInt x).2⟩ (x * (10 : ℚ) ^ k) ↔
      (k = 0 ∨ x = 0) ∧ Representable x := by
  obtain ⟨error, least, zero, most⟩ := floatToInt_spec nine
  constructor
  · intro near
    refine ⟨?_, most.mp near.multiplier.2⟩
    by_cases nothing : x = 0
    · exact .inr nothing
    · exact .inl (near_shifted (fun none_ => nothing (zero.mp none_)) error near.error)
  · rintro ⟨rfl | rfl, representable⟩
    · rw [zpow_zero, mul_one]
      exact (floatToInt_near_iff nine).mpr representable
    · rw [zero_mul]
      exact (floatToInt_near_iff nine).mpr representable

end Accuracy

section Dict

variable {valueName : String} {value : ConnectorValue} {entries : Dict String Scalar}

/-- A value that is converted is preserved if the scale factor is near the number. -/
theorem preserved_iff_near (sf : ScaleFactor) (x : ℚ) (made : getSf value valueName = some sf)
    (stands : value.input valueName = some x) : value.Preserved valueName ↔ sf.Near x := by
  constructor
  · intro preserved
    obtain ⟨x', same, near⟩ := preserved sf made
    rw [stands] at same
    rwa [Option.some.inj same]
  · intro near sf' made'
    rw [made] at made'
    exact ⟨x, stands, Option.some.inj made' ▸ near⟩

theorem preserved_of_none (omitted : getSf value valueName = none) :
    value.Preserved valueName := by
  intro sf made
  rw [omitted] at made
  cases made

/-- A dict without a multiplier in its range is left out. -/
theorem convertDictSf_of_multiplier (valid : ¬ ∃ multiplier : ℤ,
      dictMultiplier entries = .int multiplier ∧ -128 ≤ multiplier ∧ multiplier ≤ 127) :
    convertDictSf entries valueName = none := by
  unfold convertDictSf
  split
  · rename_i multiplier found
    split
    · rfl
    · exact absurd ⟨multiplier, found, by omega, by omega⟩ valid
  · rfl

theorem dict_preserved_iff (entries : Dict String Scalar)
    (nine : ∀ x, dictValue entries valueName = .float x → Telemetry.NinePlaces x) :
    (ConnectorValue.dict entries).Preserved valueName ↔
      (ConnectorValue.dict entries).Converts valueName := by
  by_cases valid : ∃ multiplier : ℤ,
    dictMultiplier entries = .int multiplier ∧ -128 ≤ multiplier ∧ multiplier ≤ 127
  · obtain ⟨multiplier, found, least, most⟩ := valid
    have inRange : ¬ (multiplier < -128 ∨ multiplier > 127) := by omega
    have converts : (ConnectorValue.dict entries).Converts valueName ↔
        match dictValue entries valueName with
        | .int n => FitsAfter (127 - multiplier).toNat n
        | .float x => (multiplier = 0 ∨ x = 0) ∧ Representable x
        | _ => True := by
      constructor
      · exact fun all => all multiplier found least most
      · intro this multiplier' found' _ _
        rw [found] at found'
        rwa [← Scalar.int.inj found']
    rw [converts]
    cases stands : dictValue entries valueName with
    | int n =>
        rw [preserved_iff_near ⟨valueName, (clampInt16 n multiplier).1,
            (clampInt16 n multiplier).2⟩ (n * (10 : ℚ) ^ multiplier)
          (by simp [getSf, convertDictSf, found, inRange, stands])
          (by simp [ConnectorValue.input, found, stands])]
        exact clampInt16_near_iff least most
    | float x =>
        have clamped := clampInt16_of_fits (floatToInt x).2 (floatToInt_fits (nine x stands))
        rw [preserved_iff_near ⟨valueName, (floatToInt x).1, (floatToInt x).2⟩
          (x * (10 : ℚ) ^ multiplier)
          (by simp [getSf, convertDictSf, found, inRange, stands, clamped])
          (by simp [ConnectorValue.input, found, stands])]
        exact dict_float_near_iff (nine x stands) multiplier
    | none =>
        have omitted : getSf (.dict entries) valueName = Option.none := by
          simp [getSf, convertDictSf, found, inRange, stands]
        exact iff_of_true (preserved_of_none omitted) trivial
    | other =>
        have omitted : getSf (.dict entries) valueName = Option.none := by
          simp [getSf, convertDictSf, found, inRange, stands]
        exact iff_of_true (preserved_of_none omitted) trivial
  · refine iff_of_true (preserved_of_none (convertDictSf_of_multiplier valid)) ?_
    exact fun multiplier found least most => absurd ⟨multiplier, found, least, most⟩ valid

end Dict

/-- A value with at most nine decimal places is preserved if and only if no number leaves the range
of the multiplier and no dict has both a float and a multiplier. -/
theorem getSf_preserved_iff (valueName : String) {value : ConnectorValue}
    (nine : value.NinePlaces valueName) :
    value.Preserved valueName ↔ value.Converts valueName := by
  cases value with
  | scalar value =>
      cases value with
      | int n =>
          rw [preserved_iff_near ⟨valueName, (floatToInt n).1, (floatToInt n).2⟩ n rfl rfl,
            floatToInt_near_iff (ninePlaces_intCast n), Representable, decimalPlaces_intCast,
            digits_intCast]
          exact Iff.rfl
      | float x =>
          rw [preserved_iff_near ⟨valueName, (floatToInt x).1, (floatToInt x).2⟩ x rfl rfl]
          exact floatToInt_near_iff nine
      | none => exact iff_of_true (preserved_of_none rfl) trivial
      | other => exact iff_of_true (preserved_of_none rfl) trivial
  | list => exact iff_of_true (preserved_of_none rfl) trivial
  | dict entries => exact dict_preserved_iff entries nine

/-- A number in kilo. -/
def kilo (value : Scalar) : Dict String Scalar :=
  ⟨[("value", value), ("multiplier", .int 3)], by simp⟩

/-- 3.5 kW as a float: it is converted to 3.5 W. -/
theorem kilo_not_preserved :
    (ConnectorValue.dict (kilo (.float (7 / 2)))).NinePlaces "value" ∧
      getSf (.dict (kilo (.float (7 / 2)))) "value" = some ⟨"value", 35, -1⟩ ∧
      ¬ (ConnectorValue.dict (kilo (.float (7 / 2)))).Preserved "value" := by
  have nine : NinePlaces (7 / 2) := by decide +kernel
  have nineHere : ∀ x : ℚ, Scalar.float (7 / 2) = .float x → NinePlaces x := by
    intro x same
    rwa [← Scalar.float.inj same]
  refine ⟨nineHere, ?_, fun preserved => ?_⟩
  · have converted : floatToInt (7 / 2) = (35, -1) := by
      rw [floatToInt_eq nine, show digits (7 / 2) = 35 by decide +kernel,
        show decimalPlaces (7 / 2) = 1 by decide +kernel]
      exact clampInt16_of_fits _ (by decide)
    have fits : -32768 ≤ (35 : ℤ) ∧ (35 : ℤ) ≤ 32767 := by decide
    change some _ = _
    simp only [converted, clampInt16_of_fits _ fits]
  · have converts : (ConnectorValue.dict (kilo (.float (7 / 2)))).Converts "value" :=
      (dict_preserved_iff (kilo (.float (7 / 2))) nineHere).mp preserved
    obtain ⟨shifted, -⟩ := converts 3 rfl (by decide) (by decide)
    revert shifted
    norm_num

/-- 100 kW as an integer. -/
theorem kilo_preserved : (ConnectorValue.dict (kilo (.int 100))).Preserved "value" := by
  have nine : ∀ x : ℚ, Scalar.int 100 = .float x → NinePlaces x := by simp
  have nine : (ConnectorValue.dict (kilo (.int 100))).NinePlaces "value" := nine
  refine (getSf_preserved_iff "value" nine).mpr ?_
  intro multiplier found least most
  have bounds := lowest_highest (127 - multiplier).toNat
  change FitsAfter (127 - multiplier).toNat 100
  simp only [FitsAfter]
  omega

end Py20305.Telemetry
