import Mathlib.Algebra.Order.Floor.Ring
import Mathlib.Data.Rat.Floor
import Mathlib.Tactic.Linarith

/-!
Rounding half to even, and toward zero.

`roundHalfEven` moves a number by at most a half (`abs_roundHalfEven_sub_le`) and leaves integers
as they are. A tenth of an integer is rounded by its last digit (`roundHalfEven_tenth`).
-/

namespace Py20305

/-- Toward zero. -/
def truncate (q : ℚ) : ℤ := q.num.tdiv q.den

/-- `round`: to the nearest integer, and to the even one of two. -/
def roundHalfEven (q : ℚ) : ℤ :=
  if Int.fract q = 1 / 2 then if ⌊q⌋ % 2 = 0 then ⌊q⌋ else ⌊q⌋ + 1 else ⌊q + 1 / 2⌋

@[simp] theorem roundHalfEven_intCast (n : ℤ) : roundHalfEven n = n := by
  have half : ⌊(n : ℚ) + 1 / 2⌋ = n := by
    rw [Int.floor_intCast_add]
    norm_num
  rw [roundHalfEven, Int.fract_intCast, if_neg (by norm_num), half]

theorem abs_roundHalfEven_sub_le (q : ℚ) : |(roundHalfEven q : ℚ) - q| ≤ 1 / 2 := by
  have split := Int.floor_add_fract q
  rw [abs_le]
  unfold roundHalfEven
  split_ifs with tie even
  · constructor <;> linarith
  · push_cast
    constructor <;> linarith
  · have lower := Int.floor_le (q + 1 / 2)
    have upper := Int.lt_floor_add_one (q + 1 / 2)
    constructor <;> linarith

theorem roundHalfEven_nonneg {q : ℚ} (range : 0 ≤ q) : 0 ≤ roundHalfEven q := by
  have near := (abs_le.mp (abs_roundHalfEven_sub_le q)).1
  have above : (-1 : ℚ) < roundHalfEven q := by linarith
  have above' : -1 < roundHalfEven q := by exact_mod_cast above
  omega

theorem roundHalfEven_le {q : ℚ} {n : ℤ} (below : q ≤ n) : roundHalfEven q ≤ n := by
  have near := (abs_le.mp (abs_roundHalfEven_sub_le q)).2
  have under : (roundHalfEven q : ℚ) < n + 1 := by linarith
  have under' : roundHalfEven q < n + 1 := by exact_mod_cast under
  omega

theorem floor_tenth (n : ℤ) : ⌊(n : ℚ) / 10⌋ = n / 10 := by
  simpa using Rat.floor_intCast_div_natCast n 10

/-- A tenth of an integer rounds up from 6 on as the last digit, and from 5 on if the digit before
it is odd. -/
theorem roundHalfEven_tenth (n : ℤ) :
    roundHalfEven ((n : ℚ) / 10) =
      if n % 10 = 5 then if n / 10 % 2 = 0 then n / 10 else n / 10 + 1 else (n + 5) / 10 := by
  have split : (n : ℚ) = 10 * (n / 10 : ℤ) + (n % 10 : ℤ) := by
    exact_mod_cast (Int.mul_ediv_add_emod n 10).symm
  have tie : Int.fract ((n : ℚ) / 10) = 1 / 2 ↔ n % 10 = 5 := by
    rw [Int.fract, floor_tenth]
    constructor
    · intro half
      have digit : ((n % 10 : ℤ) : ℚ) = 5 := by linarith
      exact_mod_cast digit
    · intro digit
      rw [digit] at split
      push_cast at split ⊢
      linarith
  have shifted : ⌊(n : ℚ) / 10 + 1 / 2⌋ = (n + 5) / 10 := by
    rw [← floor_tenth]
    congr 1
    push_cast
    ring
  simp only [roundHalfEven, tie, floor_tenth, shifted]

end Py20305
