import Mathlib.Algebra.Order.Monoid.Unbundled.Pow
import Mathlib.Algebra.Order.Ring.Nat
import Mathlib.Tactic.Ring

/-!
Byte strings that are written front to back and read at offsets.

`StandsAt data offset bytes` says that `bytes` stand in `data` from `offset` on. Where they are
put together of parts, the parts stand one after the other (`standsAt_append`), and what is
read there by index or by slice is what was written. `ofBytes` reads back the unsigned number
that `toBytes` wrote, most significant byte first.
-/

namespace Py20305

abbrev Bytes := List UInt8

/-- `data[first:last]`. -/
def slice (data : Bytes) (first last : Nat) : Bytes := (data.drop first).take (last - first)

theorem slice_length_le (data : Bytes) (first last : Nat) :
    (slice data first last).length ≤ last - first := List.length_take_le ..

/-! ### Numbers -/

/-- The lowest `length` bytes of a number, most significant byte first. -/
def toBytes : Nat → Nat → Bytes
  | 0, _ => []
  | length + 1, n => UInt8.ofNat (n / 256 ^ length) :: toBytes length (n % 256 ^ length)

/-- `int.from_bytes(_, "big")`. -/
def ofBytes (bytes : Bytes) : Nat := bytes.foldl (fun n byte => n * 256 + byte.toNat) 0

@[simp] theorem length_toBytes (length n : Nat) : (toBytes length n).length = length := by
  induction length generalizing n with
  | zero => rfl
  | succ length ih => simp [toBytes, ih]

theorem foldl_toBytes (length : Nat) {n : Nat} (fits : n < 256 ^ length) (high : Nat) :
    (toBytes length n).foldl (fun n byte => n * 256 + byte.toNat) high =
      high * 256 ^ length + n := by
  induction length generalizing n high with
  | zero =>
      have zero : n = 0 := Nat.lt_one_iff.mp fits
      simp [toBytes, zero]
  | succ length ih =>
      have positive : 0 < 256 ^ length := Nat.pow_pos (by decide)
      have top : n / 256 ^ length < 256 :=
        Nat.div_lt_of_lt_mul (by rwa [Nat.pow_succ] at fits)
      have split := Nat.div_add_mod n (256 ^ length)
      rw [toBytes, List.foldl_cons, ih (Nat.mod_lt _ positive), UInt8.toNat_ofNat_of_lt' top]
      calc (high * 256 + n / 256 ^ length) * 256 ^ length + n % 256 ^ length
          = high * 256 ^ (length + 1) + (256 ^ length * (n / 256 ^ length) + n % 256 ^ length) := by
            ring
        _ = high * 256 ^ (length + 1) + n := by rw [split]

theorem ofBytes_toBytes {length n : Nat} (fits : n < 256 ^ length) :
    ofBytes (toBytes length n) = n := by
  rw [ofBytes, foldl_toBytes length fits, Nat.zero_mul, Nat.zero_add]

theorem ofBytes_lt (bytes : Bytes) : ofBytes bytes < 256 ^ bytes.length := by
  have each (bytes : Bytes) (high : Nat) :
      bytes.foldl (fun n byte => n * 256 + byte.toNat) high < (high + 1) * 256 ^ bytes.length := by
    induction bytes generalizing high with
    | nil => simp
    | cons byte rest ih =>
        rw [List.foldl_cons, List.length_cons, Nat.pow_succ']
        refine (ih (high * 256 + byte.toNat)).trans_le ?_
        rw [← Nat.mul_assoc]
        have small : byte.toNat < 256 := byte.toNat_lt
        exact Nat.mul_le_mul_right _ (by omega)
  simpa [ofBytes] using each bytes 0

/-! ### What stands where -/

/-- `bytes` stand in `data` from `offset` on. -/
def StandsAt (data : Bytes) (offset : Nat) (bytes : Bytes) : Prop :=
  ∃ before after, data = before ++ (bytes ++ after) ∧ before.length = offset

section StandsAt

variable {data bytes first second : Bytes} {offset : Nat}

theorem standsAt_self (data : Bytes) : StandsAt data 0 data :=
  ⟨[], [], (List.append_nil data).symm, rfl⟩

theorem standsAt_append (stands : StandsAt data offset (first ++ second)) :
    StandsAt data offset first ∧ StandsAt data (offset + first.length) second := by
  obtain ⟨before, after, rfl, rfl⟩ := stands
  refine ⟨⟨before, second ++ after, by simp, rfl⟩, ⟨before ++ first, after, by simp, ?_⟩⟩
  exact List.length_append

theorem standsAt_cons {byte : UInt8} (stands : StandsAt data offset (byte :: bytes)) :
    data[offset]? = some byte ∧ StandsAt data (offset + 1) bytes := by
  have split : StandsAt data offset ([byte] ++ bytes) := stands
  refine ⟨?_, (standsAt_append split).2⟩
  obtain ⟨before, after, rfl, rfl⟩ := stands
  simp

theorem StandsAt.le (stands : StandsAt data offset bytes) :
    offset + bytes.length ≤ data.length := by
  obtain ⟨before, after, rfl, rfl⟩ := stands
  simp only [List.length_append]
  omega

theorem StandsAt.slice_eq (stands : StandsAt data offset bytes) {last : Nat}
    (ends : last = offset + bytes.length) : slice data offset last = bytes := by
  obtain ⟨before, after, rfl, rfl⟩ := stands
  simp [slice, ends]

/-- A number is read back where it was written. -/
theorem StandsAt.ofBytes_slice {length n last : Nat}
    (stands : StandsAt data offset (toBytes length n)) (fits : n < 256 ^ length)
    (ends : last = offset + length) : ofBytes (slice data offset last) = n := by
  rw [stands.slice_eq (by rw [length_toBytes, ends]), ofBytes_toBytes fits]

end StandsAt

end Py20305
