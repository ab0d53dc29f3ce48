import Mathlib.Algebra.Order.Ring.Rat
import Py20305.Lib.Raising

/-!
The registers of a SunSpec device (`connectors/sunspec/_modbus.py`).

The Modbus client is a `Bus`: what its reads and writes do, return and raise is left
open. `deviceBus` is the client of a device that takes every write to a register it
implements.

Left out: the scan, the meter models, monitoring, and what only the log says. Values
are scaled (`cvalue`), as exact numbers.
-/

namespace Py20305.SunSpec

/-- The models a control writes. -/
inductive ModelId where
  | m702 | m703 | m704 | m705 | m706 | m711 | m712
  deriving DecidableEq, Repr

/-- The curve functions: volt-var, volt-watt and watt-var. -/
inductive Curve where
  | qv | pv | qp
  deriving DecidableEq, Repr

def Curve.model : Curve → ModelId
  | .qv => .m705
  | .pv => .m706
  | .qp => .m712

/-- The points of a curve model: its enable, the adoption of a curve, and `Crv[1]`. -/
inductive CurvePoint where
  | ena | adptCrvReq | adptCrvRslt
  | actPt | deptRef | pri | vRef | vRefAutoEna | vRefAutoTms | rspTms
  | x (i : Nat)
  | y (i : Nat)
  deriving DecidableEq, Repr

/-- The points of model 711: its enable, the adoption of a control, and `Ctl[1]`. -/
inductive DroopPoint where
  | ena | adptCtlReq | adptCtlRslt | rspTms | dbOf | dbUf | kOf | kUf | pMin
  deriving DecidableEq, Repr

inductive Point where
  -- model 702
  | wMaxRtg | wMax | wDisChaRteMaxRtg | wDisChaRteMax | wChaRteMaxRtg | wChaRteMax | wSf
  -- model 703
  | es
  -- model 704
  | wMaxLimPctEna | wMaxLimPct
  | wSetEna | wSetMod | wSet | wSetPct
  | varSetEna | varSetPct | varSetMod | varSetPri
  | pfwInjEna | pfwInjExt | pfwInjPf
  | pfwAbsEna | pfwAbsExt | pfwAbsPf
  | curve (c : Curve) (p : CurvePoint)
  | droop (p : DroopPoint)
  deriving DecidableEq, Repr

/-- The values of points; `none` for one the device does not implement. -/
abbrev Values := Point → Option ℚ

/-- What a call can raise. -/
inductive Fault where
  /-- The Modbus client, with an answer that does not change on a retry or one that may. -/
  | modbus (permanent : Bool)
  | connection (permanent : Bool)
  | write | timeout | value
  | modeNotSupported (control : String)
  /-- Any error of the language. -/
  | other
  deriving DecidableEq, Repr

/-- `_is_permanent_modbus_error`. -/
def Fault.isPermanentModbusError : Fault → Bool
  | .modbus permanent => permanent
  | _ => false

/-- The Modbus client of a scanned device, over a state of its own. -/
structure Bus (σ : Type) where
  present : ModelId → Bool
  /-- The points a curve block holds. -/
  capacity : Curve → Nat
  readModel : ModelId → Raising Fault σ Values
  readPoint : Point → Raising Fault σ (Option ℚ)
  /-- Write the points that were set. -/
  write : List (Point × ℚ) → Raising Fault σ Unit
  reconnect : Raising Fault σ Unit

/-- Set a point, if it is implemented. -/
def Values.set (values : Values) (p : Point) (v : ℚ) : Values :=
  Function.update values p ((values p).map fun _ => v)

/-- Set points, one after the other. -/
def Values.setAll (values : Values) (changes : List (Point × ℚ)) : Values :=
  changes.foldl (fun acc change => acc.set change.1 change.2) values

/-- The client of a device that answers every request. -/
def deviceBus (present : ModelId → Bool) (capacity : Curve → Nat) : Bus Values where
  present := present
  capacity := capacity
  readModel _ := Raising.read
  readPoint p := do return (← Raising.read) p
  write changes := Raising.change (·.setAll changes)
  reconnect := pure ()

section Set

variable {values : Values} {p q : Point} {v : ℚ}

theorem set_self (values : Values) (p : Point) (v : ℚ) :
    values.set p v p = (values p).map fun _ => v := Function.update_self ..

theorem set_of_isSome (there : (values p).isSome) (v : ℚ) : values.set p v p = some v := by
  obtain ⟨old, found⟩ := Option.isSome_iff_exists.mp there
  rw [set_self, found, Option.map_some]

theorem set_of_ne (values : Values) (v : ℚ) (other : q ≠ p) : values.set p v q = values q :=
  Function.update_of_ne other ..

theorem setAll_of_notMem {changes : List (Point × ℚ)} (absent : ∀ c ∈ changes, c.1 ≠ p) :
    values.setAll changes p = values p := by
  induction changes generalizing values with
  | nil => rfl
  | cons c rest ih =>
      have later : (values.set c.1 c.2).setAll rest p = values.set c.1 c.2 p :=
        ih fun d listed => absent d (List.mem_cons_of_mem c listed)
      rw [Values.setAll, List.foldl_cons, ← Values.setAll, later,
        set_of_ne values c.2 (absent c List.mem_cons_self).symm]

@[simp] theorem isSome_setAll (changes : List (Point × ℚ)) :
    (values.setAll changes p).isSome = (values p).isSome := by
  induction changes generalizing values with
  | nil => rfl
  | cons c rest ih =>
      have later : ((values.set c.1 c.2).setAll rest p).isSome = (values.set c.1 c.2 p).isSome := ih
      rw [Values.setAll, List.foldl_cons, ← Values.setAll, later]
      by_cases same : p = c.1
      · rw [same, set_self, Option.isSome_map]
      · rw [set_of_ne values c.2 same]

end Set

end Py20305.SunSpec
