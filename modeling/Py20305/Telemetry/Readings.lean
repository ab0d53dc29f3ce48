import Mathlib.Data.Rat.Defs
import Py20305.Sep.Resources

/-!
The reading a connector returns, and what identifies it.

Two readings with one identity are the same measurement. The multiplier of an identity is
the effective one: where a reading sets none, that of a table of defaults, which is not the
same for every reading profile.
-/

namespace Py20305.Telemetry

/-- `Reading`. A value that is not a finite number is `none`. -/
structure Reading where
  uom : Int
  value : Option ℚ
  phase : Int := 0
  kind : Int := 37
  dataQualifier : Int := 12
  accumulationBehaviour : Int := 12
  flowDirection : Option Int := none
  multiplier : Option Int := none
  qualityFlags : Option Int := none
  deriving DecidableEq

/-- `ReadingIdentity`. -/
structure ReadingIdentity where
  uom : Int
  phase : Int
  kind : Int
  dataQualifier : Int
  accumulationBehaviour : Int
  flowDirection : Option Int
  multiplier : Int
  deriving DecidableEq

/-- `DEFAULT_MULTIPLIER`: hertz, volts, power factor and amperes. -/
def defaultMultiplier (uom : Int) : Int :=
  if uom = 33 then -3 else if uom = 29 then -1 else if uom = 65 then -3
  else if uom = 5 then -1 else 0

def effectiveMultiplier (r : Reading) (defaults : Int → Int) : Int :=
  r.multiplier.getD (defaults r.uom)

def readingIdentity (r : Reading) (d : Int → Int := defaultMultiplier) :
    ReadingIdentity where
  uom := r.uom
  phase := r.phase
  kind := r.kind
  dataQualifier := r.dataQualifier
  accumulationBehaviour := r.accumulationBehaviour
  flowDirection := r.flowDirection
  multiplier := effectiveMultiplier r d

/-- `_is_uint8`. -/
def isUint8 (code : Int) : Bool := 0 ≤ code && code ≤ 255

/-- `is_valid_reading`: codes of 8 bits, a multiplier from -9 to 9, flags of 16 bits and a
finite value. -/
def isValidReading (r : Reading) : Bool :=
  [r.uom, r.phase, r.kind, r.dataQualifier, r.accumulationBehaviour].all isUint8 &&
    r.flowDirection.all isUint8 && r.multiplier.all (fun m => -9 ≤ m && m ≤ 9) &&
    r.qualityFlags.all (fun f => 0 ≤ f && f ≤ 65535) && r.value.isSome

/-- The loop of `valid_readings`: the valid ones, each identity once. -/
def validFrom (seen : List ReadingIdentity) : List Reading → List Reading
  | [] => []
  | r :: rest =>
      if isValidReading r then
        if readingIdentity r ∈ seen then validFrom seen rest
        else r :: validFrom (readingIdentity r :: seen) rest
      else validFrom seen rest

def validReadings (readings : List Reading) : List Reading := validFrom [] readings

theorem mem_validFrom {seen : List ReadingIdentity} {readings : List Reading} {r : Reading}
    (listed : r ∈ validFrom seen readings) :
    r ∈ readings ∧ isValidReading r = true ∧ readingIdentity r ∉ seen := by
  induction readings generalizing seen with
  | nil => cases listed
  | cons first rest ih =>
      rw [validFrom] at listed
      split at listed
      · rename_i valid
        split at listed
        · obtain ⟨in_rest, fine, new⟩ := ih listed
          exact ⟨List.mem_cons_of_mem _ in_rest, fine, new⟩
        · rename_i new
          rcases List.mem_cons.mp listed with rfl | later
          · exact ⟨List.mem_cons_self, valid, new⟩
          · obtain ⟨in_rest, fine, newer⟩ := ih later
            exact ⟨List.mem_cons_of_mem _ in_rest, fine,
              fun old => newer (List.mem_cons_of_mem _ old)⟩
      · obtain ⟨in_rest, fine, new⟩ := ih listed
        exact ⟨List.mem_cons_of_mem _ in_rest, fine, new⟩

/-- No two valid readings have one identity. -/
theorem validFrom_nodup (seen : List ReadingIdentity) (readings : List Reading) :
    ((validFrom seen readings).map readingIdentity).Nodup := by
  induction readings generalizing seen with
  | nil => exact List.nodup_nil
  | cons first rest ih =>
      rw [validFrom]
      split
      · split
        · exact ih seen
        · rw [List.map_cons, List.nodup_cons]
          refine ⟨?_, ih _⟩
          intro again
          obtain ⟨r, listed, same⟩ := List.mem_map.mp again
          apply (mem_validFrom listed).2.2
          rw [same]
          exact List.mem_cons_self
      · exact ih seen

end Py20305.Telemetry
