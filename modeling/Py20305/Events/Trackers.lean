import Py20305.Lib.Dict
import Py20305.Sep.Resources

/-!
The processor's three memories besides its event store: which event provides
which modes on a device (`active_modes.py`), which default was applied to which
device (`dderc.py`) and the random offsets drawn for an event
(`randomization.py`).
-/

namespace Py20305

/-! ### Active modes -/

/-- `ActiveModeTracker`: device, then event, then the modes it provides. -/
structure ActiveModeTracker where
  registry : Dict Href (Dict Mrid (Finset Mode)) := Dict.empty

/-- The union of a list of mode sets. -/
def unionModes (sets : List (Finset Mode)) : Finset Mode := sets.foldr (· ∪ ·) ∅

theorem mem_unionModes {sets : List (Finset Mode)} {m : Mode} :
    m ∈ unionModes sets ↔ ∃ modes ∈ sets, m ∈ modes := by
  induction sets with
  | nil => simp [unionModes]
  | cons modes rest ih =>
      rw [show unionModes (modes :: rest) = modes ∪ unionModes rest from rfl, Finset.mem_union, ih]
      simp

namespace ActiveModeTracker

/-- What one event is registered for on one device. -/
def modesOf (t : ActiveModeTracker) (d : Href) (mrid : Mrid) : Finset Mode :=
  (t.registry.getD d Dict.empty).getD mrid ∅

/-- `ActiveModeTracker.register`. -/
def register (t : ActiveModeTracker) (d : Href) (mrid : Mrid) (modes : Finset Mode) :
    ActiveModeTracker :=
  ⟨t.registry.set d ((t.registry.getD d Dict.empty).set mrid modes)⟩

/-- The tracker after `ActiveModeTracker.unregister`. -/
def unregister (t : ActiveModeTracker) (d : Href) (mrid : Mrid) : ActiveModeTracker :=
  ⟨t.registry.modify d (·.erase mrid)⟩

/-- `ActiveModeTracker.covered`: what others than `excluding` are registered for. -/
def covered (t : ActiveModeTracker) (d : Href) (excluding : Mrid) : Finset Mode :=
  unionModes (((t.registry.getD d Dict.empty).erase excluding).values)

/-- What `ActiveModeTracker.unregister` returns: the modes of the event that no
other event provides. -/
def released (t : ActiveModeTracker) (d : Href) (mrid : Mrid) : Finset Mode :=
  t.modesOf d mrid \ t.covered d mrid

/-- `ActiveModeTracker.covered_among`, asked of one event. -/
def coveredAmong (t : ActiveModeTracker) (d : Href) (mrid : Mrid) : Finset Mode := t.modesOf d mrid

/-- A device without a registry entry has no registrations. -/
theorem mem_keys_of_modesOf {t : ActiveModeTracker} {d : Href} {mrid : Mrid}
    (some_ : t.modesOf d mrid ≠ ∅) : d ∈ t.registry.keys := by
  by_contra absent
  rw [← Dict.get?_eq_none_iff] at absent
  simp [modesOf, Dict.getD, absent] at some_

theorem modesOf_register (t : ActiveModeTracker) (d e : Href) (mrid q : Mrid)
    (modes : Finset Mode) :
    (t.register d mrid modes).modesOf e q = if e = d ∧ q = mrid then modes else t.modesOf e q := by
  unfold modesOf register Dict.getD
  rw [Dict.get?_set]
  by_cases device : e = d
  · rw [if_pos device, Option.getD_some, Dict.get?_set]
    by_cases event : q = mrid
    · simp [device, event]
    · simp [device, event]
  · simp [device]

theorem modesOf_unregister (t : ActiveModeTracker) (d e : Href) (mrid q : Mrid) :
    (t.unregister d mrid).modesOf e q = if e = d ∧ q = mrid then ∅ else t.modesOf e q := by
  unfold modesOf unregister Dict.getD
  rw [Dict.get?_modify]
  by_cases device : e = d
  · subst device
    cases t.registry.get? e with
    | none => simp
    | some events =>
        simp only [Option.map_some, Option.getD_some, if_true, Dict.get?_erase, true_and]
        split <;> simp
  · simp [device]

theorem mem_covered {t : ActiveModeTracker} {d : Href} {excluding : Mrid} {m : Mode} :
    m ∈ t.covered d excluding ↔ ∃ q, q ≠ excluding ∧ m ∈ t.modesOf d q := by
  unfold covered modesOf
  generalize t.registry.getD d Dict.empty = events
  simp only [mem_unionModes, Dict.mem_values_iff, Dict.get?_erase]
  constructor
  · rintro ⟨modes, ⟨q, found⟩, member⟩
    split at found
    · cases found
    · rename_i other
      exact ⟨q, other, by simpa [Dict.getD, found] using member⟩
  · rintro ⟨q, other, member⟩
    cases found : events.get? q with
    | none => simp [Dict.getD, found] at member
    | some modes => exact ⟨modes, ⟨q, by simp [other, found]⟩, by simpa [Dict.getD, found] using member⟩

theorem mem_released {t : ActiveModeTracker} {d : Href} {mrid : Mrid} {m : Mode} :
    m ∈ t.released d mrid ↔
      m ∈ t.modesOf d mrid ∧ ∀ q, q ≠ mrid → m ∉ t.modesOf d q := by
  simp only [released, Finset.mem_sdiff, mem_covered, not_exists, not_and]

end ActiveModeTracker

/-! ### Applied defaults -/

/-- `_DdercEntry`. -/
structure DdercEntry where
  mrid : Mrid
  primacy : Nat
  deriving DecidableEq

/-- `DdercTracker`. -/
structure DdercTracker where
  applied : Dict (Lfdi × Href) DdercEntry := Dict.empty

namespace DdercTracker

/-- `DdercTracker.should_apply`, asked at the end of an event. -/
def shouldApply (t : DdercTracker) (lfdi : Lfdi) (path : Href) (primacy : Nat) : Bool :=
  match t.applied.get? (lfdi, path) with
  | none => true
  | some existing => primacy ≤ existing.primacy

/-- `DdercTracker.should_apply_initial`, asked at the end of a poll. -/
def shouldApplyInitial (t : DdercTracker) (lfdi : Lfdi) (path : Href) (mrid : Mrid)
    (primacy : Nat) : Bool :=
  -- A better default of another program is already on the device.
  if t.applied.entries.any fun e => e.1.1 = lfdi ∧ e.1.2 ≠ path ∧ e.2.primacy < primacy then false
  else
    match t.applied.get? (lfdi, path) with
    | none => true
    | some existing =>
        primacy < existing.primacy || (primacy = existing.primacy && mrid ≠ existing.mrid)

/-- `DdercTracker.record_application`. -/
def recordApplication (t : DdercTracker) (lfdi : Lfdi) (path : Href) (mrid : Mrid)
    (primacy : Nat) : DdercTracker :=
  ⟨t.applied.set (lfdi, path) ⟨mrid, primacy⟩⟩

/-- `DdercTracker.clear_devices`. -/
def clearDevices (t : DdercTracker) (lfdis : List Lfdi) : DdercTracker :=
  ⟨t.applied.filter fun key _ => key.1 ∉ lfdis⟩

end DdercTracker

/-! ### Random offsets -/

/-- `RandomizationCache`: the offsets drawn for an event, and its effective end
with them. -/
structure RandomizationCache where
  cache : Dict Mrid (Int × Int) := Dict.empty
  expiry : Dict Mrid Int := Dict.empty

namespace RandomizationCache

/-- `_compute_offset`, with `draw` deciding `random.randint(0, magnitude)`. -/
def computeOffset (value : Option Int) (draw : Nat) : Int :=
  match value with
  | none => 0
  | some v =>
      if v = 0 then 0
      else (if 0 < v then 1 else -1) * ((draw % (v.natAbs + 1) : Nat) : Int)

/-- `get_offsets`: the offsets, and the cache that holds them. -/
def getOffsets (c : RandomizationCache) (derc : Dercontrol) (draws : Nat × Nat) :
    (Int × Int) × RandomizationCache :=
  match c.cache.get? derc.mrid with
  | some offsets => (offsets, c)
  | none =>
      let start := computeOffset derc.randomizeStart draws.1
      let dur := computeOffset derc.randomizeDuration draws.2
      ((start, dur),
        { cache := c.cache.set derc.mrid (start, dur)
          expiry := c.expiry.set derc.mrid (derc.start + start + derc.duration + dur) })

/-- `get_offsets` for any randomizable event: its mRID, its two randomization fields, and
its window as served. -/
def offsetsFor (c : RandomizationCache) (mrid : Mrid) (randomize : Option Int × Option Int)
    (start duration : Int) (draws : Nat × Nat) : (Int × Int) × RandomizationCache :=
  match c.cache.get? mrid with
  | some offsets => (offsets, c)
  | none =>
      let offset := computeOffset randomize.1 draws.1
      let dur := computeOffset randomize.2 draws.2
      ((offset, dur),
        { cache := c.cache.set mrid (offset, dur)
          expiry := c.expiry.set mrid (start + offset + duration + dur) })

/-- `override_start_offset`. -/
def overrideStartOffset (c : RandomizationCache) (derc : Dercontrol) (offset : Int) :
    RandomizationCache :=
  match c.cache.get? derc.mrid with
  | none => c
  | some (_, dur) =>
      { cache := c.cache.set derc.mrid (offset, dur)
        expiry := c.expiry.set derc.mrid (derc.start + offset + derc.duration + dur) }

/-- `RandomizationCache.prune`, with its grace of 10 s. -/
def prune (c : RandomizationCache) (now : Int) : RandomizationCache :=
  let keep := fun mrid => !((c.expiry.get? mrid).any fun e => e + 10 < now)
  { cache := c.cache.filter fun mrid _ => keep mrid
    expiry := c.expiry.filter fun mrid _ => keep mrid }

end RandomizationCache

end Py20305
