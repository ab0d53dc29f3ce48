import Py20305.Telemetry.Mrids
import Py20305.Telemetry.RuleN

/-!
A value is posted under the ReadingType it was measured with.

The mRID of a reading depends on its identity and on the table of slots, and under the signed
load convention the table has the totals of a quantity in one slot. Where no cycle has two of
them, and each is tagged as those before it (`Clear`), what is registered for an mRID is what is
measured under it (`Holds`), and every reading is posted.
-/

namespace Py20305.Telemetry

/-! ### What is measured -/

/-- What a reading measures, as far as its profile says it. -/
structure Measured where
  uom : Int
  phase : Int
  accumulationBehaviour : Int
  multiplier : Int
  kind : Int
  dataQualifier : Int
  deriving DecidableEq

/-- Under the signed load convention the kind and the data qualifier are not said. -/
def Scheme.measured (s : Scheme) (r : Reading) : Measured where
  uom := r.uom
  phase := r.phase
  accumulationBehaviour := r.accumulationBehaviour
  multiplier := (readingIdentity r s.defaults).multiplier
  kind := if s.profile = .signedLoadConvention then 0 else r.kind
  dataQualifier := if s.profile = .signedLoadConvention then 0 else r.dataQualifier

def ReadingType.measured (t : ReadingType) : Measured where
  uom := t.uom
  phase := t.phase.getD 0
  accumulationBehaviour := t.accumulationBehaviour
  multiplier := t.powerOfTenMultiplier
  kind := t.kind
  dataQualifier := t.dataQualifier

/-- Every variant of every valid reading is posted once, under an mRID that is registered
with what it measures. -/
structure Faithful (s : Scheme) (readings : List Reading)
    (declared : Option (List ReadingIdentity)) (registered : Registered) (how : Posting) :
    Prop where
  whole : ∃ vars, (s.createMeterReadingList readings how registered declared).Perm
    ((s.wanted (s.multiPhase readings registered declared) (s.postable readings declared)).map
      (s.meterReading how vars))
  distinct :
    ((s.createMeterReadingList readings how registered declared).map MeterReading.mrid).Nodup
  own : ∀ p ∈ s.wanted (s.multiPhase readings registered declared) (s.postable readings declared),
    ∃ r, registered.get? p.mrid = some r ∧ r.readingType.measured = s.measured p.reading

/-! ### Readings that share an mRID -/

/-- A reading in one of the directions it is posted in, under the table of its cycle. -/
structure Variant where
  multiPhase : Bool
  reading : Reading
  flow : Option Int
  identity : ReadingIdentity

def Scheme.variantsOf (s : Scheme) (multiPhase : Bool) (readings : List Reading) :
    List Variant :=
  readings.flatMap fun r => (s.variants r).map fun variant =>
    { multiPhase := multiPhase, reading := r, flow := variant.1, identity := variant.2 }

def Scheme.slotOf (s : Scheme) (v : Variant) : Option Nat := s.slot v.multiPhase v.reading v.flow

/-- What the tables of the signed load convention have totals of: W, var, VA, A and the state of
energy. -/
def totalQuantities : List ReadingIdentity :=
  [identityOf 38 0 37 12 12 none 0, identityOf 63 0 37 12 12 none 0,
    identityOf 61 0 37 12 12 none 0, identityOf 5 0 37 12 12 none 0,
    identityOf 72 0 0 12 12 none 0]

/-- The phase codes of a total. On a device of several phases 128 is line 1. -/
def totalPhases (multiPhase : Bool) : List Int :=
  if multiPhase then [0, 132, 224] else [0, 128, 132, 224]

/-- The quantity a reading is a total of, whatever its phase code. -/
def totalOf (multiPhase : Bool) (identity : ReadingIdentity) : Option ReadingIdentity :=
  if identity.phase ∈ totalPhases multiPhase ∧ { identity with phase := 0 } ∈ totalQuantities then
    some { identity with phase := 0 }
  else none

/-- The digits a hashed mRID takes from the digest. -/
def Scheme.digest (s : Scheme) (identity : ReadingIdentity) : List Nat :=
  (s.sha256 (hashedText s.lfdi identity s.profile.name)).take 11

/-- Two readings that are the same but for a multiplier that is set in one and the default in the
other. -/
def Scheme.SameReading (s : Scheme) (v w : Variant) : Prop :=
  readingIdentity v.reading s.defaults = readingIdentity w.reading s.defaults ∧ v.flow = w.flow

/-- Two totals of one quantity. -/
def Scheme.SameTotal (s : Scheme) (v w : Variant) : Prop :=
  s.profile = .signedLoadConvention ∧ ∃ quantity ∈ totalQuantities,
    totalOf v.multiPhase (readingIdentity v.reading s.defaults) = some quantity ∧
    totalOf w.multiPhase (readingIdentity w.reading s.defaults) = some quantity

/-- Two slots the LFDI does not keep apart, or two digests that begin alike. -/
def Scheme.Clash (s : Scheme) (v w : Variant) : Prop :=
  (∃ i ∈ s.slotOf v, ∃ j ∈ s.slotOf w, ReadsAs s.lfdi i j ∨ ReadsAs s.lfdi j i) ∨
    s.slotOf v = none ∧ s.slotOf w = none ∧ s.digest v.identity = s.digest w.identity

def Scheme.Shares (s : Scheme) (v w : Variant) : Prop :=
  s.SameReading v w ∨ s.SameTotal v w ∨ s.Clash v w

section Decidable

variable (s : Scheme) (v w : Variant)

instance : Decidable (s.SameReading v w) := inferInstanceAs (Decidable (_ ∧ _))

instance : Decidable (s.SameTotal v w) := inferInstanceAs (Decidable (_ ∧ _))

instance : Decidable (s.Clash v w) := inferInstanceAs (Decidable (_ ∨ _))

instance : Decidable (s.Shares v w) := inferInstanceAs (Decidable (_ ∨ _))

end Decidable

/-! ### Histories -/

section History

variable (s : Scheme) (declared : Option (List ReadingIdentity))

/-- What is registered after these cycles, the last one first. -/
def Scheme.registeredAfter : List (List Reading) → Registered
  | [] => Dict.empty
  | readings :: past => s.planRegistration readings (registeredAfter past) declared

/-- Some reading so far shows a device of several phases. -/
def Scheme.shown : List (List Reading) → Bool
  | [] => false
  | readings :: past =>
      (decide (s.profile = .signedLoadConvention) &&
        (s.postable readings declared).any fun r => showsMultiPhase r.phase r.uom) || shown past

/-- The variants of the last cycle, those of declared readings it did not supply included. -/
def Scheme.lastVariants (readings : List Reading) (past : List (List Reading)) : List Variant :=
  s.variantsOf (s.shown declared (readings :: past))
    (s.postable (s.candidates readings declared) declared)

def Scheme.variantsAfter : List (List Reading) → List Variant
  | [] => []
  | readings :: past => variantsAfter past ++ s.lastVariants declared readings past

/-- A cycle has at most one total of a quantity, tagged as in the cycles before; no two of its
slots and digests clash, nor do they with those of something else measured before; and while the
device is one of a single phase, none of its slots reads as one that only devices of several
phases have. -/
structure CycleClear (mine earlier : List Variant) (shown : Bool) : Prop where
  apart : mine.Pairwise fun v w => ¬ s.Shares v w
  own : ∀ v ∈ mine, ∀ w ∈ earlier, s.Shares w v → s.measured w.reading = s.measured v.reading
  single : s.profile = .signedLoadConvention → shown = false →
    ∀ v ∈ mine, ∀ i ∈ s.slotOf v, ∀ j ∈ multiPhaseOnlySlots, ¬ ReadsAs s.lfdi i j

def Clear : List (List Reading) → Prop
  | [] => True
  | readings :: past =>
      Clear past ∧ CycleClear s (s.lastVariants declared readings past)
        (s.variantsAfter declared past) (s.shown declared (readings :: past))

instance (mine earlier : List Variant) (shown : Bool) :
    Decidable (CycleClear s mine earlier shown) :=
  decidable_of_iff
    ((mine.Pairwise fun v w => ¬ s.Shares v w) ∧
      (∀ v ∈ mine, ∀ w ∈ earlier, s.Shares w v →
        s.measured w.reading = s.measured v.reading) ∧
      (s.profile = .signedLoadConvention → shown = false →
        ∀ v ∈ mine, ∀ i ∈ s.slotOf v, ∀ j ∈ multiPhaseOnlySlots, ¬ ReadsAs s.lfdi i j))
    ⟨fun ⟨apart, own, single⟩ => ⟨apart, own, single⟩,
      fun clear => ⟨clear.apart, clear.own, clear.single⟩⟩

def decidableClear : (history : List (List Reading)) → Decidable (Clear s declared history)
  | [] => .isTrue trivial
  | readings :: past =>
      have := decidableClear past
      inferInstanceAs (Decidable (Clear s declared past ∧ CycleClear s
        (s.lastVariants declared readings past) (s.variantsAfter declared past)
        (s.shown declared (readings :: past))))

instance (history : List (List Reading)) : Decidable (Clear s declared history) :=
  decidableClear s declared history

/-- Every cycle's values are posted under the ReadingTypes they were measured with. -/
def EveryCycle : List (List Reading) → Prop
  | [] => True
  | readings :: past =>
      EveryCycle past ∧
        ∀ how, Faithful s readings declared (s.registeredAfter declared (readings :: past)) how

end History

/-! ### The slots of a table -/

/-- A variant of an identity that has a slot. -/
structure Slotted where
  identity : ReadingIdentity
  flow : Option Int
  slot : Nat

def slotted (slots : Dict ReadingIdentity Slot) (directions : List Int) : List Slotted :=
  slots.entries.flatMap fun e =>
    (e.1.flowDirection :: directions.map some).filterMap fun flow =>
      (legacySlot (some e.2) flow e.1.flowDirection).map fun slot =>
        { identity := e.1, flow := flow, slot := slot }

theorem defaultSlots_apart : ∀ directions ∈ [[], [4], [1, 19]],
    ∀ x ∈ slotted defaultSlots directions, ∀ y ∈ slotted defaultSlots directions,
      x.slot < 100 ∧ (x.slot = y.slot → x.identity = y.identity ∧ x.flow = y.flow) := by
  decide +kernel

theorem asReportedSlots_apart :
    ∀ x ∈ slotted asReportedSlots [], ∀ y ∈ slotted asReportedSlots [],
      x.slot < 100 ∧ (x.slot = y.slot → x.identity = y.identity ∧ x.flow = y.flow) := by
  decide +kernel

def signedSlots (multiPhase : Bool) : Dict ReadingIdentity Slot :=
  if multiPhase then signedLoadSlots else signedLoadSlotsSinglePhase

/-- Under the signed load convention a slot of two identities is that of totals. -/
theorem signedSlots_apart : ∀ multi multi' : Bool,
    ∀ x ∈ slotted (signedSlots multi) [], ∀ y ∈ slotted (signedSlots multi') [],
      x.slot < 100 ∧ (x.slot = y.slot → x.identity = y.identity ∧ x.flow = y.flow ∨
        ∃ quantity ∈ totalQuantities, totalOf multi x.identity = some quantity ∧
          totalOf multi' y.identity = some quantity) := by
  decide +kernel

theorem phase_of_multiPhaseOnly : ∀ x ∈ slotted (signedSlots false) [],
    x.slot ∈ multiPhaseOnlySlots → x.identity.phase ∈ line23Phases := by
  decide +kernel

/-- A variant is posted in its reading's direction, or in one of the scheme's. -/
theorem mem_variants {s : Scheme} {r : Reading} {variant : Option Int × ReadingIdentity}
    (listed : variant ∈ s.variants r) :
    variant.1 ∈ r.flowDirection :: s.directions.map some := by
  unfold Scheme.variants at listed
  split at listed
  · obtain ⟨flow, in_directions, rfl⟩ := List.mem_map.mp listed
    exact List.mem_cons_of_mem _ (List.mem_map_of_mem in_directions)
  · rw [List.mem_singleton] at listed
    rw [listed]
    exact List.mem_cons_self

/-- One of the variants of its reading. -/
def Variant.Of (s : Scheme) (v : Variant) : Prop := (v.flow, v.identity) ∈ s.variants v.reading

theorem mem_slotted {s : Scheme} {v : Variant} (mine : v.Of s) {slot : Nat}
    (found : s.slotOf v = some slot) :
    { identity := readingIdentity v.reading s.defaults, flow := v.flow, slot := slot } ∈
      slotted (s.slots v.multiPhase) s.directions := by
  unfold Scheme.slotOf Scheme.slot at found
  cases entry : (s.slots v.multiPhase).get? (readingIdentity v.reading s.defaults) with
  | none =>
      rw [entry] at found
      cases found
  | some legacy =>
      rw [entry] at found
      refine List.mem_flatMap.mpr ⟨_, (Dict.mem_entries_iff _ _ _).mpr entry, ?_⟩
      refine List.mem_filterMap.mpr ⟨v.flow, mem_variants mine, ?_⟩
      exact Option.map_eq_some_iff.mpr ⟨slot, found, rfl⟩

/-- Two readings of one slot are the same or totals of one quantity. -/
theorem slots_apart {s : Scheme} {v w : Variant} (mine : v.Of s) (other : w.Of s) {i j : Nat}
    (vSlot : s.slotOf v = some i) (wSlot : s.slotOf w = some j) :
    i < 100 ∧ (i = j → s.SameReading v w ∨ s.SameTotal v w) := by
  have vListed := mem_slotted mine vSlot
  have wListed := mem_slotted other wSlot
  cases profile : s.profile with
  | default =>
      have directed : s.directions ∈ [[], [4], [1, 19]] := by
        unfold Scheme.directions
        rw [profile]
        cases s.powerDirection <;> decide
      simp only [Scheme.slots, profile] at vListed wListed
      obtain ⟨small, apart⟩ := defaultSlots_apart _ directed _ vListed _ wListed
      exact ⟨small, fun same => .inl (apart same)⟩
  | signedAsReported =>
      simp only [Scheme.slots, Scheme.directions, profile] at vListed wListed
      obtain ⟨small, apart⟩ := asReportedSlots_apart _ vListed _ wListed
      exact ⟨small, fun same => .inl (apart same)⟩
  | signedLoadConvention =>
      simp only [Scheme.slots, Scheme.directions, profile] at vListed wListed
      obtain ⟨small, apart⟩ := signedSlots_apart _ _ _ vListed _ wListed
      refine ⟨small, fun same => (apart same).imp id fun total => ⟨profile, total⟩⟩

/-! ### The mRIDs of variants -/

/-- The LFDI is 40 hexadecimal digits, in lower case as `_create_mrid` takes it, and `hexdigest`
returns 64. -/
structure Scheme.Sound (s : Scheme) : Prop where
  lfdi : ∃ given, IsLfdi given ∧ s.lfdi = given.toLower
  digests : ∀ text, (s.sha256 text).length = 64 ∧ ∀ d ∈ s.sha256 text, d < 16

def Scheme.mridOf (s : Scheme) (v : Variant) : Mrid :=
  s.mrid v.multiPhase v.reading (v.flow, v.identity)

/-- What stands in the middle of an mRID. -/
def Scheme.middle (s : Scheme) (v : Variant) : List Nat :=
  match s.slotOf v with
  | some slot => slotDigits s.lfdi slot
  | none => 15 :: s.digest v.identity

theorem mridOf_eq (s : Scheme) (v : Variant) :
    s.mridOf v = number 16 (mridDigits s.lfdi (s.middle v)) := by
  unfold Scheme.mridOf Scheme.mrid Scheme.middle Scheme.slotOf
  cases s.slot v.multiPhase v.reading v.flow with
  | some slot => exact createMrid_eq _ _
  | none => rfl

section Sound

variable {s : Scheme}

theorem Scheme.Sound.slot_isMiddle (sound : s.Sound) (index : Nat) :
    IsMiddle (slotDigits s.lfdi index) := by
  obtain ⟨given, valid, lower⟩ := sound.lfdi
  rw [lower]
  exact slotDigits_isMiddle valid index

theorem Scheme.Sound.isMiddle (sound : s.Sound) (v : Variant) : IsMiddle (s.middle v) := by
  unfold Scheme.middle
  split
  · exact sound.slot_isMiddle _
  · obtain ⟨length, hex⟩ := sound.digests (hashedText s.lfdi v.identity s.profile.name)
    refine ⟨?_, fun d member => ?_⟩
    · rw [List.length_cons, Scheme.digest, List.length_take_of_le (by rw [length]; decide)]
    · rcases List.mem_cons.mp member with rfl | later
      · decide
      · exact hex d (List.mem_of_mem_take later)

theorem Scheme.Sound.eq_or_readsAs (sound : s.Sound) {i j : Nat} (iSlot : i < 100)
    (jSlot : j < 100) (same : slotDigits s.lfdi i = slotDigits s.lfdi j) :
    i = j ∨ ReadsAs s.lfdi i j ∨ ReadsAs s.lfdi j i := by
  obtain ⟨given, valid, lower⟩ := sound.lfdi
  rw [lower] at same ⊢
  exact Telemetry.eq_or_readsAs valid iSlot jSlot same

/-- Variants that share an mRID do so for one of the reasons told. -/
theorem shares_of_mridOf (sound : s.Sound) {v w : Variant} (mine : v.Of s) (other : w.Of s)
    (same : s.mridOf v = s.mridOf w) : s.Shares v w := by
  rw [mridOf_eq, mridOf_eq] at same
  have middles := mridNumber_injective (sound.isMiddle v) (sound.isMiddle w) same
  unfold Scheme.middle at middles
  cases vSlot : s.slotOf v with
  | some i =>
      have small := (slots_apart mine mine vSlot vSlot).1
      cases wSlot : s.slotOf w with
      | some j =>
          have small' := (slots_apart other other wSlot wSlot).1
          simp only [vSlot, wSlot] at middles
          rcases sound.eq_or_readsAs small small' middles with one | reads
          · rcases (slots_apart mine other vSlot wSlot).2 one with reading | total
            · exact .inl reading
            · exact .inr (.inl total)
          · exact .inr (.inr (.inl ⟨i, vSlot, j, wSlot, reads⟩))
      | none =>
          simp only [vSlot, wSlot] at middles
          exact absurd middles (slotDigits_ne_hashed small _)
  | none =>
      cases wSlot : s.slotOf w with
      | some j =>
          have small' := (slots_apart other other wSlot wSlot).1
          simp only [vSlot, wSlot] at middles
          exact absurd middles.symm (slotDigits_ne_hashed small' _)
      | none =>
          simp only [vSlot, wSlot] at middles
          exact .inr (.inr (.inr ⟨vSlot, wSlot, (List.cons.inj middles).2⟩))

/-- On a device of a single phase no variant has the mRID of a slot it does not use. -/
theorem mridOf_not_multiPhaseOnly (sound : s.Sound) {v : Variant} (mine : v.Of s)
    (signed : s.profile = .signedLoadConvention) (table : v.multiPhase = false)
    (phase : v.reading.phase ∉ line23Phases)
    (apart : ∀ i ∈ s.slotOf v, ∀ j ∈ multiPhaseOnlySlots, ¬ ReadsAs s.lfdi i j) :
    s.mridOf v ∉ multiPhaseOnlySlots.map (createMrid s.lfdi) := by
  intro listed
  obtain ⟨j, only, same⟩ := List.mem_map.mp listed
  have two : 10 ≤ j ∧ j < 100 := by
    have all : ∀ slot ∈ multiPhaseOnlySlots, 10 ≤ slot ∧ slot < 100 := by decide
    exact all j only
  rw [mridOf_eq, createMrid_eq] at same
  have middles := mridNumber_injective (sound.slot_isMiddle j) (sound.isMiddle v) same
  unfold Scheme.middle at middles
  cases vSlot : s.slotOf v with
  | none =>
      simp only [vSlot] at middles
      exact slotDigits_ne_hashed two.2 _ middles
  | some i =>
      have small := (slots_apart mine mine vSlot vSlot).1
      have slot := mem_slotted mine vSlot
      simp only [Scheme.slots, Scheme.directions, signed, table] at slot
      simp only [vSlot] at middles
      rcases sound.eq_or_readsAs small two.2 middles.symm with rfl | reads | reads
      · exact phase (phase_of_multiPhaseOnly _ slot only)
      · exact apart i vSlot j only reads
      · have tens : ∀ slot ∈ multiPhaseOnlySlots, ¬ (10 ≤ i ∧ slot = i / 10) := by
          have all : ∀ k < 10, k ∉ multiPhaseOnlySlots := by decide
          rintro slot listed ⟨_, rfl⟩
          exact all (i / 10) (by omega) listed
        exact tens j only ⟨reads.1, reads.2.1⟩

end Sound

/-! ### What is posted -/

theorem keepFirst_of_nodup {seen : List Mrid} {posted : List Posted}
    (distinct : (posted.map Posted.mrid).Nodup) (new : ∀ p ∈ posted, p.mrid ∉ seen) :
    keepFirst seen posted = posted := by
  induction posted generalizing seen with
  | nil => rfl
  | cons p rest ih =>
      rw [List.map_cons, List.nodup_cons] at distinct
      rw [keepFirst, if_neg (new p List.mem_cons_self)]
      congr 1
      apply ih distinct.2
      intro q listed again
      rcases List.mem_cons.mp again with same | old
      · exact distinct.1 (same ▸ List.mem_map_of_mem listed)
      · exact new q (List.mem_cons_of_mem _ listed) old

theorem postedReadings_perm {s : Scheme} {readings : List Reading} {registered : Registered}
    {declared : Option (List ReadingIdentity)} {multi : Bool}
    (table : s.multiPhase readings registered declared = multi)
    (distinct : ((s.wanted multi (s.postable readings declared)).map Posted.mrid).Nodup) :
    (s.postedReadings readings registered declared).Perm
      (s.wanted multi (s.postable readings declared)) := by
  rw [Scheme.postedReadings, table, keepFirst_of_nodup distinct fun _ _ => List.not_mem_nil]
  exact List.mergeSort_perm _ _

/-- A posted variant has the fields of its reading. -/
theorem mem_wanted {s : Scheme} {multi : Bool} {readings : List Reading} {p : Posted}
    (listed : p ∈ s.wanted multi readings) :
    ∃ r ∈ readings, ∃ position rank variant, p = s.posted multi r position rank variant := by
  obtain ⟨⟨r, position⟩, in_readings, in_variants⟩ := List.mem_flatMap.mp listed
  obtain ⟨⟨variant, rank⟩, _, rfl⟩ := List.mem_map.mp in_variants
  exact ⟨r, List.fst_mem_of_mem_zipIdx in_readings, position, rank, variant, rfl⟩

theorem reading_mem_wanted {s : Scheme} {multi : Bool} {readings : List Reading} {r : Reading}
    (listed : r ∈ readings) : ∃ p ∈ s.wanted multi readings, p.reading = r := by
  have some_variant : ∃ variant, variant ∈ s.variants r := by
    unfold Scheme.variants
    split
    · rename_i directed
      obtain ⟨flow, in_directions⟩ := List.exists_mem_of_ne_nil _ directed.1
      exact ⟨_, List.mem_map_of_mem in_directions⟩
    · exact ⟨_, List.mem_singleton_self _⟩
  obtain ⟨variant, in_variants⟩ := some_variant
  obtain ⟨position, at_position⟩ := List.mem_iff_getElem?.mp listed
  obtain ⟨rank, at_rank⟩ := List.mem_iff_getElem?.mp in_variants
  refine ⟨s.posted multi r position rank variant, ?_, rfl⟩
  exact List.mem_flatMap.mpr ⟨(r, position), List.mk_mem_zipIdx_iff_getElem?.mpr at_position,
    List.mem_map.mpr ⟨(variant, rank), List.mk_mem_zipIdx_iff_getElem?.mpr at_rank, rfl⟩⟩

/-- What is posted is the variants of the readings. -/
theorem map_wanted (s : Scheme) (multi : Bool) (readings : List Reading) :
    (s.wanted multi readings).map (fun p => (p.mrid, p.reading)) =
      (s.variantsOf multi readings).map fun v => (s.mridOf v, v.reading) := by
  have variants (r : Reading) (position : Nat) :
      ((s.variants r).zipIdx.map fun v => s.posted multi r position v.2 v.1).map
        (fun p => (p.mrid, p.reading)) =
      (s.variants r).map fun variant => (s.mrid multi r variant, r) := by
    rw [List.map_map]
    conv_rhs => rw [← List.zipIdx_map_fst 0 (s.variants r), List.map_map]
    rfl
  change List.map _ (readings.zipIdx.flatMap fun r =>
    (s.variants r.1).zipIdx.map fun v => s.posted multi r.1 r.2 v.2 v.1) = _
  rw [Scheme.variantsOf, List.map_flatMap, List.map_flatMap]
  simp only [variants, List.map_map]
  conv_rhs => rw [← List.zipIdx_map_fst 0 readings, List.flatMap_map]
  rfl

/-- The mRID of a variant and what is measured under it. -/
def Scheme.record (s : Scheme) (v : Variant) : Mrid × Measured :=
  (s.mridOf v, s.measured v.reading)

theorem map_record (s : Scheme) (multi : Bool) (readings : List Reading) :
    (s.wanted multi readings).map (fun p => (p.mrid, s.measured p.reading)) =
      (s.variantsOf multi readings).map s.record := by
  have both := congrArg (List.map fun m => (m.1, s.measured m.2)) (map_wanted s multi readings)
  rwa [List.map_map, List.map_map] at both

theorem of_mem_variantsOf {s : Scheme} {multi : Bool} {readings : List Reading} {v : Variant}
    (listed : v ∈ s.variantsOf multi readings) :
    v.Of s ∧ v.multiPhase = multi ∧ v.reading ∈ readings := by
  obtain ⟨r, in_readings, in_variants⟩ := List.mem_flatMap.mp listed
  obtain ⟨variant, mine, rfl⟩ := List.mem_map.mp in_variants
  exact ⟨mine, rfl, in_readings⟩

/-- A reading registers with what it measures. -/
theorem measured_newReading {s : Scheme} {multi : Bool} {readings : List Reading} {p : Posted}
    (listed : p ∈ s.wanted multi readings) :
    (s.newReading p).readingType.measured = s.measured p.reading := by
  obtain ⟨r, _, position, rank, variant, rfl⟩ := mem_wanted listed
  have phase : (if r.phase = 0 then none else some r.phase).getD 0 = r.phase := by
    split
    · rename_i zero
      exact zero.symm
    · rfl
  simp only [Scheme.newReading, readingType, Scheme.posted, ReadingType.measured,
    Scheme.measured, phase, decide_eq_true_eq]

/-- The mRIDs of a cycle are its own: no two of its variants have one, none has that of something
else measured before, and none of a single phase that of a slot only devices of several phases
have. -/
structure OwnMrids (s : Scheme) (mine : List Posted) (earlier : List (Mrid × Measured))
    (shown : Bool) : Prop where
  distinct : (mine.map Posted.mrid).Nodup
  own : ∀ p ∈ mine, ∀ m ∈ earlier, m.1 = p.mrid → m.2 = s.measured p.reading
  single : s.profile = .signedLoadConvention → shown = false →
    ∀ p ∈ mine, p.mrid ∉ multiPhaseOnlySlots.map (createMrid s.lfdi)

theorem CycleClear.ownMrids {s : Scheme} (sound : s.Sound) {readings : List Reading}
    {earlier : List Variant} {shown : Bool} (known : ∀ w ∈ earlier, w.Of s)
    (quiet : s.profile = .signedLoadConvention → shown = false →
      ∀ r ∈ readings, r.phase ∉ line23Phases)
    (clear : CycleClear s (s.variantsOf shown readings) earlier shown) :
    OwnMrids s (s.wanted shown readings) (earlier.map s.record) shown := by
  have variant_of : ∀ p ∈ s.wanted shown readings, ∃ v ∈ s.variantsOf shown readings,
      s.mridOf v = p.mrid ∧ v.reading = p.reading := by
    intro p listed
    have in_both : (p.mrid, p.reading) ∈
        (s.variantsOf shown readings).map fun v => (s.mridOf v, v.reading) := by
      rw [← map_wanted]
      exact List.mem_map_of_mem (f := fun p : Posted => (p.mrid, p.reading)) listed
    obtain ⟨v, in_variants, same⟩ := List.mem_map.mp in_both
    exact ⟨v, in_variants, Prod.ext_iff.mp same⟩
  constructor
  · have mrids := congrArg (List.map Prod.fst) (map_wanted s shown readings)
    rw [List.map_map, List.map_map] at mrids
    change ((s.wanted shown readings).map (Prod.fst ∘ fun p => (p.mrid, p.reading))).Nodup
    rw [mrids, List.Nodup, List.pairwise_map]
    apply clear.apart.imp_of_mem
    intro v w vListed wListed separate same
    exact separate (shares_of_mridOf sound (of_mem_variantsOf vListed).1
      (of_mem_variantsOf wListed).1 same)
  · intro p listed m in_records same
    obtain ⟨v, vListed, mrid, reading⟩ := variant_of p listed
    obtain ⟨w, wListed, rfl⟩ := List.mem_map.mp in_records
    rw [← reading]
    exact clear.own v vListed w wListed
      (shares_of_mridOf sound (known w wListed) (of_mem_variantsOf vListed).1 (same.trans mrid.symm))
  · intro signed not_shown p listed
    obtain ⟨v, vListed, mrid, reading⟩ := variant_of p listed
    obtain ⟨mine, table, supplied⟩ := of_mem_variantsOf vListed
    rw [← mrid]
    exact mridOf_not_multiPhaseOnly sound mine signed (table.trans not_shown)
      (quiet signed not_shown _ supplied) (clear.single signed not_shown v vListed)

/-! ### What is registered -/

/-- What is registered is what was measured. -/
structure Holds (s : Scheme) (registered : Registered) (records : List (Mrid × Measured))
    (multi : Bool) : Prop where
  known : ∀ m ∈ records, ∃ r, registered.get? m.1 = some r ∧ r.readingType.measured = m.2
  only : ∀ m r, registered.get? m = some r → (m, r.readingType.measured) ∈ records
  shown : s.profile = .signedLoadConvention →
    (multi = true ↔ ∃ m ∈ records, showsMultiPhase m.2.phase m.2.uom = true)
  single : s.profile = .signedLoadConvention → multi = false →
    ∀ m ∈ records, m.1 ∉ multiPhaseOnlySlots.map (createMrid s.lfdi)

/-- The table of slots is told by the cycle's readings and by what was shown before. -/
theorem Holds.multiPhase {s : Scheme} {registered : Registered}
    {records : List (Mrid × Measured)} {shown : Bool} (holds : Holds s registered records shown)
    (readings : List Reading) (declared : Option (List ReadingIdentity))
    (none_shown : s.profile ≠ .signedLoadConvention → shown = false) :
    s.multiPhase readings registered declared =
      ((decide (s.profile = .signedLoadConvention) &&
        (s.postable readings declared).any fun r => showsMultiPhase r.phase r.uom) || shown) := by
  unfold Scheme.multiPhase
  by_cases signed : s.profile = .signedLoadConvention
  · simp only [signed, decide_true, Bool.true_and]
    have registered_shows : ((multiPhaseOnlySlots.any fun slot =>
        (registered.get? (createMrid s.lfdi slot)).isSome) ||
        registered.values.any fun entry =>
          showsMultiPhase (entry.readingType.phase.getD 0) entry.readingType.uom) = shown := by
      rw [Bool.eq_iff_iff, Bool.or_eq_true, List.any_eq_true, List.any_eq_true]
      constructor
      · rintro (⟨slot, in_slots, there⟩ | ⟨r, in_values, shows⟩)
        · by_contra not_shown
          obtain ⟨r, found⟩ := Option.isSome_iff_exists.mp there
          have in_records := holds.only (createMrid s.lfdi slot) r found
          have absent := holds.single signed (Bool.eq_false_iff.mpr not_shown) _ in_records
          exact absent (List.mem_map.mpr ⟨slot, in_slots, rfl⟩)
        · obtain ⟨m, found⟩ := (Dict.mem_values_iff _ _).mp in_values
          exact (holds.shown signed).mpr ⟨_, holds.only m r found, shows⟩
      · intro is_shown
        obtain ⟨m, in_records, shows⟩ := (holds.shown signed).mp is_shown
        obtain ⟨r, found, same⟩ := holds.known m in_records
        refine Or.inr ⟨r, (Dict.mem_values_iff _ _).mpr ⟨_, found⟩, ?_⟩
        rw [← same] at shows
        exact shows
    rw [isMultiPhase, Bool.or_assoc, registered_shows]
  · simp [signed, none_shown signed]

theorem get?_foldl_addReading {s : Scheme} {posted : List Posted} {registered : Registered}
    {m : Mrid} {r : RegisteredReading}
    (found : (posted.foldl s.addReading registered).get? m = some r) :
    registered.get? m = some r ∨ ∃ p ∈ posted, p.mrid = m ∧ r = s.newReading p := by
  induction posted generalizing registered with
  | nil => exact Or.inl found
  | cons p rest ih =>
      rcases ih found with before | ⟨q, listed, mine⟩
      · unfold Scheme.addReading at before
        split at before
        · exact Or.inl before
        · rw [Dict.get?_set] at before
          split at before
          · rename_i same
            cases before
            exact Or.inr ⟨p, List.mem_cons_self, same.symm, rfl⟩
          · exact Or.inl before
      · exact Or.inr ⟨q, List.mem_cons_of_mem _ listed, mine⟩

theorem foldl_addReading_within {s : Scheme} (posted : List Posted) (registered : Registered) :
    Within registered (posted.foldl s.addReading registered) := by
  induction posted generalizing registered with
  | nil => exact Within.refl _
  | cons p rest ih => exact (addReading_within s registered p).trans (ih _)

theorem exists_get?_foldl_addReading {s : Scheme} {posted : List Posted}
    (registered : Registered) {p : Posted} (listed : p ∈ posted) :
    ∃ r, (posted.foldl s.addReading registered).get? p.mrid = some r := by
  induction posted generalizing registered with
  | nil => cases listed
  | cons first rest ih =>
      rcases List.mem_cons.mp listed with rfl | later
      · have there : ((s.addReading registered p).get? p.mrid).isSome := by
          unfold Scheme.addReading
          split
          · assumption
          · rw [Dict.get?_set_self]
            rfl
        obtain ⟨r, found⟩ := Option.isSome_iff_exists.mp there
        exact ⟨r, foldl_addReading_within rest _ _ _ found⟩
      · exact ih _ later

/-- A cycle whose mRIDs are its own. -/
theorem Holds.step {s : Scheme} {readings : List Reading} {registered : Registered}
    {declared : Option (List ReadingIdentity)} {records : List (Mrid × Measured)}
    {before shown : Bool} (holds : Holds s registered records before)
    (table : s.multiPhase (s.candidates readings declared) registered declared = shown)
    (is_shown : s.profile = .signedLoadConvention → shown =
      ((s.postable (s.candidates readings declared) declared).any
        (fun r => showsMultiPhase r.phase r.uom) || before))
    (clear : OwnMrids s (s.wanted shown (s.postable (s.candidates readings declared) declared))
      records shown) :
    Holds s (s.planRegistration readings registered declared)
      (records ++ (s.wanted shown (s.postable (s.candidates readings declared) declared)).map
        fun p => (p.mrid, s.measured p.reading)) shown := by
  have perm := postedReadings_perm table clear.distinct
  have mine : ∀ p ∈ s.wanted shown (s.postable (s.candidates readings declared) declared),
      ∃ r, (s.planRegistration readings registered declared).get? p.mrid = some r ∧
        r.readingType.measured = s.measured p.reading := by
    intro p listed
    obtain ⟨r, found⟩ := exists_get?_foldl_addReading (s := s) registered (perm.mem_iff.mpr listed)
    refine ⟨r, ?_, ?_⟩
    · rw [Scheme.planRegistration, Dict.get?_sortedBy]
      exact found
    · rcases get?_foldl_addReading found with old | ⟨q, q_listed, same, rfl⟩
      · exact clear.own p listed _ (holds.only _ _ old) rfl
      · have q_wanted := perm.mem_iff.mp q_listed
        have one : q = p := List.inj_on_of_nodup_map clear.distinct q_wanted listed same
        rw [one]
        exact measured_newReading listed
  constructor
  · intro m in_records
    rcases List.mem_append.mp in_records with old | new
    · obtain ⟨r, found, same⟩ := holds.known m old
      exact ⟨r, planRegistration_within s readings registered declared _ _ found, same⟩
    · obtain ⟨p, listed, rfl⟩ := List.mem_map.mp new
      exact mine p listed
  · intro m r found
    rw [Scheme.planRegistration, Dict.get?_sortedBy] at found
    rcases get?_foldl_addReading found with old | ⟨p, listed, rfl, rfl⟩
    · exact List.mem_append_left _ (holds.only m r old)
    · have wanted := perm.mem_iff.mp listed
      rw [measured_newReading wanted]
      exact List.mem_append_right _ (List.mem_map.mpr ⟨p, wanted, rfl⟩)
  · intro signed
    have shown_iff : shown = true ↔
        (∃ r ∈ s.postable (s.candidates readings declared) declared,
          showsMultiPhase r.phase r.uom = true) ∨
        ∃ m ∈ records, showsMultiPhase m.2.phase m.2.uom = true := by
      rw [← holds.shown signed, ← List.any_eq_true, ← Bool.or_eq_true, ← is_shown signed]
    rw [shown_iff]
    constructor
    · rintro (⟨r, listed, shows⟩ | ⟨m, in_records, shows⟩)
      · obtain ⟨p, p_listed, rfl⟩ := reading_mem_wanted listed
        exact ⟨_, List.mem_append_right _ (List.mem_map.mpr ⟨p, p_listed, rfl⟩), shows⟩
      · exact ⟨m, List.mem_append_left _ in_records, shows⟩
    · rintro ⟨m, in_records, shows⟩
      rcases List.mem_append.mp in_records with old | new
      · exact Or.inr ⟨m, old, shows⟩
      · obtain ⟨p, listed, rfl⟩ := List.mem_map.mp new
        obtain ⟨r, r_listed, position, rank, variant, rfl⟩ := mem_wanted listed
        exact Or.inl ⟨r, r_listed, shows⟩
  · intro signed not_shown m in_records
    rcases List.mem_append.mp in_records with old | new
    · have not_before : before = false := by
        have both := (is_shown signed).symm.trans not_shown
        exact (Bool.or_eq_false_iff.mp both).2
      exact holds.single signed not_before m old
    · obtain ⟨p, listed, rfl⟩ := List.mem_map.mp new
      exact clear.single signed not_shown p listed

/-! ### Runs -/

theorem shown_eq_false {s : Scheme} (declared : Option (List ReadingIdentity))
    (other : s.profile ≠ .signedLoadConvention) (history : List (List Reading)) :
    s.shown declared history = false := by
  induction history with
  | nil => rfl
  | cons readings past ih => simp [Scheme.shown, other, ih]

theorem validFrom_prefix (seen : List ReadingIdentity) (readings more : List Reading) :
    validFrom seen readings <+: validFrom seen (readings ++ more) := by
  induction readings generalizing seen with
  | nil => exact List.nil_prefix
  | cons r rest ih =>
      rw [List.cons_append, validFrom, validFrom]
      split
      · split
        · exact ih seen
        · exact List.prefix_cons_inj r |>.mpr (ih _)
      · exact ih seen

/-- The readings of a cycle come before those declared that it does not supply. -/
theorem prefix_of_postable (s : Scheme) (readings : List Reading)
    (declared : Option (List ReadingIdentity)) :
    s.postable readings declared <+: s.postable (s.candidates readings declared) declared := by
  unfold Scheme.candidates
  split
  · rename_i identities profile
    have prefix_valid := validFrom_prefix [] readings
      (placeholders identities (validReadings readings))
    simp only [Scheme.postable, profile]
    exact prefix_valid.filter _
  · exact List.prefix_rfl

theorem wanted_prefix (s : Scheme) (multi : Bool) {few many : List Reading}
    (prefixed : few <+: many) : s.wanted multi few <+: s.wanted multi many := by
  obtain ⟨more, rfl⟩ := prefixed
  rw [Scheme.wanted, Scheme.wanted, List.zipIdx_append, List.flatMap_append]
  exact List.prefix_append _ _

/-- What was shown so far, the last cycle's readings or those declared included. -/
theorem shown_cons {s : Scheme} {declared : Option (List ReadingIdentity)}
    {readings : List Reading} {past : List (List Reading)}
    (signed : s.profile = .signedLoadConvention) : s.shown declared (readings :: past) =
      ((s.postable (s.candidates readings declared) declared).any
        (fun r => showsMultiPhase r.phase r.uom) || s.shown declared past) := by
  have candidates : s.candidates readings declared = readings := by
    simp only [Scheme.candidates, signed]
  simp only [Scheme.shown, signed, decide_true, Bool.true_and, candidates]

theorem of_mem_variantsAfter {s : Scheme} {declared : Option (List ReadingIdentity)}
    {history : List (List Reading)} {v : Variant} (listed : v ∈ s.variantsAfter declared history) :
    v.Of s := by
  induction history with
  | nil => cases listed
  | cons readings past ih =>
      rcases List.mem_append.mp listed with earlier | last
      · exact ih earlier
      · exact (of_mem_variantsOf last).1

/-- The mRIDs of a clear cycle are its own. -/
theorem Clear.ownMrids {s : Scheme} (sound : s.Sound) {declared : Option (List ReadingIdentity)}
    {readings : List Reading} {past : List (List Reading)}
    (clear : Clear s declared (readings :: past)) :
    OwnMrids s (s.wanted (s.shown declared (readings :: past))
      (s.postable (s.candidates readings declared) declared))
      ((s.variantsAfter declared past).map s.record) (s.shown declared (readings :: past)) := by
  apply CycleClear.ownMrids sound (fun w listed => of_mem_variantsAfter listed) _ clear.2
  intro signed not_shown r listed line
  rw [shown_cons signed, Bool.or_eq_false_iff, List.any_eq_false] at not_shown
  exact not_shown.1 r listed (decide_eq_true (.inl line))

theorem Clear.holds {s : Scheme} (sound : s.Sound) {declared : Option (List ReadingIdentity)}
    {history : List (List Reading)} (clear : Clear s declared history) :
    Holds s (s.registeredAfter declared history)
      ((s.variantsAfter declared history).map s.record) (s.shown declared history) := by
  induction history with
  | nil =>
      constructor
      · intro m listed
        cases listed
      · intro m r found
        rw [Scheme.registeredAfter, Dict.get?_empty] at found
        cases found
      · intro _
        simp [Scheme.shown, Scheme.variantsAfter]
      · intro _ _ m listed
        cases listed
  | cons readings past ih =>
      have before := ih clear.1
      rw [Scheme.variantsAfter, List.map_append, Scheme.lastVariants, ← map_record]
      apply before.step _ shown_cons (clear.ownMrids sound)
      rw [before.multiPhase _ _ fun other => shown_eq_false declared other past]
      by_cases signed : s.profile = .signedLoadConvention
      · rw [shown_cons signed]
        simp [signed]
      · rw [shown_eq_false declared signed, shown_eq_false declared signed]
        simp [signed]

/-- A cycle whose variants are clear posts its readings under their own ReadingTypes. -/
theorem Clear.faithful {s : Scheme} (sound : s.Sound)
    {declared : Option (List ReadingIdentity)} {readings : List Reading}
    {past : List (List Reading)} (clear : Clear s declared (readings :: past)) (how : Posting) :
    Faithful s readings declared (s.registeredAfter declared (readings :: past)) how := by
  have holds := clear.holds sound
  have table : s.multiPhase readings (s.registeredAfter declared (readings :: past)) declared =
      s.shown declared (readings :: past) := by
    rw [holds.multiPhase _ _ fun other => shown_eq_false declared other _, Scheme.shown]
    simp
  have few := wanted_prefix s (s.shown declared (readings :: past))
    (prefix_of_postable s readings declared)
  have own : ∀ p ∈ s.wanted (s.shown declared (readings :: past)) (s.postable readings declared),
      ∃ r, (s.registeredAfter declared (readings :: past)).get? p.mrid = some r ∧
        r.readingType.measured = s.measured p.reading := by
    intro p listed
    apply holds.known (p.mrid, s.measured p.reading)
    rw [Scheme.variantsAfter, List.map_append, Scheme.lastVariants, ← map_record]
    exact List.mem_append_right _ (List.mem_map.mpr ⟨p, few.subset listed, rfl⟩)
  have distinct : ((s.wanted (s.shown declared (readings :: past))
      (s.postable readings declared)).map Posted.mrid).Nodup :=
    (clear.ownMrids sound).distinct.sublist (few.sublist.map _)
  have perm := postedReadings_perm table distinct
  have all_registered : ((s.postedReadings readings
      (s.registeredAfter declared (readings :: past)) declared).filter fun p =>
        ((s.registeredAfter declared (readings :: past)).get? p.mrid).isSome) =
      s.postedReadings readings (s.registeredAfter declared (readings :: past)) declared := by
    apply List.filter_eq_self.mpr
    intro p listed
    obtain ⟨r, found, _⟩ := own p (perm.mem_iff.mp listed)
    rw [found]
    rfl
  have posted : ∃ vars, (s.createMeterReadingList readings how
      (s.registeredAfter declared (readings :: past)) declared) =
        (s.postedReadings readings (s.registeredAfter declared (readings :: past)) declared).map
          (s.meterReading how vars) := ⟨_, congrArg (List.map _) all_registered⟩
  obtain ⟨vars, posted⟩ := posted
  constructor
  · refine ⟨vars, ?_⟩
    rw [posted, table]
    exact perm.map _
  · rw [posted, List.map_map]
    exact (perm.map Posted.mrid).nodup_iff.mpr distinct
  · rw [table]
    exact own

theorem toList_someLfdi : someScheme.lfdi.toList =
    ['3', 'e', '4', 'f', '4', '5', 'a', 'b', '3', '1', 'e', 'd', 'f', 'e', '5', 'b', '6', '7', 'e',
      '3', '4', '3', 'e', '5', 'e', '4', '5', '6', '2', 'e', '3', '1', '9', '8', '4', 'e', '2', '3',
      'e', '5'] :=
  String.toList_ofList

theorem someLfdi_valid : IsLfdi someScheme.lfdi := by
  refine ⟨?_, ?_⟩ <;> rw [toList_someLfdi]
  · rfl
  · exact List.all_eq_true.mp rfl

/-- A device that is posted by the signed load convention. -/
def loadScheme : Scheme :=
  { someScheme with profile := .signedLoadConvention, sha256 := fun _ => List.replicate 64 0 }

theorem loadScheme_sound : loadScheme.Sound where
  lfdi := by
    refine ⟨someScheme.lfdi, someLfdi_valid, ?_⟩
    rw [← String.toList_inj, toList_toLower]
    change someScheme.lfdi.toList = _
    rw [toList_someLfdi]
    rfl
  digests _ := ⟨List.length_replicate, fun d listed => by
    rw [List.eq_of_mem_replicate listed]
    decide⟩

/-- Real power of a phase. -/
def wattsOf (phase : Int) : Reading := { uom := 38, value := some 700, phase := phase }

/-- The total and the lines of a three phase device, and then its total alone. -/
def threePhases : List (List Reading) :=
  [[wattsOf 224], [wattsOf 224, wattsOf 128, wattsOf 64, wattsOf 32]]

end Py20305.Telemetry
