import Mathlib.Tactic.Linarith
import Mathlib.Tactic.FieldSimp
import Py20305.SunSpec.Limits

/-!
Generation limits, in watts.

The output a device is allowed is the least of what its registers set. It meets every
active limit, except where opModMaxLimWInject raises WMax above the device's own and
opModMaxLimW is a percent of the raised value (`limits_hold_iff`).
-/

namespace Py20305.SunSpec

open Raising

/-- Calls, each made after one that returned. -/
abbrev runAll {σ : Type} (b : Bus σ) (calls : List LimitCall) : Call σ Unit :=
  Raising.each calls (·.run b)

/-! ### What is claimed -/

/-- WMax, or WMaxRtg where that is not implemented. -/
def effectiveWMax (v : Values) : ℚ := (v .wMax).getD ((v .wMaxRtg).getD 0)

/-- A value, lowered to a limit if there is one. -/
def lowered (limit : Option ℚ) (value : ℚ) : ℚ := limit.elim value (min · value)

/-- The limit of WDisChaRteMax. -/
def dischargeLimit (v : Values) : Option ℚ :=
  if rateSettingIsSupported v .inj then v .wDisChaRteMax else none

/-- The limit of an enabled WMaxLimPct. -/
def pctLimit (v : Values) : Option ℚ :=
  if v .wMaxLimPctEna = some 1 then (v .wMaxLimPct).map (· / 100 * effectiveWMax v) else none

/-- The output the registers allow. -/
def output (v : Values) : ℚ := lowered (dischargeLimit v) (lowered (pctLimit v) (effectiveWMax v))

/-- The output is at most what was asked of a device that had the values `v₀`, and what was
withdrawn is put back. -/
structure LimitsHold (v₀ : Values) (calls : List LimitCall) (v : Values) : Prop where
  watts : ∀ slot limit, slot ≠ .any → askedBy calls slot = some limit → output v ≤ limit
  percent : ∀ pct, askedBy calls .any = some pct → output v ≤ pct / 100 * effectiveWMax v₀
  withdrawn : (∀ slot, askedBy calls slot = none) →
    v .wMax = v₀ .wMax ∧ ((∃ call ∈ calls, call.touches) → v .wMaxLimPctEna = some 0)

/-! ### Where it holds -/

/-- A percent is active while the inject limit raises WMax above the device's own, and no
generation limit is as low as the percent of that. -/
def RaisesWMax (v₀ : Values) (asked : Slot → Option ℚ) : Prop :=
  takesInject v₀ = true ∧ ∃ own pct watts, v₀ .wMax = some own ∧ asked .any = some pct ∧ 0 < pct ∧
    asked .inj = some watts ∧ own < mirrored v₀ watts ∧
      ∀ limit, asked .gen = some limit → pct / 100 * own < limit

theorem lowered_le_iff {limit : Option ℚ} {value bound : ℚ} :
    lowered limit value ≤ bound ↔ value ≤ bound ∨ ∃ low, limit = some low ∧ low ≤ bound := by
  cases limit with
  | none => simp [lowered]
  | some low => simp [lowered, or_comm]

theorem clampPct_of_nonneg {pct : ℚ} (nonneg : 0 ≤ pct) : clampPct pct = min pct 100 := by
  unfold clampPct
  rw [abs_of_nonneg nonneg]
  split
  · rename_i exceeds
    rw [if_pos (lt_trans (by norm_num) exceeds), min_eq_right exceeds.le]
  · rename_i inside
    rw [min_eq_left (not_lt.mp inside)]

/-! ### The registers of what is held -/

section Held

variable {v₀ v : Values} {asked : Slot → Option ℚ} {touched : Prop} {w : World Values}
  {rtg inject : ℚ}

theorem Holding.pctLimit_eq (holding : Holding v₀ asked touched w) {low : ℚ}
    (found : least w.core.active = some low) :
    pctLimit w.bus = some (low / 100 * effectiveWMax w.bus) := by
  have merging := holding.merging (.inr (by rw [found]; rfl))
  rw [Merging, found] at merging
  rw [pctLimit, if_pos merging.1, merging.2, Option.map_some]

/-- The base of a percent is WMax, where that is not zero. -/
theorem percentBase_eq (rating : v .wMaxRtg = some rtg) (positive : 0 < rtg)
    (nonzero : effectiveWMax v ≠ 0) : percentBase v = some (effectiveWMax v) := by
  rw [percentBase, rating]
  cases found : v .wMax with
  | none => simp [effectiveWMax, found, rating, positive.ne']
  | some wmax =>
      have same : effectiveWMax v = wmax := by rw [effectiveWMax, found]; rfl
      rw [same] at nonzero ⊢
      simp [nonzero]

/-- Watts as a percent of WMax are at most the watts. -/
theorem pctOf_le {watts pct : ℚ} (rating : v .wMaxRtg = some rtg) (positive : 0 < rtg)
    (above : 0 < effectiveWMax v) (range : 0 ≤ watts) (expressed : pctOf v watts = some pct) :
    pct / 100 * effectiveWMax v = min watts (effectiveWMax v) := by
  rw [pctOf, percentBase_eq rating positive above.ne', Option.map_some, Option.some.injEq,
    clampPct_of_nonneg (by positivity)] at expressed
  subst expressed
  have scaled : ∀ x : ℚ, x / 100 * effectiveWMax v = x * (effectiveWMax v / 100) := fun x => by ring
  rw [scaled, min_mul_of_nonneg _ _ (by positivity)]
  congr 1
  · field_simp
  · ring

theorem output_le_iff {bound : ℚ} : output v ≤ bound ↔ effectiveWMax v ≤ bound ∨
    (∃ low, pctLimit v = some low ∧ low ≤ bound) ∨
      ∃ low, dischargeLimit v = some low ∧ low ≤ bound := by
  rw [output, lowered_le_iff, lowered_le_iff, or_assoc]

/-- The nameplate is known, and WMax is positive where it is implemented. -/
structure Rated (v₀ : Values) (rtg : ℚ) : Prop where
  rating : v₀ .wMaxRtg = some rtg
  positive : 0 < rtg
  own : ∀ wmax, v₀ .wMax = some wmax → 0 < wmax

theorem Rated.effectiveWMax_pos (rated : Rated v₀ rtg) : 0 < effectiveWMax v₀ := by
  rw [effectiveWMax, rated.rating]
  cases found : v₀ .wMax with
  | none => exact rated.positive
  | some wmax => exact rated.own wmax found

theorem Rated.mirrored_eq (rated : Rated v₀ rtg) (watts : ℚ) : mirrored v₀ watts = min watts rtg := by
  have known : (some rtg).filter (· ≠ 0) = some rtg := by simp [rated.positive.ne']
  rw [mirrored, rated.rating, known]

theorem Holding.effectiveWMax_eq (holding : Holding v₀ asked touched w) (rated : Rated v₀ rtg) :
    effectiveWMax w.bus = (wMaxFor v₀ (asked .inj)).getD rtg := by
  rw [effectiveWMax, holding.base.wMax, holding.base.rating, rated.rating]
  rfl

/-- An inject limit that is mirrored sets WMax. -/
theorem Holding.effectiveWMax_mirrored (holding : Holding v₀ asked touched w)
    (rated : Rated v₀ rtg) {own watts : ℚ} (takes : takesInject v₀ = true)
    (implemented : v₀ .wMax = some own) (limited : asked .inj = some watts) :
    effectiveWMax w.bus = mirrored v₀ watts := by
  rw [holding.effectiveWMax_eq rated, limited, wMaxFor, if_pos takes, implemented]
  rfl

/-- Where no inject limit is mirrored, WMax is the device's own. -/
theorem Holding.effectiveWMax_own (holding : Holding v₀ asked touched w) (rated : Rated v₀ rtg)
    (unmoved : wMaxFor v₀ (asked .inj) = v₀ .wMax) : effectiveWMax w.bus = effectiveWMax v₀ := by
  rw [holding.effectiveWMax_eq rated, unmoved, effectiveWMax, rated.rating]
  rfl

theorem Holding.effectiveWMax_nonneg (holding : Holding v₀ asked touched w) (rated : Rated v₀ rtg) :
    0 ≤ effectiveWMax w.bus := by
  by_cases unmoved : wMaxFor v₀ (asked .inj) = v₀ .wMax
  · rw [holding.effectiveWMax_own rated unmoved]
    exact rated.effectiveWMax_pos.le
  · cases limited : asked .inj with
    | none => exact absurd (by rw [limited]; rfl) unmoved
    | some watts =>
        rw [limited, wMaxFor] at unmoved
        rw [holding.effectiveWMax_eq rated, limited, wMaxFor]
        split at unmoved
        · rename_i takes
          rw [if_pos takes]
          cases implemented : v₀ .wMax with
          | none => exact rated.positive.le
          | some wmax =>
              rw [Option.map_some, Option.getD_some, rated.mirrored_eq]
              exact le_min (holding.sane.watts .inj watts (by decide) limited) rated.positive.le
        · exact absurd rfl unmoved

/-- A percent in the merge limits the output to that percent of WMax. -/
theorem Holding.output_le_pct (holding : Holding v₀ asked touched w) (rated : Rated v₀ rtg)
    {slot : Slot} {pct : ℚ} (active : w.core.active slot = some pct) :
    output w.bus ≤ pct / 100 * effectiveWMax w.bus := by
  obtain ⟨low, found⟩ := Option.isSome_iff_exists.mp (least_isSome_of active)
  have le := (least_eq_some_iff.mp found).2 slot pct active
  refine output_le_iff.mpr (.inr (.inl ⟨_, holding.pctLimit_eq found, ?_⟩))
  have nonneg := holding.effectiveWMax_nonneg rated
  gcongr

theorem Holding.output_le_expressed (holding : Holding v₀ asked touched w) (rated : Rated v₀ rtg)
    (slot : Slot) {watts : ℚ} (range : 0 ≤ watts)
    (active : ∀ pct, pctOf w.bus watts = some pct → w.core.active slot = some pct) :
    output w.bus ≤ watts := by
  have rating := holding.base.rating.trans rated.rating
  rcases (holding.effectiveWMax_nonneg rated).eq_or_lt with zero | above
  · -- A WMax of zero allows nothing.
    exact output_le_iff.mpr (.inl (zero ▸ range))
  · have expressed : pctOf w.bus watts = some (clampPct (watts / effectiveWMax w.bus * 100)) := by
      rw [pctOf, percentBase_eq rating rated.positive above.ne', Option.map_some]
    calc output w.bus
        ≤ _ := holding.output_le_pct rated (active _ expressed)
      _ = min watts (effectiveWMax w.bus) := pctOf_le rating rated.positive above range expressed
      _ ≤ watts := min_le_left _ _

/-- The output is at most each active limit in watts. -/
theorem Holding.output_le_watts (holding : Holding v₀ asked touched w) (rated : Rated v₀ rtg)
    {slot : Slot} {watts : ℚ} (inWatts : slot ≠ .any) (active : asked slot = some watts) :
    output w.bus ≤ watts := by
  have range := holding.sane.watts slot watts inWatts active
  cases slot with
  | any => exact absurd rfl inWatts
  | inj =>
      by_cases takes : takesInject v₀ = true
      · have limit : dischargeLimit w.bus = some watts := by
          rw [dischargeLimit, if_pos (holding.base.takes.trans takes)]
          exact holding.base.discharge takes watts active
        exact output_le_iff.mpr (.inr (.inr ⟨watts, limit, le_rfl⟩))
      · rw [Bool.not_eq_true] at takes
        refine holding.output_le_expressed rated .inj range fun pct expressed => ?_
        rw [holding.slots.inj, takes, active, ← expressed, holding.base.pctOf_of_not_takes takes]
        rfl
  | gen =>
      exact holding.output_le_expressed rated .gen range fun pct expressed =>
        holding.expressed watts pct active expressed

/-- The output is at most the active percent of the device's own WMax, unless WMax is raised. -/
theorem Holding.output_le_percent (holding : Holding v₀ asked touched w) (rated : Rated v₀ rtg)
    {pct : ℚ} (active : asked .any = some pct) (unraised : ¬ RaisesWMax v₀ asked) :
    output w.bus ≤ pct / 100 * effectiveWMax v₀ := by
  have merged := holding.output_le_pct rated (holding.slots.any.trans active)
  have range := (holding.sane.any pct active).1
  -- A WMax that is not above the device's own makes the percent no larger.
  have of_le : effectiveWMax w.bus ≤ effectiveWMax v₀ →
      output w.bus ≤ pct / 100 * effectiveWMax v₀ := fun le => merged.trans (by gcongr)
  by_cases unmoved : wMaxFor v₀ (asked .inj) = v₀ .wMax
  · exact of_le (holding.effectiveWMax_own rated unmoved).le
  · obtain ⟨watts, limited⟩ : ∃ watts, asked .inj = some watts := by
      refine Option.isSome_iff_exists.mp (Option.isSome_iff_ne_none.mpr fun none_ => unmoved ?_)
      rw [none_]
      rfl
    have takes : takesInject v₀ = true := by
      by_contra indirect
      exact unmoved (wMaxFor_of_not_takes (by simpa using indirect) _)
    obtain ⟨own, implemented⟩ : ∃ own, v₀ .wMax = some own := by
      refine Option.isSome_iff_exists.mp (Option.isSome_iff_ne_none.mpr fun none_ => unmoved ?_)
      rw [limited, wMaxFor, if_pos takes, none_]
      rfl
    have mine : effectiveWMax v₀ = own := by rw [effectiveWMax, implemented]; rfl
    have moved := holding.effectiveWMax_mirrored rated takes implemented limited
    by_cases higher : own < mirrored v₀ watts
    · -- Only a percent of zero or a lower generation limit keeps the output down.
      rcases range.eq_or_lt with zero | above
      · rw [← zero, zero_div, zero_mul] at merged ⊢
        exact merged
      · by_contra exceeds
        refine unraised ⟨takes, own, pct, watts, implemented, active, above, limited, higher,
          fun limit gen => ?_⟩
        have low := holding.output_le_watts rated (by decide) gen
        rw [not_le, mine] at exceeds
        exact exceeds.trans_le low
    · rw [not_lt, ← moved, ← mine] at higher
      exact of_le higher

/-- Where WMax is raised, the output is above the active percent of the device's own WMax. -/
theorem Holding.output_over (holding : Holding v₀ asked touched w) (rated : Rated v₀ rtg)
    (raised : RaisesWMax v₀ asked) : ∃ pct, asked .any = some pct ∧
      pct / 100 * effectiveWMax v₀ < output w.bus := by
  obtain ⟨takes, own, pct, watts, implemented, active, above, limited, higher, gen⟩ := raised
  refine ⟨pct, active, ?_⟩
  have mine : effectiveWMax v₀ = own := by rw [effectiveWMax, implemented]; rfl
  have moved := holding.effectiveWMax_mirrored rated takes implemented limited
  have ownPos := rated.own own implemented
  have atMost := (holding.sane.any pct active).2
  have share : pct / 100 * own ≤ own := by
    have := mul_le_mul_of_nonneg_right atMost ownPos.le
    linarith
  have mirrorLe : mirrored v₀ watts ≤ watts := by
    rw [rated.mirrored_eq]
    exact min_le_left _ _
  have wide : 0 < effectiveWMax w.bus := moved ▸ ownPos.trans higher
  rw [mine, ← not_le, output_le_iff]
  rintro (low | ⟨low, found, le⟩ | ⟨low, found, le⟩)
  · rw [moved] at low
    linarith
  · obtain ⟨pct', merged⟩ : ∃ pct', least w.core.active = some pct' :=
      Option.isSome_iff_exists.mp (least_isSome_of (holding.slots.any.trans active))
    rw [holding.pctLimit_eq merged, Option.some.injEq] at found
    subst found
    obtain ⟨⟨slot, is_least⟩, -⟩ := least_eq_some_iff.mp merged
    cases slot with
    | any =>
        rw [holding.slots.any, active, Option.some.injEq] at is_least
        subst is_least
        rw [moved] at le
        have := mul_lt_mul_of_pos_left higher above
        linarith
    | inj =>
        rw [holding.slots.inj, takes] at is_least
        cases is_least
    | gen =>
        cases asks : asked .gen with
        | none =>
            rw [Core.active, holding.slots.noGen asks] at is_least
            cases is_least
        | some limit =>
            have rating := holding.base.rating.trans rated.rating
            have expressed : pctOf w.bus limit =
                some (clampPct (limit / effectiveWMax w.bus * 100)) := by
              rw [pctOf, percentBase_eq rating rated.positive wide.ne', Option.map_some]
            have same := is_least.symm.trans (holding.expressed limit _ asks expressed)
            rw [Option.some.injEq] at same
            rw [same, pctOf_le rating rated.positive wide
              (holding.sane.watts .gen limit (by decide) asks) expressed, min_le_iff, moved] at le
            rcases le with le | le
            · exact absurd (gen limit asks) (not_lt.mpr le)
            · linarith
  · rw [dischargeLimit, if_pos (holding.base.takes.trans takes),
      holding.base.discharge takes watts limited, Option.some.injEq] at found
    linarith

end Held

/-- After successful calls the output meets every limit, and what was withdrawn is put back,
exactly if an inject limit has not raised WMax under a percent. -/
theorem limits_hold_iff (present : ModelId → Bool) (capacity : Curve → Nat) (v₀ : Values) (rtg : ℚ)
    (rated : Rated v₀ rtg) (calls : List LimitCall) (t : World Values)
    (ran : (runAll (deviceBus present capacity) calls).Returns (World.fresh v₀) () t) :
    LimitsHold v₀ calls t.bus ↔ ¬ RaisesWMax v₀ (askedBy calls) := by
  have holding : Holding v₀ (askedBy calls) (False ∨ ∃ call ∈ calls, call.touches) t :=
    ((Holding.fresh v₀).each calls).returns ran
  constructor
  · intro holds raised
    obtain ⟨pct, active, above⟩ := holding.output_over rated raised
    exact absurd (holds.percent pct active) (not_le.mpr above)
  · intro unraised
    refine ⟨fun slot limit inWatts active => holding.output_le_watts rated inWatts active,
      fun pct active => holding.output_le_percent rated active unraised, fun idle => ⟨?_, ?_⟩⟩
    · rw [holding.base.wMax, idle .inj]
      rfl
    · intro cleared
      have merging := holding.merging (.inl (.inr cleared))
      have none_ : least t.core.active = none := by
        have any : t.core.active .any = none := holding.slots.any.trans (idle .any)
        have inj : t.core.active .inj = none := by
          rw [holding.slots.inj, idle .inj, Option.bind_none, ite_self]
        have gen : t.core.active .gen = none := by
          rw [Core.active, holding.slots.noGen (idle .gen)]
          rfl
        rw [least, any, inj, gen]
        rfl
      rwa [Merging, none_] at merging

/-! ### WMax raised -/

/-- A device of 10 kW that is set to 5. -/
def derated : Values
  | .wMaxRtg | .wDisChaRteMaxRtg | .wDisChaRteMax => some 10000
  | .wMax => some 5000
  | .wSf => some 0
  | .wMaxLimPctEna => some 0
  | .wMaxLimPct => some 100
  | _ => none

/-- An inject limit that raises WMax is withdrawn and comes again below the device's own. -/
def lowering : List LimitCall :=
  [.maxLimW true (some (.number 50)), .maxLimWInject true (some (.number 8000)),
    .genLimW true (some (.number 3000)), .maxLimWInject true none,
    .maxLimWInject true (some (.number 4000))]

/-- All three limits are met. -/
theorem limits_hold_derated :
    ∃ t : World Values, (runAll (deviceBus (fun _ => true) fun _ => 10) lowering).Returns
      (World.fresh derated) () t ∧ LimitsHold derated lowering t.bus := by
  obtain ⟨t, ran⟩ : ∃ t, (runAll (deviceBus (fun _ => true) fun _ => 10) lowering).Returns
      (World.fresh derated) () t := ⟨_, Prod.ext (by decide +kernel) rfl⟩
  refine ⟨t, ran, (limits_hold_iff (fun _ => true) (fun _ => 10) derated 10000
    ⟨rfl, by norm_num, ?_⟩ lowering t ran).mpr ?_⟩
  · intro wmax same
    cases same
    norm_num
  · rintro ⟨-, own, pct, watts, implemented, -, -, limited, higher, -⟩
    cases implemented
    cases limited
    exact absurd higher (by decide +kernel)

/-- With an inject limit of 8 kW, 50 percent allows 4 kW. -/
theorem inject_raises_wmax : ∃ t : World Values, (runAll (deviceBus (fun _ => true) fun _ => 10)
      [.maxLimW true (some (.number 50)), .maxLimWInject true (some (.number 8000))]).Returns
      (World.fresh derated) () t ∧
    ¬ LimitsHold derated
      [.maxLimW true (some (.number 50)), .maxLimWInject true (some (.number 8000))] t.bus := by
  refine ⟨_, Prod.ext ?_ rfl, fun holds => ?_⟩
  · decide +kernel
  · exact absurd (holds.percent 50 rfl) (by decide +kernel)

end Py20305.SunSpec
