import Mathlib.Data.NNRat.Defs
import Py20305.SunSpec.Limits

/-!
The charge rate.

opModMaxLimWAbsorb and opModLoadLimW share WChaRteMax. A `Client` is the client of a device whose
reads and writes may fail, and whose WChaRteMax takes what is written at the resolution of its scale
factor. After any calls the register holds the least of the limits in force, at most the rating
(`charge_holds`).
-/

namespace Py20305.SunSpec

open Raising

/-! ### Clients and calls -/

/-- A client, the registers behind it, and how it encodes a value at a scale factor. A request that
fails leaves the registers as they were. -/
structure Client (σ : Type) where
  bus : Bus σ
  registers : σ → Values
  encode : ℚ → ℚ → ℤ
  reads : ∀ mid s, (bus.readModel mid).Ends s
    (fun model t => model = registers s ∧ registers t = registers s)
    fun _ t => registers t = registers s
  reconnects : ∀ s, bus.reconnect.Ends s (fun _ t => registers t = registers s)
    fun _ t => registers t = registers s
  writes : ∀ watts s sf, registers s .wSf = some sf → (bus.write [(.wChaRteMax, watts)]).Ends s
    (fun _ t => registers t = (registers s).set .wChaRteMax (encode sf watts * powerOfTen sf))
    fun e t => e ≠ .value ∧ registers t = registers s
  /-- What the register can hold is encoded as it is. -/
  exact : ∀ sf, ∀ raw : Nat, raw ≤ 65535 → encode sf (raw * powerOfTen sf) = raw

/-- A call of one of the two controls. A withdrawal may carry a value, which nothing reads. -/
inductive ChargeCall where
  | enable (slot : ChargeSlot) (watts : ℚ≥0)
  | withdraw (slot : ChargeSlot) (stale : Option Arg)

namespace ChargeCall

def slot : ChargeCall → ChargeSlot
  | enable slot _ => slot
  | withdraw slot _ => slot

/-- The limit it asks for. -/
def limit : ChargeCall → Option ℚ
  | enable _ watts => some watts
  | withdraw _ _ => none

def run {σ : Type} (b : Bus σ) : ChargeCall → Call σ Unit
  | enable .abs watts => updatePLimAbs b true (some (.number watts))
  | enable .load watts => updateLoadLim b true (some (.number watts))
  | withdraw .abs stale => updatePLimAbs b false stale
  | withdraw .load stale => updateLoadLim b false stale

end ChargeCall

/-- The calls made, newest first, with how they ended. -/
abbrev Ended := List (ChargeCall × Except Fault Unit)

/-- The limit of a control's latest call that succeeded. -/
def inForce : Ended → ChargeSlot → Option ℚ
  | [], _ => none
  | (call, .ok ()) :: older, slot => if call.slot = slot then call.limit else inForce older slot
  | (_, .error _) :: older, slot => inForce older slot

/-- Make a call, whether it returns or raises. -/
def makeCall {σ : Type} (b : Bus σ) (made : World σ × Ended) (call : ChargeCall) : World σ × Ended :=
  let ended := call.run b made.1
  (ended.2, (call, ended.1) :: made.2)

/-- A fresh connector makes the calls one after the other. -/
def makeCalls {σ : Type} (b : Bus σ) (s : σ) (calls : List ChargeCall) : World σ × Ended :=
  calls.foldl (makeCall b) (World.fresh s, [])

/-- The least of the limits, and at most the rating. -/
def chargeRate (rating : ℚ) (limits : ChargeSlot → Option ℚ) : ℚ :=
  match [limits .abs, limits .load].reduceOption.min? with
  | some low => min low rating
  | none => rating

/-- The device supports WChaRteMax, and the rating is a uint16 at W_SF. -/
structure Declares (v : Values) (sf rating : ℚ) : Prop where
  supported : rateSettingIsSupported v .abs = true
  rated : v .wChaRteMaxRtg = some rating
  scaled : v .wSf = some sf
  encoded : ∃ raw : Nat, raw ≤ 65535 ∧ rating = (raw : ℚ) * powerOfTen sf

/-! ### A call -/

section Calls

variable {σ : Type} (c : Client σ) {w t : World σ}

theorem ends_getModel_client (mid : ModelId) (w : World σ) : (getModel c.bus mid).Ends w
    (fun model t => model = c.registers w.bus ∧ t.core = w.core ∧
      c.registers t.bus = c.registers w.bus)
    fun e t => e ≠ .value ∧ t.core = w.core ∧ c.registers t.bus = c.registers w.bus := by
  have reads (v : World σ) (same : v.core = w.core ∧ c.registers v.bus = c.registers w.bus) :
      (onBus (c.bus.readModel mid)).Ends v
        (fun model t => model = c.registers w.bus ∧ t.core = w.core ∧
          c.registers t.bus = c.registers w.bus)
        fun _ t => t.core = w.core ∧ c.registers t.bus = c.registers w.bus := by
    rw [onBus, ends_within_iff]
    refine (c.reads mid v.bus).mono (fun model t found => ?_) fun _ t kept => ?_
    · exact ⟨found.1.trans same.2, same.1, found.2.trans same.2⟩
    · exact ⟨same.1, kept.trans same.2⟩
  unfold getModel
  rw [ends_ite_iff]
  refine ⟨fun _ => ?_, fun _ => ⟨by simp, rfl, rfl⟩⟩
  rw [ends_except_iff]
  refine (reads w ⟨rfl, rfl⟩).mono (fun _ _ found => found) fun e t kept => ?_
  rw [ends_ite_iff]
  refine ⟨fun _ => ⟨by simp, kept⟩, fun _ => ?_⟩
  simp only [ends_bind_iff, ends_except_iff, ends_raise_iff]
  rw [onBus, ends_within_iff]
  refine (c.reconnects t.bus).mono (fun _ u again => ?_) fun _ u again => ?_
  · refine (reads { t with bus := u } ⟨kept.1, again.trans kept.2⟩).mono (fun _ _ found => found) fun _ v later => ?_
    exact ⟨by simp, later⟩
  · exact ⟨by simp, kept.1, again.trans kept.2⟩

theorem ends_requireUint16Watts_of_le {watts sf : ℚ} {raw : Nat} (range : 0 ≤ watts)
    (small : raw ≤ 65535) (below : watts ≤ raw * powerOfTen sf) (w : World σ) :
    (requireUint16Watts watts (some sf)).Ends w (fun _ t => t = w) fun _ _ => False := by
  have positive : 0 < powerOfTen sf := zpow_pos (by norm_num) _
  have lower : 0 ≤ roundHalfEven (watts / powerOfTen sf) :=
    roundHalfEven_nonneg (div_nonneg range positive.le)
  have upper : roundHalfEven (watts / powerOfTen sf) ≤ raw :=
    roundHalfEven_le (by exact_mod_cast (div_le_iff₀ positive).mpr below)
  have fits : 0 ≤ roundHalfEven (watts / powerOfTen sf) ∧
      roundHalfEven (watts / powerOfTen sf) ≤ 65535 := ⟨lower, by omega⟩
  simp only [requireUint16Watts]
  rw [if_pos fits]
  rfl

/-- A limit goes through: it is recorded, and WChaRteMax holds the least. -/
def Applied (w : World σ) (sf rating : ℚ) (slot : ChargeSlot) (limit : Option ℚ) (t : World σ) :
    Prop :=
  t.core.chargeLimits = Function.update w.core.chargeLimits slot limit ∧
    c.registers t.bus = (c.registers w.bus).set .wChaRteMax
      (c.encode sf (chargeRate rating t.core.chargeLimits) * powerOfTen sf)

/-- Every limit is at least zero. -/
def Ranged (limits : ChargeSlot → Option ℚ) : Prop := ∀ slot watts, limits slot = some watts → 0 ≤ watts

theorem chargeRate_le (rating : ℚ) (limits : ChargeSlot → Option ℚ) :
    chargeRate rating limits ≤ rating := by
  unfold chargeRate
  split
  · exact min_le_right _ _
  · exact le_rfl

theorem chargeRate_nonneg {rating : ℚ} {limits : ChargeSlot → Option ℚ} (range : 0 ≤ rating)
    (ranged : Ranged limits) : 0 ≤ chargeRate rating limits := by
  unfold chargeRate
  split
  · rename_i low found
    have listed := List.min?_mem found
    rw [List.reduceOption_mem_iff] at listed
    refine le_min ?_ range
    rcases List.mem_cons.mp listed with abs | load
    · exact ranged .abs low abs.symm
    · exact ranged .load low (List.mem_singleton.mp load).symm
  · exact range

/-- The last part of `_set_charge_limit`, once the model is read. -/
theorem ends_writeChargeRate {sf rating : ℚ} {slot : ChargeSlot} {limit : Option ℚ}
    (declares : Declares (c.registers w.bus) sf rating)
    (ranged : Ranged (Function.update w.core.chargeLimits slot limit))
    (recorded : t.core = w.core.setCharge slot limit)
    (same : c.registers t.bus = c.registers w.bus) :
    (match rateSettingIsSupported (c.registers w.bus) .abs, c.registers w.bus .wChaRteMaxRtg with
      | true, some rating => do
          let target := match (w.core.setCharge slot limit).activeCharges.min? with
            | some low => min low rating
            | none => rating
          requireUint16Watts target (c.registers w.bus .wSf)
          writePoints c.bus [(.wChaRteMax, target)]
      | _, _ => pure () : Call σ Unit).Ends t (fun _ u => Applied c w sf rating slot limit u)
      fun e u => e ≠ .value ∧ u.core = w.core.setCharge slot limit ∧
        c.registers u.bus = c.registers w.bus := by
  obtain ⟨raw, small, encoded⟩ := declares.encoded
  have positive : 0 < powerOfTen sf := zpow_pos (by norm_num) _
  have range : 0 ≤ rating := encoded ▸ mul_nonneg (Nat.cast_nonneg raw) positive.le
  have limits : (w.core.setCharge slot limit).chargeLimits =
      Function.update w.core.chargeLimits slot limit := rfl
  rw [declares.supported, declares.rated]
  show (requireUint16Watts (chargeRate rating (w.core.setCharge slot limit).chargeLimits)
    (c.registers w.bus .wSf) >>= fun _ => writePoints c.bus [(.wChaRteMax,
      chargeRate rating (w.core.setCharge slot limit).chargeLimits)]).Ends t _ _
  rw [declares.scaled, ends_bind_iff]
  refine (ends_requireUint16Watts_of_le (chargeRate_nonneg range (limits ▸ ranged)) small
    (encoded ▸ chargeRate_le rating _) t).mono (fun _ u unchanged => ?_) fun _ _ never => never.elim
  subst unchanged
  rw [writePoints, onBus, ends_within_iff]
  refine (c.writes _ u.bus sf (by rw [same, declares.scaled])).mono (fun _ v wrote => ?_) fun e v kept => ?_
  · refine ⟨by rw [recorded]; rfl, ?_⟩
    rw [recorded, ← same]
    exact wrote
  · exact ⟨kept.1, recorded, kept.2.trans same⟩

theorem setCharge_restored (core : Core) (slot : ChargeSlot) (limit : Option ℚ) :
    (core.setCharge slot limit).setCharge slot (core.chargeLimits slot) = core := by
  simp only [Core.setCharge, Function.update_idem, Function.update_eq_self]

/-- A call leaves its limit applied, or everything as it was. -/
abbrev AppliesOrNot (call : Call σ Unit) (w : World σ) (sf rating : ℚ) (slot : ChargeSlot)
    (limit : Option ℚ) (t : World σ) : Prop :=
  call.Ends t (fun _ u => Applied c w sf rating slot limit u)
    fun e u => e ≠ .value ∧ u.core = w.core ∧ c.registers u.bus = c.registers w.bus

theorem ends_setChargeLimit {sf rating : ℚ} {slot : ChargeSlot} {limit : Option ℚ}
    {model702 : Option Values} (declares : Declares (c.registers w.bus) sf rating)
    (ranged : Ranged (Function.update w.core.chargeLimits slot limit))
    (read : ∀ model, model702 = some model → model = c.registers w.bus)
    (core : t.core = w.core) (same : c.registers t.bus = c.registers w.bus) :
    AppliesOrNot c (setChargeLimit c.bus slot limit model702) w sf rating slot limit t := by
  -- Where the write or the read fails, the former limit is put back.
  have restores (e : Fault) (u : World σ) (refused : e ≠ .value ∧
      u.core = w.core.setCharge slot limit ∧ c.registers u.bus = c.registers w.bus) :
      (do record (·.setCharge slot (w.core.chargeLimits slot)); raise e : Call σ Unit).Ends u
        (fun _ v => Applied c w sf rating slot limit v)
        fun e v => e ≠ .value ∧ v.core = w.core ∧ c.registers v.bus = c.registers w.bus := by
    refine ⟨refused.1, ?_, refused.2.2⟩
    show u.core.setCharge slot (w.core.chargeLimits slot) = w.core
    rw [refused.2.1, setCharge_restored]
  simp only [AppliesOrNot, setChargeLimit, record, ends_bind_iff, ends_read_iff, ends_change_iff,
    ends_except_iff, core]
  have writes (u : World σ) (recorded : u.core = w.core.setCharge slot limit)
      (kept : c.registers u.bus = c.registers w.bus) :=
    (ends_writeChargeRate c declares ranged recorded kept).mono (fun _ _ applied => applied) restores
  cases model702 with
  | some model =>
      rw [read model rfl]
      exact writes _ rfl same
  | none =>
      simp only [ends_bind_iff]
      refine (ends_getModel_client c .m702 _).mono (fun model u found => ?_) fun e u kept => ?_
      · have read : model = c.registers w.bus := found.1.trans same
        rw [read]
        exact writes u found.2.1 (found.2.2.trans same)
      · exact restores e u ⟨kept.1, kept.2.1, kept.2.2.trans same⟩

theorem ChargeCall.ranged (call : ChargeCall) {limits : ChargeSlot → Option ℚ}
    (ranged : Ranged limits) : Ranged (Function.update limits call.slot call.limit) := by
  intro slot watts limited
  by_cases own : slot = call.slot
  · subst own
    rw [Function.update_self] at limited
    cases call with
    | enable slot asked =>
        cases limited
        exact asked.2
    | withdraw slot stale => cases limited
  · rw [Function.update_of_ne own] at limited
    exact ranged slot watts limited

/-- A call of one of the controls applies its limit, or changes nothing. -/
theorem ChargeCall.ends_run {sf rating : ℚ} (call : ChargeCall)
    (declares : Declares (c.registers w.bus) sf rating) (ranged : Ranged w.core.chargeLimits) :
    AppliesOrNot c (call.run c.bus) w sf rating call.slot call.limit w := by
  have ranges := call.ranged ranged
  -- The value passes its check, and the model is read before the limit is set.
  have enables (slot : ChargeSlot) (watts : ℚ≥0)
      (ranges : Ranged (Function.update w.core.chargeLimits slot (some (watts : ℚ))))
      (unsupported : Call σ Unit) :
      AppliesOrNot c (do
        let value ← requireWatts (.number watts)
        let model702 ← getModel c.bus .m702
        if rateSettingIsSupported model702 .abs then
          setChargeLimit c.bus slot (some value) (some model702)
        else unsupported) w sf rating slot (some (watts : ℚ)) w := by
    have passes : ¬(watts : ℚ) < 0 := not_lt.mpr watts.2
    simp only [AppliesOrNot, ends_bind_iff, requireWatts, asNumber, ends_pure_iff, passes, if_false]
    refine (ends_getModel_client c .m702 w).mono (fun model t found => ?_) fun _ _ kept => kept
    obtain ⟨rfl, core, same⟩ := found
    rw [if_pos declares.supported]
    refine ends_setChargeLimit c declares ranges (fun model found => ?_) core same
    exact (Option.some.inj found).symm
  cases call with
  | enable slot watts =>
      cases slot with
      | abs => exact enables .abs watts ranges _
      | load => exact enables .load watts ranges _
  | withdraw slot stale =>
      have unread (model : Values) (found : none = some model) : model = c.registers w.bus := by
        cases found
      cases slot with
      | abs => exact ends_setChargeLimit c declares ranges unread rfl rfl
      | load => exact ends_setChargeLimit c declares ranges unread rfl rfl

/-! ### Runs -/

/-- The record is what is in force, and WChaRteMax the least of it once a call has succeeded. -/
structure Charged (v₀ : Values) (sf rating : ℚ) (made : World σ × Ended) : Prop where
  limits : made.1.core.chargeLimits = inForce made.2
  ranged : Ranged made.1.core.chargeLimits
  others : ∀ p, p ≠ .wChaRteMax → c.registers made.1.bus p = v₀ p
  there : (c.registers made.1.bus .wChaRteMax).isSome
  held : (∃ call, (call, .ok ()) ∈ made.2) → c.registers made.1.bus .wChaRteMax =
    some (c.encode sf (chargeRate rating (inForce made.2)) * powerOfTen sf)
  fits : ∀ ended ∈ made.2, ended.2 ≠ .error .value

variable {v₀ : Values} {sf rating : ℚ} {made : World σ × Ended}

theorem Charged.declares (charged : Charged c v₀ sf rating made) (declares : Declares v₀ sf rating) :
    Declares (c.registers made.1.bus) sf rating where
  supported := by
    have same := charged.others .wChaRteMaxRtg (by decide)
    have supported := declares.supported
    simp only [rateSettingIsSupported, Direction.setting, Direction.rating, Bool.and_eq_true]
      at supported ⊢
    rw [same]
    exact ⟨charged.there, supported.2⟩
  rated := (charged.others .wChaRteMaxRtg (by decide)).trans declares.rated
  scaled := (charged.others .wSf (by decide)).trans declares.scaled
  encoded := declares.encoded

theorem Charged.makeCall (charged : Charged c v₀ sf rating made) (declares : Declares v₀ sf rating)
    (call : ChargeCall) : Charged c v₀ sf rating (makeCall c.bus made call) := by
  have ends := call.ends_run c (charged.declares c declares) charged.ranged
  have forced : inForce ((call, .ok ()) :: made.2) =
      Function.update made.1.core.chargeLimits call.slot call.limit := by
    funext slot
    by_cases own : slot = call.slot
    · subst own
      simp [inForce]
    · simp [inForce, Function.update_of_ne own, Ne.symm own, charged.limits]
  unfold SunSpec.makeCall
  rcases returns_or_raises (call.run c.bus) made.1 with ⟨_, t, returned⟩ | ⟨e, t, raised⟩
  · obtain ⟨recorded, wrote⟩ := ends.returns returned
    rw [show call.run c.bus made.1 = (.ok (), t) from returned]
    exact {
      limits := recorded.trans forced.symm
      ranged := by
        intro slot watts limited
        have found : t.core.chargeLimits slot = some watts := limited
        rw [recorded] at found
        exact call.ranged charged.ranged slot watts found
      others := fun p other => by
        show c.registers t.bus p = v₀ p
        rw [wrote, set_of_ne _ _ other]
        exact charged.others p other
      there := by
        show (c.registers t.bus .wChaRteMax).isSome
        rw [wrote, set_self, Option.isSome_map]
        exact charged.there
      held := fun _ => by
        show c.registers t.bus .wChaRteMax = _
        rw [wrote, set_of_isSome charged.there, recorded, forced]
      fits := fun ended listed => by
        rcases List.mem_cons.mp listed with rfl | before
        · simp
        · exact charged.fits ended before }
  · obtain ⟨own, recorded, same⟩ := ends.raises raised
    rw [show call.run c.bus made.1 = (.error e, t) from raised]
    exact {
      limits := by
        show t.core.chargeLimits = _
        rw [recorded]
        exact charged.limits
      ranged := by
        show Ranged t.core.chargeLimits
        rw [recorded]
        exact charged.ranged
      others := fun p other => by
        show c.registers t.bus p = v₀ p
        rw [same]
        exact charged.others p other
      there := by
        show (c.registers t.bus .wChaRteMax).isSome
        rw [same]
        exact charged.there
      held := fun succeeded => by
        show c.registers t.bus .wChaRteMax = _
        rw [same]
        obtain ⟨earlier, listed⟩ := succeeded
        refine charged.held ⟨earlier, (List.mem_cons.mp listed).resolve_left fun same => ?_⟩
        cases same
      fits := fun ended listed => by
        rcases List.mem_cons.mp listed with rfl | before
        · simpa using own
        · exact charged.fits ended before }

theorem Charged.makeCalls (charged : Charged c v₀ sf rating made) (declares : Declares v₀ sf rating)
    (calls : List ChargeCall) : Charged c v₀ sf rating (calls.foldl (SunSpec.makeCall c.bus) made) := by
  induction calls generalizing made with
  | nil => exact charged
  | cons call rest ih => exact ih (charged.makeCall c declares call)

theorem Charged.fresh (s : σ) {sf rating : ℚ} (declares : Declares (c.registers s) sf rating) :
    Charged c (c.registers s) sf rating (World.fresh s, []) where
  limits := rfl
  ranged _ _ limited := by cases limited
  others _ _ := rfl
  there := by
    have supported := declares.supported
    rw [rateSettingIsSupported, Bool.and_eq_true] at supported
    exact supported.1
  held succeeded := by
    obtain ⟨call, listed⟩ := succeeded
    cases listed
  fits _ listed := by cases listed

end Calls

/-- After any calls, whatever fails among them, WChaRteMax holds the least of the limits in force,
at most the rating, as the register resolves it; and no call is refused for not fitting. -/
theorem charge_holds {σ : Type} (c : Client σ) (s : σ) {sf rating : ℚ}
    (declares : Declares (c.registers s) sf rating) (calls : List ChargeCall) :
    let made := makeCalls c.bus s calls
    let rate := chargeRate rating (inForce made.2)
    ((∃ call, (call, .ok ()) ∈ made.2) →
      c.registers made.1.bus .wChaRteMax = some (c.encode sf rate * powerOfTen sf) ∧
        ∀ raw : Nat, rate = raw * powerOfTen sf →
          c.registers made.1.bus .wChaRteMax = some rate) ∧
      ∀ ended ∈ made.2, ended.2 ≠ .error .value := by
  intro made rate
  have charged : Charged c (c.registers s) sf rating made :=
    (Charged.fresh c s declares).makeCalls c declares calls
  refine ⟨fun succeeded => ⟨charged.held succeeded, fun raw resolved => ?_⟩, charged.fits⟩
  obtain ⟨top, small, encoded⟩ := declares.encoded
  have positive : 0 < powerOfTen sf := zpow_pos (by norm_num) _
  have below : (raw : ℚ) ≤ top := by
    refine le_of_mul_le_mul_right ?_ positive
    rw [← resolved, ← encoded]
    exact chargeRate_le rating _
  have fits : raw ≤ 65535 := le_trans (by exact_mod_cast below) small
  have found := charged.held succeeded
  rw [show chargeRate rating (inForce made.2) = _ from resolved, c.exact sf raw fits] at found
  rw [found, resolved, Int.cast_natCast]

/-! ### A device with a coarse register -/

/-- The bus of a device that fails some of its requests, by their number. -/
def flakyBus (fails : Nat → Bool) : Bus (Nat × Values) where
  present _ := true
  capacity _ := 0
  readModel _ s := (if fails s.1 then .error (.modbus false) else .ok s.2, s.1 + 1, s.2)
  readPoint p s := (if fails s.1 then .error (.modbus false) else .ok (s.2 p), s.1 + 1, s.2)
  write changes s :=
    if fails s.1 then (.error (.modbus false), s.1 + 1, s.2)
    else (.ok (), s.1 + 1, s.2.setAll (changes.map fun change =>
      (change.1, roundHalfEven (change.2 / powerOfTen ((s.2 .wSf).getD 0)) *
        powerOfTen ((s.2 .wSf).getD 0))))
  reconnect s := (if fails s.1 then .error (.modbus false) else .ok (), s.1 + 1, s.2)

def flakyClient (fails : Nat → Bool) : Client (Nat × Values) where
  bus := flakyBus fails
  registers := Prod.snd
  encode sf watts := roundHalfEven (watts / powerOfTen sf)
  reads mid s := by
    by_cases failed : fails s.1 = true <;> simp [flakyBus, Raising.Ends, failed]
  reconnects s := by
    by_cases failed : fails s.1 = true <;> simp [flakyBus, Raising.Ends, failed]
  writes watts s sf scaled := by
    by_cases failed : fails s.1 = true
    · simp [flakyBus, Raising.Ends, failed]
    · simp [flakyBus, Raising.Ends, failed, scaled, Values.setAll]
  exact sf raw _ := by
    have positive : powerOfTen sf ≠ 0 := (zpow_pos (by norm_num) _).ne'
    rw [mul_div_cancel_right₀ _ positive]
    exact roundHalfEven_intCast raw

/-- It counts in tens of watts. -/
def coarse : Values
  | .wSf => some 1
  | .wChaRteMaxRtg => some 5000
  | .wChaRteMax => some 5000
  | _ => none

theorem declares_coarse : Declares coarse 1 5000 where
  supported := by decide
  rated := rfl
  scaled := rfl
  encoded := ⟨500, by norm_num, by norm_num [powerOfTen]⟩

/-- The first write fails. -/
theorem charge_holds_coarse :
    let c := flakyClient (· = 1)
    let made := makeCalls c.bus (0, coarse)
      [.enable .load 3000, .enable .abs 2000, .enable .load 4000, .withdraw .abs none]
    let rate := chargeRate 5000 (inForce made.2)
    ((∃ call, (call, .ok ()) ∈ made.2) →
      c.registers made.1.bus .wChaRteMax = some (c.encode 1 rate * powerOfTen 1) ∧
        ∀ raw : Nat, rate = raw * powerOfTen 1 →
          c.registers made.1.bus .wChaRteMax = some rate) ∧
      ∀ ended ∈ made.2, ended.2 ≠ .error .value :=
  charge_holds (flakyClient (· = 1)) (0, coarse) declares_coarse _

/-- A limit of 14 W is written as one of 10. -/
theorem coarse_limit :
    let c := flakyClient fun _ => false
    let made := makeCalls c.bus (0, coarse) [.enable .load 14]
    made.2.map (fun ended => (ended.1.limit, ended.2.toOption)) = [(some 14, some ())] ∧
      c.registers made.1.bus .wChaRteMax = some 10 ∧ chargeRate 5000 (inForce made.2) = 14 := by
  decide +kernel

end Py20305.SunSpec
