import Py20305.Telemetry.Manager

/-!
A ReadingType the server holds does not change.

A plan extends what it is made from. So the MUP POSTs extend one another as long as each
is made from the one before, which the device's state and the checkpoint remember
(`Remembered`).
-/

namespace Py20305.Telemetry

/-! ### Registrations -/

/-- Every reading of the first registration is in the second, as it is. -/
def Within (a b : Registered) : Prop := ∀ m r, a.get? m = some r → b.get? m = some r

theorem Within.refl (a : Registered) : Within a a := fun _ _ found => found

theorem Within.trans {a b c : Registered} (first : Within a b) (second : Within b c) :
    Within a c := fun m r found => second m r (first m r found)

theorem Within.empty (b : Registered) : Within Dict.empty b := by
  intro m r found
  rw [Dict.get?_empty] at found
  cases found

theorem Within.of_isEmpty {a b : Registered} (empty : a.keys.isEmpty = true) : Within a b := by
  intro m r found
  have listed : m ∈ a.keys := (Dict.mem_keys_iff _ _).mpr ⟨r, found⟩
  rw [List.isEmpty_iff.mp empty] at listed
  cases listed

/-- Registered readings are under their mRIDs, and a phase that is not applicable is left
out. -/
def Keyed (registered : Registered) : Prop :=
  ∀ m r, registered.get? m = some r → r.mrid = m ∧ r.readingType.phase ≠ some 0

theorem Keyed.empty : Keyed Dict.empty := by
  intro m r found
  rw [Dict.get?_empty] at found
  cases found

theorem addReading_within (s : Scheme) (plan : Registered) (p : Posted) :
    Within plan (s.addReading plan p) := by
  intro m r found
  unfold Scheme.addReading
  split
  · exact found
  · rename_i new
    have other : m ≠ p.mrid := by
      rintro rfl
      rw [found] at new
      exact new rfl
    rw [Dict.get?_set_ne _ _ other]
    exact found

theorem Keyed.addReading {plan : Registered} (keyed : Keyed plan) (s : Scheme) (p : Posted) :
    Keyed (s.addReading plan p) := by
  unfold Scheme.addReading
  split
  · exact keyed
  · intro m r found
    rw [Dict.get?_set] at found
    split at found
    · rename_i mine
      cases found
      refine ⟨mine.symm, ?_⟩
      simp only [Scheme.newReading, readingType]
      split
      · simp
      · rename_i some_phase
        simpa using some_phase
    · exact keyed m r found

/-- A plan keeps what is registered. -/
theorem planRegistration_within (s : Scheme) (readings : List Reading) (registered : Registered)
    (declared : Option (List ReadingIdentity)) :
    Within registered (s.planRegistration readings registered declared) := by
  intro m r found
  rw [Scheme.planRegistration, Dict.get?_sortedBy]
  generalize s.postedReadings (s.candidates readings declared) registered declared = posted
  induction posted generalizing registered with
  | nil => exact found
  | cons p rest ih => exact ih _ (addReading_within s registered p m r found)

theorem Keyed.planRegistration {registered : Registered} (keyed : Keyed registered) (s : Scheme)
    (readings : List Reading) (declared : Option (List ReadingIdentity)) :
    Keyed (s.planRegistration readings registered declared) := by
  intro m r found
  rw [Scheme.planRegistration, Dict.get?_sortedBy] at found
  revert found
  generalize s.postedReadings (s.candidates readings declared) registered declared = posted
  intro found
  induction posted generalizing registered with
  | nil => exact keyed m r found
  | cons p rest ih => exact ih (keyed.addReading s p) found

/-! ### Checkpoints -/

theorem readingFromDict_toDict {r : RegisteredReading} (phase : r.readingType.phase ≠ some 0) :
    readingFromDict (readingToDict r) = some r := by
  have kept : r.readingType.phase.filter (· != 0) = r.readingType.phase := by
    cases found : r.readingType.phase with
    | none => rfl
    | some p =>
        rw [found] at phase
        simpa using phase
  simp only [readingFromDict, readingToDict, kept]

theorem readingFromDict_phase {data : ReadingData} {r : RegisteredReading}
    (parsed : readingFromDict data = some r) : r.readingType.phase ≠ some 0 := by
  unfold readingFromDict at parsed
  split at parsed
  · cases parsed
    intro zero
    obtain ⟨_, kept⟩ := Option.filter_eq_some_iff.mp zero
    cases kept
  · cases parsed

theorem keyed_parseDevice (data : List ReadingData) : Keyed (parseDevice data) := by
  have each : ∀ r ∈ data.filterMap readingFromDict, r.readingType.phase ≠ some 0 := by
    intro r listed
    obtain ⟨d, _, parsed⟩ := List.mem_filterMap.mp listed
    exact readingFromDict_phase parsed
  have fold : ∀ (rs : List RegisteredReading) (registered : Registered), Keyed registered →
      (∀ r ∈ rs, r.readingType.phase ≠ some 0) →
        Keyed (rs.foldl (fun registered r => registered.set r.mrid r) registered) := by
    intro rs
    induction rs with
    | nil => exact fun _ keyed _ => keyed
    | cons r rest ih =>
        intro registered keyed phases
        apply ih
        · intro m r' found
          rw [Dict.get?_set] at found
          split at found
          · rename_i mine
            cases found
            exact ⟨mine.symm, phases r List.mem_cons_self⟩
          · exact keyed m r' found
        · exact fun r' listed => phases r' (List.mem_cons_of_mem _ listed)
  exact fold _ _ Keyed.empty each

theorem get?_foldl_set (rs : List RegisteredReading) (registered : Registered) {m : Mrid}
    (absent : m ∉ rs.map RegisteredReading.mrid) :
    (rs.foldl (fun registered r => registered.set r.mrid r) registered).get? m =
      registered.get? m := by
  induction rs generalizing registered with
  | nil => rfl
  | cons r rest ih =>
      simp only [List.map_cons, List.mem_cons, not_or] at absent
      rw [List.foldl_cons, ih _ absent.2, Dict.get?_set_ne _ _ absent.1]

theorem get?_foldl_set_of_mem {rs : List RegisteredReading}
    (distinct : (rs.map RegisteredReading.mrid).Nodup) (registered : Registered)
    {r : RegisteredReading} (listed : r ∈ rs) :
    (rs.foldl (fun registered r => registered.set r.mrid r) registered).get? r.mrid = some r := by
  induction rs generalizing registered with
  | nil => cases listed
  | cons first rest ih =>
      rw [List.map_cons, List.nodup_cons] at distinct
      rcases List.mem_cons.mp listed with rfl | later
      · rw [List.foldl_cons, get?_foldl_set _ _ distinct.1, Dict.get?_set_self]
      · exact ih distinct.2 _ later

/-- What a checkpoint holds is restored as it was. -/
theorem within_parseDevice {registered : Registered} (keyed : Keyed registered) :
    Within registered (parseDevice (registered.values.map readingToDict)) := by
  have each : ∀ e ∈ registered.entries, e.2.mrid = e.1 ∧ e.2.readingType.phase ≠ some 0 :=
    fun e listed => keyed e.1 e.2 ((Dict.mem_entries_iff _ _ _).mp listed)
  have parsed : (registered.values.map readingToDict).filterMap readingFromDict =
      registered.values := by
    rw [List.filterMap_map]
    have all_parse : ∀ r ∈ registered.values, (readingFromDict ∘ readingToDict) r = some r := by
      intro r listed
      obtain ⟨e, in_entries, rfl⟩ := List.mem_map.mp listed
      exact readingFromDict_toDict (each e in_entries).2
    rw [List.filterMap_congr all_parse, List.filterMap_some]
  have mrids : registered.values.map RegisteredReading.mrid = registered.keys := by
    rw [Dict.values, Dict.keys, List.map_map]
    exact List.map_congr_left fun e listed => (each e listed).1
  intro m r found
  obtain ⟨mine, _⟩ := keyed m r found
  rw [parseDevice, parsed, ← mine]
  apply get?_foldl_set_of_mem
  · rw [mrids]
    exact registered.nodup
  · exact (Dict.mem_values_iff _ _).mpr ⟨m, found⟩

/-! ### Steps -/

/-- What the device registers next, at least. -/
def World.current (w : World) : Registered :=
  match w.device with
  | some d => d.registered
  | none => w.restored

/-- The server accepted the MUP POST the cycle waits for. -/
def World.mupAccepted (w : World) : Bool :=
  match w.cycle with
  | some (.registering _ _ accepted) => accepted
  | _ => false

/-- A MUP POST under way, made from what the device has registered. -/
structure Registering (w : World) (plan : Registered) (accepted : Bool) : Prop where
  keyed : Keyed plan
  extends_current : Within w.current plan
  before : ∃ before, w.mups = before ++ (if accepted then [plan] else []) ∧
    ∀ p ∈ before, Within p w.current

/-- What holds of the manager over its restarts. -/
structure Remembered (w : World) : Prop where
  growing : w.mups.Pairwise Within
  keyed : Keyed w.current
  keyed_restored : Keyed w.restored
  restored : Within w.restored w.current
  checkpoint : Within w.current (parseDevice w.checkpoint)
  known : w.mupAccepted = false → ∀ p ∈ w.mups, Within p w.current
  registering : ∀ plan declared accepted, w.cycle = some (.registering plan declared accepted) →
    Registering w plan accepted
  unknown : w.device = none → w.cycle = none

/-- No MUP POST is under way. -/
def World.settled (w : World) : Bool :=
  match w.cycle with
  | some (.registering _ _ _) => false
  | _ => true

theorem World.mupAccepted_of_settled {w : World} (settled : w.settled = true) :
    w.mupAccepted = false := by
  unfold World.settled at settled
  unfold World.mupAccepted
  split
  · rename_i waiting
    rw [waiting] at settled
    cases settled
  · rfl

/-- A step that posts no MUP keeps what is remembered, where it keeps the registered
readings. -/
theorem Remembered.of_settled {w w' : World} (remembered : Remembered w)
    (accepted : w.mupAccepted = false) (mups : w'.mups = w.mups)
    (restored : w'.restored = w.restored) (checkpoint : w'.checkpoint = w.checkpoint)
    {d : DeviceTelemetryState} (device : w'.device = some d) (same : d.registered = w.current)
    (settled : w'.settled = true) : Remembered w' := by
  have current : w'.current = w.current := by
    rw [World.current, device]
    exact same
  constructor
  · rw [mups]
    exact remembered.growing
  · rw [current]
    exact remembered.keyed
  · rw [restored]
    exact remembered.keyed_restored
  · rw [current, restored]
    exact remembered.restored
  · rw [current, checkpoint]
    exact remembered.checkpoint
  · intro _
    rw [current, mups]
    exact remembered.known accepted
  · intro plan declared accepted waiting
    rw [World.settled, waiting] at settled
    cases settled
  · intro absent
    rw [device] at absent
    cases absent

theorem current_eq {w : World} {d : DeviceTelemetryState} (device : w.device = some d) :
    d.registered = w.current := by
  rw [World.current, device]

/-- What a checkpoint holds is at least what the device has registered. -/
theorem Remembered.checkpointed {w : World} (remembered : Remembered w) :
    Within w.current (parseDevice (toCheckpoint w.device w.restored)) := by
  unfold toCheckpoint
  cases device : w.device with
  | none =>
      have current : w.current = w.restored := by
        rw [World.current, device]
      rw [current]
      exact within_parseDevice remembered.keyed_restored
  | some d =>
      have current := current_eq device
      simp only
      split
      · rename_i empty
        rw [← current]
        exact Within.of_isEmpty empty
      · rw [current]
        exact within_parseDevice remembered.keyed

/-- What must not meet a MUP POST that the server accepted, or what it registered: a
cancelled or failed cycle, a restart, and a device whose MUP is to be posted again and
which has more registered than what was restored. -/
def mindful (w : World) : Step → Bool
  | .start _ _ =>
      !w.mupAccepted && w.device.all fun d =>
        d.mupPosted || d.registered.entries.all fun e => w.restored.get? e.1 = some e.2
  | .failed _ => !w.mupAccepted
  | .restart => !w.mupAccepted
  | _ => true

/-- `start_metering` keeps the registered readings. -/
theorem startMetering_current {w : World} (remembered : Remembered w)
    (kept : w.device.all fun d =>
      d.mupPosted || d.registered.entries.all fun e => w.restored.get? e.1 = some e.2)
    (role : DeviceRole) (href : Option Href) :
    Keyed (startMetering w.device w.restored role href).registered ∧
      Within w.restored (startMetering w.device w.restored role href).registered ∧
      Within w.current (startMetering w.device w.restored role href).registered ∧
      Within (startMetering w.device w.restored role href).registered w.current := by
  have restored_case (within : Within w.current w.restored) : Keyed w.restored ∧
      Within w.restored w.restored ∧ Within w.current w.restored ∧ Within w.restored w.current :=
    ⟨remembered.keyed_restored, Within.refl _, within, remembered.restored⟩
  unfold startMetering carriedOver
  cases device : w.device with
  | none =>
      have current : w.current = w.restored := by
        rw [World.current, device]
      exact restored_case (current ▸ Within.refl _)
  | some d =>
      have current := current_eq device
      rw [device, Option.all_some, Bool.or_eq_true] at kept
      simp only
      cases posted : d.mupPosted with
      | true =>
          simp only [if_true]
          split
          · rename_i empty
            have empty : d.registered.keys.isEmpty = true := empty
            exact restored_case (current ▸ Within.of_isEmpty empty)
          · change Keyed d.registered ∧ Within w.restored d.registered ∧
              Within w.current d.registered ∧ Within d.registered w.current
            rw [current]
            exact ⟨remembered.keyed, remembered.restored, Within.refl _, Within.refl _⟩
      | false =>
          have all_restored : Within w.current w.restored := by
            intro m r found
            rw [← current] at found
            have each := List.all_eq_true.mp (kept.resolve_left (by simp [posted])) (m, r)
              ((Dict.mem_entries_iff _ _ _).mpr found)
            simpa using each
          exact restored_case all_restored

/-- The cycle posts a MUP: it extends what is registered. -/
theorem Remembered.register {w : World} {d : DeviceTelemetryState} (remembered : Remembered w)
    (settled : w.settled = true) (device : w.device = some d) (s : Scheme)
    (readings : List Reading) (made declared : Option (List ReadingIdentity)) :
    Remembered { w with
      cycle :=
        some (.registering (s.planRegistration readings d.registered made) declared false) } := by
  have known := remembered.known (World.mupAccepted_of_settled settled)
  have current := current_eq device
  constructor
  · exact remembered.growing
  · exact remembered.keyed
  · exact remembered.keyed_restored
  · exact remembered.restored
  · exact remembered.checkpoint
  · exact fun _ => known
  · rintro plan declared' accepted ⟨⟩
    constructor
    · rw [current]
      exact remembered.keyed.planRegistration s readings made
    · rw [current]
      exact planRegistration_within s readings _ made
    · exact ⟨w.mups, by simp, known⟩
  · intro absent
    rw [device] at absent
    cases absent

/-- The server accepts the MUP POST, or a LogEvent. -/
theorem Remembered.accept {w w' : World} (remembered : Remembered w)
    (accepted : w.accept = some w') : Remembered w' := by
  unfold World.accept at accepted
  split at accepted
  · rename_i plan declared waiting
    cases accepted
    obtain ⟨keyed, extended, before, mups, known⟩ := remembered.registering _ _ _ waiting
    simp only [Bool.false_eq_true, if_false, List.append_nil] at mups
    subst mups
    constructor
    · refine List.pairwise_append.mpr ⟨remembered.growing, List.pairwise_singleton _ _, ?_⟩
      intro p listed q last
      rw [List.mem_singleton.mp last]
      exact (known p listed).trans extended
    · exact remembered.keyed
    · exact remembered.keyed_restored
    · exact remembered.restored
    · exact remembered.checkpoint
    · rintro ⟨⟩
    · rintro plan' declared' accepted' ⟨⟩
      exact ⟨keyed, extended, w.mups, rfl, known⟩
    · intro absent
      rw [remembered.unknown absent] at waiting
      cases waiting
  · rename_i alarm bit rest event waiting
    cases accepted
    have settled : w.mupAccepted = false := by
      rw [World.mupAccepted, waiting]
    constructor
    · exact remembered.growing
    · exact remembered.keyed
    · exact remembered.keyed_restored
    · exact remembered.restored
    · exact remembered.checkpoint
    · exact fun _ => remembered.known settled
    · rintro plan declared accepted ⟨⟩
    · intro absent
      rw [remembered.unknown absent] at waiting
      cases waiting
  · cases accepted

theorem afterReadings_settled (w : World) (d : DeviceTelemetryState) :
    (w.afterReadings d).settled = true := by
  unfold World.afterReadings
  split <;> rfl

/-- The cycle goes on to its LogEvents. -/
theorem Remembered.afterReadings {w : World} {d : DeviceTelemetryState}
    (remembered : Remembered w) (accepted : w.mupAccepted = false)
    (same : d.registered = w.current) : Remembered (w.afterReadings d) := by
  refine remembered.of_settled (d := d) accepted ?_ ?_ ?_ ?_ same (afterReadings_settled w d) <;>
  · unfold World.afterReadings
    split <;> rfl

/-- Two registrations, one within the other, that have the same mRIDs are the same. -/
theorem Within.of_sameMrids {a b : Registered} (within : Within a b)
    (same : sameMrids b.keys a.keys = true) : Within b a := by
  intro m r found
  have listed : m ∈ b.keys := (Dict.mem_keys_iff _ _).mpr ⟨r, found⟩
  obtain ⟨all, _⟩ := Bool.and_eq_true_iff.mp same
  have there : m ∈ a.keys := by simpa using List.all_eq_true.mp all m listed
  obtain ⟨r', found'⟩ := (Dict.mem_keys_iff _ _).mp there
  have again := within m r' found'
  rw [found, Option.some.injEq] at again
  rw [found', again]

/-- A MUP POST returns: its plan is registered, and in the checkpoint. -/
theorem Remembered.mupPosted {w : World} {d : DeviceTelemetryState} {plan : Registered}
    {declared : Option (List ReadingIdentity)} (remembered : Remembered w)
    (device : w.device = some d) (waiting : w.cycle = some (.registering plan declared true)) :
    Remembered (w.mupPosted d plan declared) := by
  obtain ⟨keyed, extended, before, mups, known⟩ := remembered.registering _ _ _ waiting
  rw [if_pos rfl] at mups
  have current := current_eq device
  -- what holds once the plan is registered, whatever the cycle waits for next
  have posted : ∀ checkpoint cycle, Within plan (parseDevice checkpoint) →
      (∀ plan declared accepted, cycle ≠ some (.registering plan declared accepted)) →
      Remembered
        { w with
          device := some { d with
            mupPosted := true, registered := plan, registeredDeclaration := declared,
            rejectedRegistration := none }
          checkpoint := checkpoint
          cycle := cycle } := by
    intro checkpoint cycle stored idle
    constructor
    · exact remembered.growing
    · exact keyed
    · exact remembered.keyed_restored
    · exact remembered.restored.trans extended
    · exact stored
    · intro _ p listed
      change p ∈ w.mups at listed
      rw [mups, List.mem_append, List.mem_singleton] at listed
      rcases listed with old | rfl
      · exact (known p old).trans extended
      · exact Within.refl _
    · intro plan' declared' accepted registering
      exact absurd registering (idle _ _ _)
    · rintro ⟨⟩
  have stored : ∀ d' : DeviceTelemetryState, d'.registered = plan → Within plan (parseDevice
      (if sameMrids plan.keys d.registered.keys then w.checkpoint
        else toCheckpoint (some d') w.restored)) := by
    rintro d' rfl
    split
    · rename_i same
      rw [current] at same
      exact (extended.of_sameMrids same).trans remembered.checkpoint
    · simp only [toCheckpoint]
      split
      · rename_i empty
        exact Within.of_isEmpty empty
      · exact within_parseDevice keyed
  unfold World.mupPosted World.afterReadings
  simp only
  split
  · exact posted _ _ (stored _ rfl) nofun
  · split
    · exact posted _ _ (stored _ rfl) nofun
    · exact posted _ _ (stored _ rfl) nofun

theorem readingsFailed_registered (d : DeviceTelemetryState) (status : Option Nat) :
    (readingsFailed d status).registered = d.registered := by
  unfold readingsFailed
  split
  · rfl
  · split <;> rfl

/-- What the cycle waits for fails, and the server accepted no MUP POST. -/
theorem Remembered.failed {w : World} {d : DeviceTelemetryState} {waiting : Waiting}
    (remembered : Remembered w) (device : w.device = some d) (free : w.mupAccepted = false)
    (status : Option Nat) : Remembered (w.failed d status waiting) := by
  have current := current_eq device
  cases waiting with
  | acquiring => exact remembered.of_settled free rfl rfl rfl device current rfl
  | registering plan declared accepted =>
      simp only [World.failed, World.mupFailed]
      split
      · exact remembered.of_settled free rfl rfl rfl rfl (by split <;> exact current) rfl
      · exact remembered.afterReadings free (by split <;> exact current)
  | posting =>
      exact remembered.afterReadings free ((readingsFailed_registered d status).trans current)
  | status => exact remembered.of_settled free rfl rfl rfl device current rfl
  | alarming alarm bit rest event accepted =>
      exact remembered.of_settled free rfl rfl rfl device current rfl

theorem Remembered.step {s : Scheme} {w w' : World} {l : Step} (remembered : Remembered w)
    (stepped : w.step s l = some w') (fine : mindful w l = true) : Remembered w' := by
  cases l with
  | start role href =>
      cases stepped
      simp only [mindful, Bool.and_eq_true, Bool.not_eq_true'] at fine
      obtain ⟨keyed, restored, kept, same⟩ := startMetering_current remembered fine.2 role href
      exact
        { growing := remembered.growing
          keyed := keyed
          keyed_restored := remembered.keyed_restored
          restored := restored
          checkpoint := same.trans remembered.checkpoint
          known := fun _ p listed => (remembered.known fine.1 p listed).trans kept
          registering := by rintro plan declared accepted ⟨⟩
          unknown := by rintro ⟨⟩ }
  | begin =>
      simp only [World.step] at stepped
      split at stepped
      · rename_i d device idle
        split at stepped
        · cases stepped
        · cases stepped
          exact remembered.of_settled (by rw [World.mupAccepted, idle]) rfl rfl rfl device
            (current_eq device) rfl
      · cases stepped
  | acquired readings declared =>
      simp only [World.step] at stepped
      split at stepped
      · rename_i d device waiting
        cases stepped
        have settled : w.settled = true := by
          rw [World.settled, waiting]
        unfold World.acquired
        split
        · split
          · exact remembered.register settled device s readings none none
          · exact remembered.of_settled (World.mupAccepted_of_settled settled) rfl rfl rfl device
              (current_eq device) rfl
        · exact remembered.register settled device s readings declared declared
      · cases stepped
  | accept => exact remembered.accept stepped
  | returned now =>
      simp only [World.step] at stepped
      split at stepped
      · rename_i d plan declared device waiting
        cases stepped
        exact remembered.mupPosted device waiting
      · rename_i d device waiting
        cases stepped
        exact remembered.afterReadings (by rw [World.mupAccepted, waiting]) (current_eq device)
      · rename_i d alarm bit rest event device waiting
        cases stepped
        have current := current_eq device
        refine remembered.of_settled (by rw [World.mupAccepted, waiting]) rfl rfl rfl rfl
          current ?_
        cases rest <;> rfl
      · cases stepped
  | statusRead alarm now =>
      simp only [World.step] at stepped
      split at stepped
      · rename_i d device waiting
        cases stepped
        have current := current_eq device
        refine remembered.of_settled (by rw [World.mupAccepted, waiting]) rfl rfl rfl rfl
          current ?_
        unfold World.statusRead
        cases alarmBitsToLogEvents d.lastAlarmStatus alarm <;> rfl
      · cases stepped
  | failed status =>
      simp only [World.step] at stepped
      simp only [mindful, Bool.not_eq_true'] at fine
      split at stepped
      · rename_i d waiting device cycle
        cases stepped
        exact remembered.failed device fine status
      · cases stepped
  | checkpoint =>
      cases stepped
      exact
        { growing := remembered.growing
          keyed := remembered.keyed
          keyed_restored := remembered.keyed_restored
          restored := remembered.restored
          checkpoint := remembered.checkpointed
          known := remembered.known
          registering := fun plan declared accepted waiting => by
            obtain ⟨keyed, extended, before⟩ := remembered.registering _ _ _ waiting
            exact ⟨keyed, extended, before⟩
          unknown := remembered.unknown }
  | restart =>
      cases stepped
      simp only [mindful, Bool.not_eq_true'] at fine
      exact
        { growing := remembered.growing
          keyed := keyed_parseDevice _
          keyed_restored := keyed_parseDevice _
          restored := Within.refl _
          checkpoint := Within.refl _
          known := fun _ p listed => (remembered.known fine p listed).trans remembered.checkpoint
          registering := by rintro plan declared accepted ⟨⟩
          unknown := fun _ => rfl }

theorem Remembered.fresh : Remembered World.fresh where
  growing := List.Pairwise.nil
  keyed := Keyed.empty
  keyed_restored := Keyed.empty
  restored := Within.refl _
  checkpoint := Within.empty _
  known _ := nofun
  registering := by rintro plan declared accepted ⟨⟩
  unknown _ := rfl

/-! ### Runs -/

/-- A MUP POST has every mRID of an earlier one, with the ReadingType it had there. -/
def Repeats (earlier later : Registered) : Prop :=
  ∀ m r, earlier.get? m = some r →
    ∃ r', later.get? m = some r' ∧ r'.readingType = r.readingType

/-- In every run of the manager, over its restarts, in which no MUP POST that the server
accepted is cancelled, fails or is lost in a restart, and `start_metering` finds the MUP
posted unless nothing was registered beyond what was restored: each MUP POST repeats the
earlier ones. -/
theorem readingTypes_never_change (s : Scheme) {w : World}
    (run : (manager s).Run (fun w l _ => mindful w l = true) World.fresh w) :
    w.mups.Pairwise Repeats := by
  have remembered : Remembered w :=
    run.keeps (fun l t u stepped fine remembered => remembered.step stepped fine) Remembered.fresh
  exact remembered.growing.imp fun within m r found => ⟨r, within m r found, rfl⟩

/-- The ReadingType of one mRID in two MUP POSTs. -/
theorem Repeats.readingType {earlier later : Registered} (repeats : Repeats earlier later)
    (m : Mrid) : ((earlier.get? m).map RegisteredReading.readingType).isSome →
      (later.get? m).map RegisteredReading.readingType =
        (earlier.get? m).map RegisteredReading.readingType := by
  intro known
  cases found : earlier.get? m with
  | none =>
      rw [found] at known
      cases known
  | some r =>
      obtain ⟨r', found', same⟩ := repeats m r found
      rw [found', Option.map_some, Option.map_some, same]

/-- Real power, so many watts. -/
def watts (value : ℚ) : Reading := { uom := 38, value := some value }

/-- The slot of real power. -/
def wattsMrid : Mrid := createMrid someScheme.lfdi 1

/-- The flow direction each MUP POST gives real power. -/
def wattsFlows (w : World) : List (Option (Option Int)) :=
  w.mups.map fun p =>
    ((p.get? wattsMrid).map RegisteredReading.readingType).map ReadingType.flowDirection

/-- A battery registers while it discharges, and again while it charges after a restart. -/
def acrossRestart : List Step :=
  registering [watts 500] none ++ [.restart] ++ registering [watts (-500)] none

theorem readingTypes_never_change_restarted : ∃ w,
    (manager someScheme).Run (fun w l _ => mindful w l = true) World.fresh w ∧
      w.mups.length = 2 ∧ w.mups.Pairwise Repeats := by
  have posted : ((manager someScheme).execMeeting (fun w l _ => mindful w l = true) World.fresh
      acrossRestart).map (fun w => (World.mups w).length) = some 2 := by decide +kernel
  obtain ⟨w, executed, two⟩ := Option.map_eq_some_iff.mp posted
  have run := Machine.run_of_meeting _ executed
  exact ⟨w, run, two, readingTypes_never_change someScheme run⟩

/-- The server forgets the MUP, and `start_metering` is called before it is posted again,
while the battery charges. -/
def forgottenThenStarted : List Step :=
  registering [watts 500] none ++ [.begin, .acquired [watts 500] none, .failed (some 404)] ++
    registering [watts (-500)] none

/-- Real power is registered forward, and then in reverse. -/
theorem flow_direction_changes :
    ¬ ∀ w, (manager someScheme).Run Machine.Free World.fresh w → w.mups.Pairwise Repeats := by
  intro always
  have flows : ((manager someScheme).exec World.fresh forgottenThenStarted).map wattsFlows =
      some [some (some 1), some (some 19)] := by decide +kernel
  obtain ⟨w, executed, changed⟩ := Option.map_eq_some_iff.mp flows
  have repeated : (wattsFlows w).Pairwise fun earlier later =>
      earlier.isSome → later = earlier := by
    unfold wattsFlows
    rw [List.pairwise_map]
    refine (always w (Machine.run_of_exec _ executed)).imp fun {p q} repeats known => ?_
    have same := repeats.readingType wattsMrid (by simpa using known)
    exact congrArg (Option.map ReadingType.flowDirection) same
  rw [changed] at repeated
  exact absurd repeated (by decide)

end Py20305.Telemetry
