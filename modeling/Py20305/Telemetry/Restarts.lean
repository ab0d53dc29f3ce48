import Py20305.Lib.Machine
import Py20305.Telemetry.Checkpoint

/-!
Restarts of the telemetry manager.

A session starts and stops devices, posts their MUPs and restores checkpoints. What a device posts
is planned before the POST and recorded after it. A checkpoint that is restored in between is lost
where the plan is empty: the device has no registrations then, and the checkpoint keeps those that
were restored (`restored_left`). In every other session the checkpoints go round
(`settled_of_run`).

Left out: what a failed POST records, which no checkpoint has.
-/

namespace Py20305.Telemetry

open TelemetryManager
open Security (isHex)

/-! ### Sessions -/

/-- A manager, and the plans of the MUP POSTs in flight. -/
structure Session where
  manager : TelemetryManager
  posting : Dict Lfdi (Registered × Option (List ReadingIdentity))

inductive Act where
  | start (lfdi : Lfdi) (role : DeviceRole) (logEventListHref : Option Href)
  | stop (lfdi : Lfdi)
  /-- A MUP POST goes out. -/
  | post (lfdi : Lfdi) (readings : List Reading) (declared : Option (List ReadingIdentity))
  /-- It returns. -/
  | returned (lfdi : Lfdi)
  | failed (lfdi : Lfdi)
  /-- The server does not know the MUP any more. -/
  | lost (lfdi : Lfdi)
  | restore (data : Json)

def Session.fresh : Session := ⟨TelemetryManager.fresh, Dict.empty⟩

/-- `_post_mup`, from where its POST returned. -/
def DeviceTelemetryState.posted (d : DeviceTelemetryState) (plan : Registered)
    (declared : Option (List ReadingIdentity)) : DeviceTelemetryState :=
  { d with
    mupPosted := true
    registered := plan
    registeredDeclaration := declared
    rejectedRegistration := none }

def Session.step (s : Settings) (f : Session) : Act → Option Session
  | .start lfdi role href =>
      some ⟨f.manager.startMetering s lfdi role href, f.posting.erase (s.lower lfdi)⟩
  | .stop lfdi =>
      some ⟨{ f.manager with devices := f.manager.devices.erase (s.lower lfdi) },
        f.posting.erase (s.lower lfdi)⟩
  | .post lfdi readings declared =>
      (f.manager.devices.get? lfdi).map fun d =>
        let plan := (s.scheme lfdi).planRegistration readings d.registered declared
        { f with posting := f.posting.set lfdi (plan, declared) }
  | .returned lfdi =>
      (f.posting.get? lfdi).map fun plan =>
        ⟨{ f.manager with
            devices := f.manager.devices.modify lfdi fun d => d.posted plan.1 plan.2 },
          f.posting.erase lfdi⟩
  | .failed lfdi => some { f with posting := f.posting.erase lfdi }
  | .lost lfdi =>
      some { f with
        manager := { f.manager with
          devices := f.manager.devices.modify lfdi fun d => { d with mupPosted := false } } }
  | .restore data =>
      match f.manager.restoreFromCheckpoint s data with
      | .ok result => some { f with manager := result.1 }
      | .error _ => none

/-- The sessions of a process. -/
@[reducible] def session (s : Settings) : Machine where
  State := Session
  Label := Act
  step l f := f.step s l

/-- Devices are started by a LFDI, and what is restored was written by a manager with the same
settings. -/
def Fair (s : Settings) : Act → Prop
  | .start lfdi _ _ => IsLfdi lfdi
  | .restore data => ∃ other : TelemetryManager, other.Sound s ∧ other.toCheckpoint s = .ok data
  | _ => True

/-- Moreover, no checkpoint is restored while a MUP POST is in flight. -/
def Quiet (s : Settings) (f : Session) (l : Act) (_ : Session) : Prop :=
  Fair s l ∧ ∀ data, l = .restore data → f.posting.keys = []

/-! ### What a session registers -/

section Steps

variable {s : Settings} {f g : Session}

theorem isHex_toLower {c : Char} (hex : isHex c = true) :
    isHex c.toLower = true ∧ c.toLower.toLower = c.toLower := by
  have each : ∀ n : Fin 128, isHex (Char.ofNat n) = true →
      isHex (Char.ofNat n).toLower = true ∧
        (Char.ofNat n).toLower.toLower = (Char.ofNat n).toLower := by
    decide
  have found := each ⟨c.toNat, isHex_ascii hex⟩
  rw [Char.ofNat_toNat] at found
  exact found hex

theorem isKey_toLower {lfdi : Lfdi} (valid : IsLfdi lfdi) : IsKey lfdi.toLower := by
  refine ⟨⟨?_, ?_⟩, ?_⟩
  · rw [toList_toLower, List.length_map, valid.length]
  · rw [toList_toLower]
    intro c listed
    obtain ⟨c, within, rfl⟩ := List.mem_map.mp listed
    exact (isHex_toLower (valid.hex c within)).1
  · rw [← String.toList_inj, toList_toLower, toList_toLower, List.map_map]
    exact List.map_congr_left fun c within => (isHex_toLower (valid.hex c within)).2

/-- `start_metering` keeps the registrations of a MUP that is posted, and takes those restored
otherwise. -/
theorem startMetering_registered (existing : Option DeviceTelemetryState) (restored : Registered)
    (role : DeviceRole) (href : Option Href) :
    (∃ d, existing = some d ∧ d.registered.keys.isEmpty = false ∧
        (Telemetry.startMetering existing restored role href).registered = d.registered) ∨
      (Telemetry.startMetering existing restored role href).registered = restored := by
  unfold Telemetry.startMetering
  dsimp only
  split
  · exact .inr rfl
  · rename_i own
    unfold carriedOver at own ⊢
    cases existing with
    | none => exact absurd rfl own
    | some d =>
        dsimp only at own ⊢
        split at own
        · rename_i posted
          rw [if_pos posted]
          exact .inl ⟨d, rfl, by simpa using own, rfl⟩
        · exact absurd rfl own

/-- Whatever is registered, restored or about to be was planned. -/
structure Session.Sound (s : Settings) (f : Session) : Prop where
  manager : f.manager.Sound s
  posting : ∀ lfdi plan, f.posting.get? lfdi = some plan → IsKey lfdi ∧ Planned s lfdi plan.1

theorem Session.Sound.fresh : Session.fresh.Sound s := by
  refine ⟨⟨fun lfdi d found => ?_, fun lfdi registered found => ?_⟩, fun lfdi plan found => ?_⟩
  · cases found
  · cases found
  · cases found

/-- The registrations of a device are those of a MUP, or those restored. -/
theorem TelemetryManager.Sound.startMetering {m : TelemetryManager} (sound : m.Sound s)
    {lfdi : Lfdi} (valid : IsLfdi lfdi) (role : DeviceRole) (href : Option Href) :
    (m.startMetering s lfdi role href).Sound s := by
  have isKey : IsKey (s.lower lfdi) := s.lower_lfdi valid ▸ isKey_toLower valid
  refine ⟨fun other d found => ?_, sound.restored⟩
  rw [TelemetryManager.startMetering, Dict.get?_set] at found
  split at found
  · rename_i same
    cases found
    subst same
    refine ⟨isKey, ?_⟩
    rcases startMetering_registered (m.devices.get? (s.lower lfdi))
        (m.restored.getD (s.lower lfdi) Dict.empty) role href with ⟨d, device, -, mine⟩ | mine
    · exact mine ▸ (sound.devices _ d device).2
    · rw [mine, Dict.getD]
      cases restored : m.restored.get? (s.lower lfdi) with
      | none => exact .nothing
      | some registered => exact (sound.restored _ registered restored).2
  · exact sound.devices other d found

theorem TelemetryManager.Sound.restoreDevice {m : TelemetryManager} (sound : m.Sound s)
    {lfdi : Lfdi} {registered : Registered} (isKey : IsKey lfdi)
    (planned : Planned s lfdi registered) : (m.restoreDevice lfdi registered).Sound s := by
  constructor
  · intro other d found
    rw [TelemetryManager.restoreDevice, Dict.get?_modify] at found
    split at found
    · rename_i same
      subst same
      obtain ⟨old, device, rfl⟩ := Option.map_eq_some_iff.mp found
      refine ⟨isKey, ?_⟩
      split
      · exact planned
      · exact (sound.devices _ old device).2
    · exact sound.devices other d found
  · intro other registered' found
    rw [TelemetryManager.restoreDevice, Dict.get?_set] at found
    split at found
    · rename_i same
      cases found
      exact same ▸ ⟨isKey, planned⟩
    · exact sound.restored other registered' found

/-- The devices of a checkpoint are restored one after the other. -/
theorem restore_checkpoint (m : TelemetryManager) {other : TelemetryManager} {data : Json}
    (sound : other.Sound s) (written : other.toCheckpoint s = .ok data) :
    m.restoreFromCheckpoint s data =
      .ok (other.listed.foldl (fun m device => m.restoreDevice device.1 device.2) m,
        0 + other.listed.length) := by
  rw [toCheckpoint_eq s sound.readable, Except.ok.injEq] at written
  rw [← written, restoreFromCheckpoint_checkpointJson, restoreEntries_readable s sound.readable]

/-- What a fair restore does. -/
theorem restore_fair {m : TelemetryManager} {data : Json} {result : TelemetryManager × Nat}
    (fair : Fair s (.restore data)) (restored : m.restoreFromCheckpoint s data = .ok result) :
    ∃ devices : List (Lfdi × Registered),
      (∀ device ∈ devices, IsKey device.1 ∧ Planned s device.1 device.2 ∧
        device.2.keys.isEmpty = false) ∧
      result.1 = devices.foldl (fun m device => m.restoreDevice device.1 device.2) m := by
  obtain ⟨other, sound, written⟩ := fair
  rw [restore_checkpoint m sound written, Except.ok.injEq] at restored
  exact ⟨other.listed, sound.planned, by rw [← restored]⟩

theorem TelemetryManager.Sound.restoreAll {m : TelemetryManager} (sound : m.Sound s)
    {devices : List (Lfdi × Registered)}
    (planned : ∀ device ∈ devices, IsKey device.1 ∧ Planned s device.1 device.2 ∧
      device.2.keys.isEmpty = false) :
    (devices.foldl (fun m device => m.restoreDevice device.1 device.2) m).Sound s := by
  induction devices generalizing m with
  | nil => exact sound
  | cons device rest ih =>
      obtain ⟨isKey, mine, -⟩ := planned device List.mem_cons_self
      exact ih (sound.restoreDevice isKey mine)
        fun other listed => planned other (List.mem_cons_of_mem _ listed)

theorem Session.Sound.erase (sound : f.Sound s) (manager : g.manager.Sound s) {lfdi : Lfdi}
    (posting : g.posting = f.posting.erase lfdi) : g.Sound s := by
  refine ⟨manager, fun other plan found => ?_⟩
  rw [posting, Dict.get?_erase] at found
  split at found
  · cases found
  · exact sound.posting other plan found

/-- Every step of a fair session registers what was planned. -/
theorem Session.Sound.step (sound : f.Sound s) {l : Act} (fair : Fair s l)
    (stepped : f.step s l = some g) : g.Sound s := by
  cases l with
  | start lfdi role href =>
      cases stepped
      exact sound.erase (sound.manager.startMetering fair role href) rfl
  | stop lfdi =>
      cases stepped
      refine sound.erase ⟨fun other d found => ?_, sound.manager.restored⟩ rfl
      rw [Dict.get?_erase] at found
      split at found
      · cases found
      · exact sound.manager.devices other d found
  | post lfdi readings declared =>
      obtain ⟨d, device, rfl⟩ := Option.map_eq_some_iff.mp stepped
      obtain ⟨isKey, planned⟩ := sound.manager.devices lfdi d device
      refine ⟨sound.manager, fun other plan found => ?_⟩
      rw [Dict.get?_set] at found
      split at found
      · rename_i same
        cases found
        subst same
        exact ⟨isKey, planned.plan readings declared⟩
      · exact sound.posting other plan found
  | returned lfdi =>
      obtain ⟨plan, inFlight, rfl⟩ := Option.map_eq_some_iff.mp stepped
      obtain ⟨isKey, planned⟩ := sound.posting lfdi plan inFlight
      refine sound.erase ⟨fun other d found => ?_, sound.manager.restored⟩ rfl
      rw [Dict.get?_modify] at found
      split at found
      · rename_i same
        subst same
        obtain ⟨old, device, rfl⟩ := Option.map_eq_some_iff.mp found
        exact ⟨isKey, planned⟩
      · exact sound.manager.devices other d found
  | failed lfdi =>
      cases stepped
      exact sound.erase sound.manager rfl
  | lost lfdi =>
      cases stepped
      refine ⟨⟨fun other d found => ?_, sound.manager.restored⟩, sound.posting⟩
      rw [Dict.get?_modify] at found
      split at found
      · obtain ⟨old, device, rfl⟩ := Option.map_eq_some_iff.mp found
        exact sound.manager.devices other old device
      · exact sound.manager.devices other d found
  | restore data =>
      rw [Session.step] at stepped
      split at stepped
      · rename_i result restored
        cases stepped
        obtain ⟨devices, planned, same⟩ := restore_fair fair restored
        refine ⟨?_, sound.posting⟩
        rw [same]
        exact sound.manager.restoreAll planned
      · cases stepped

/-- The registrations of a fair session were planned. -/
theorem sound_of_run (run : (session s).Run (fun _ l _ => Fair s l) Session.fresh f) :
    f.Sound s :=
  run.keeps (P := Session.Sound s) (fun _ _ _ stepped fair sound => sound.step fair stepped)
    Session.Sound.fresh

/-! ### Quiet sessions -/

/-- A device without registrations has none restored for it, and a plan in flight is not empty
where the device has registrations. -/
structure Session.Settled (f : Session) : Prop where
  manager : f.manager.Settled
  posting : ∀ lfdi plan d, f.posting.get? lfdi = some plan → f.manager.devices.get? lfdi = some d →
    d.registered.keys.isEmpty = false → plan.1.keys.isEmpty = false

theorem Session.Settled.fresh : Session.fresh.Settled := by
  refine ⟨fun lfdi d registered found => ?_, fun lfdi plan d found => ?_⟩
  · cases found
  · cases found

theorem Within.isEmpty_eq_false {a b : Registered} (within : Within a b)
    (own : a.keys.isEmpty = false) : b.keys.isEmpty = false := by
  rw [List.isEmpty_eq_false_iff] at own ⊢
  obtain ⟨m, listed⟩ := List.exists_mem_of_ne_nil _ own
  obtain ⟨r, found⟩ := (Dict.mem_keys_iff a m).mp listed
  exact List.ne_nil_of_mem ((Dict.mem_keys_iff b m).mpr ⟨r, within m r found⟩)

theorem TelemetryManager.Settled.restoreDevice {m : TelemetryManager} (settled : m.Settled)
    {lfdi : Lfdi} {registered : Registered} (own : registered.keys.isEmpty = false) :
    (m.restoreDevice lfdi registered).Settled := by
  intro other d registered' device empty restored
  rw [TelemetryManager.restoreDevice, Dict.get?_modify] at device
  rw [TelemetryManager.restoreDevice, Dict.get?_set] at restored
  split at device
  · obtain ⟨old, -, rfl⟩ := Option.map_eq_some_iff.mp device
    split at empty
    · rw [own] at empty
      cases empty
    · rename_i has
      exact absurd empty has
  · rename_i different
    rw [if_neg different] at restored
    exact settled other d registered' device empty restored

theorem TelemetryManager.Settled.restoreAll {m : TelemetryManager} (settled : m.Settled)
    {devices : List (Lfdi × Registered)}
    (own : ∀ device ∈ devices, device.2.keys.isEmpty = false) :
    (devices.foldl (fun m device => m.restoreDevice device.1 device.2) m).Settled := by
  induction devices generalizing m with
  | nil => exact settled
  | cons device rest ih =>
      exact ih (settled.restoreDevice (own device List.mem_cons_self))
        fun other listed => own other (List.mem_cons_of_mem _ listed)

/-- Every step of a quiet session settles it. -/
theorem Session.Settled.step (settled : f.Settled) {l : Act} (quiet : Quiet s f l g)
    (stepped : f.step s l = some g) : g.Settled := by
  cases l with
  | start lfdi role href =>
      cases stepped
      constructor
      · intro other d registered device empty restored
        rw [TelemetryManager.startMetering, Dict.get?_set] at device
        split at device
        · rename_i same
          cases device
          subst same
          rcases startMetering_registered (f.manager.devices.get? (s.lower lfdi))
              (f.manager.restored.getD (s.lower lfdi) Dict.empty) role href with
            ⟨d, -, own, mine⟩ | mine
          · rw [mine, own] at empty
            cases empty
          · rw [mine, Dict.getD, show f.manager.restored.get? (s.lower lfdi) = some registered
              from restored] at empty
            exact empty
        · exact settled.manager other d registered device empty restored
      · intro other plan d inFlight device own
        rw [Dict.get?_erase] at inFlight
        split at inFlight
        · cases inFlight
        · rename_i different
          rw [TelemetryManager.startMetering, Dict.get?_set_ne _ _ different] at device
          exact settled.posting other plan d inFlight device own
  | stop lfdi =>
      cases stepped
      constructor
      · intro other d registered device empty restored
        rw [Dict.get?_erase] at device
        split at device
        · cases device
        · exact settled.manager other d registered device empty restored
      · intro other plan d inFlight device own
        rw [Dict.get?_erase] at inFlight device
        split at inFlight
        · cases inFlight
        · rename_i different
          rw [if_neg different] at device
          exact settled.posting other plan d inFlight device own
  | post lfdi readings declared =>
      obtain ⟨old, known, rfl⟩ := Option.map_eq_some_iff.mp stepped
      refine ⟨settled.manager, fun other plan d inFlight device own => ?_⟩
      rw [Dict.get?_set] at inFlight
      split at inFlight
      · rename_i same
        cases inFlight
        subst same
        rw [show d = old from Option.some.inj (device.symm.trans known)] at own
        exact (planRegistration_within _ readings old.registered declared).isEmpty_eq_false own
      · exact settled.posting other plan d inFlight device own
  | returned lfdi =>
      obtain ⟨plan, inFlight, rfl⟩ := Option.map_eq_some_iff.mp stepped
      constructor
      · intro other d registered device empty restored
        rw [Dict.get?_modify] at device
        split at device
        · rename_i same
          subst same
          obtain ⟨old, known, rfl⟩ := Option.map_eq_some_iff.mp device
          -- the plan keeps what the device has, so the device had nothing before
          refine settled.manager other old registered known ?_ restored
          by_contra own
          have full := settled.posting other plan old inFlight known (by simpa using own)
          rw [show plan.1.keys.isEmpty = true from empty] at full
          cases full
        · exact settled.manager other d registered device empty restored
      · intro other plan' d inFlight' device own
        rw [Dict.get?_erase] at inFlight'
        split at inFlight'
        · cases inFlight'
        · rename_i different
          rw [Dict.get?_modify, if_neg different] at device
          exact settled.posting other plan' d inFlight' device own
  | failed lfdi =>
      cases stepped
      refine ⟨settled.manager, fun other plan d inFlight device own => ?_⟩
      rw [Dict.get?_erase] at inFlight
      split at inFlight
      · cases inFlight
      · exact settled.posting other plan d inFlight device own
  | lost lfdi =>
      cases stepped
      have before {other : Lfdi} {d : DeviceTelemetryState}
          (device : (f.manager.devices.modify lfdi fun d => { d with mupPosted := false }).get?
            other = some d) :
          ∃ old, f.manager.devices.get? other = some old ∧ old.registered = d.registered := by
        rw [Dict.get?_modify] at device
        split at device
        · obtain ⟨old, known, rfl⟩ := Option.map_eq_some_iff.mp device
          exact ⟨old, known, rfl⟩
        · exact ⟨d, device, rfl⟩
      constructor
      · intro other d registered device empty restored
        obtain ⟨old, known, same⟩ := before device
        exact settled.manager other old registered known (same ▸ empty) restored
      · intro other plan d inFlight device own
        obtain ⟨old, known, same⟩ := before device
        exact settled.posting other plan old inFlight known (same ▸ own)
  | restore data =>
      rw [Session.step] at stepped
      split at stepped
      · rename_i result restored
        cases stepped
        obtain ⟨devices, planned, same⟩ := restore_fair quiet.1 restored
        refine ⟨?_, fun other plan d inFlight => ?_⟩
        · rw [same]
          exact settled.manager.restoreAll fun device listed => (planned device listed).2.2
        · have listed : other ∈ f.posting.keys := (Dict.mem_keys_iff _ _).mpr ⟨plan, inFlight⟩
          rw [quiet.2 data rfl] at listed
          cases listed
      · cases stepped

/-- A quiet session ends settled. -/
theorem settled_of_run (run : (session s).Run (Quiet s) Session.fresh f) : f.Settled :=
  run.keeps (P := Session.Settled) (fun _ _ _ stepped quiet settled => settled.step quiet stepped)
    Session.Settled.fresh

end Steps

/-- Where no device without registrations has restored ones, a checkpoint is read back as it was
written, and arbitrary data raises nothing and leaves devices with registrations as they are. -/
theorem checkpoint_round_trip (s : Settings) (m : TelemetryManager) (sound : m.Sound s)
    (settled : m.Settled) :
    m.RoundTrips s ∧ ∀ (other : TelemetryManager) (data : Json),
      ∃ result, other.restoreFromCheckpoint s data = .ok result ∧
        ∀ lfdi d, other.devices.get? lfdi = some d → d.registered.keys.isEmpty = false →
          result.1.devices.get? lfdi = some d :=
  ⟨sound.roundTrips settled, fun other data => other.restoreFromCheckpoint_keeps s data⟩

/-! ### Restored in flight -/

/-- What is restored for a device. -/
def HasRestored (m : TelemetryManager) (lfdi : Lfdi) : Prop :=
  ∃ registered, m.restored.get? lfdi = some registered ∧ registered.keys.isEmpty = false

section InFlight

variable {s : Settings} {m : TelemetryManager} {lfdi : Lfdi}

theorem HasRestored.restoreDevice (has : HasRestored m lfdi) {other : Lfdi}
    {registered : Registered} (own : registered.keys.isEmpty = false) :
    HasRestored (m.restoreDevice other registered) lfdi := by
  unfold HasRestored TelemetryManager.restoreDevice
  rw [Dict.get?_set]
  split
  · exact ⟨registered, rfl, own⟩
  · exact has

theorem HasRestored.restoreAll (has : HasRestored m lfdi) {devices : List (Lfdi × Registered)}
    (own : ∀ device ∈ devices, device.2.keys.isEmpty = false) :
    HasRestored (devices.foldl (fun m device => m.restoreDevice device.1 device.2) m) lfdi := by
  induction devices generalizing m with
  | nil => exact has
  | cons device rest ih =>
      exact ih (has.restoreDevice (own device List.mem_cons_self))
        fun other listed => own other (List.mem_cons_of_mem _ listed)

theorem hasRestored_restoreAll {devices : List (Lfdi × Registered)} {registered : Registered}
    (listed : (lfdi, registered) ∈ devices)
    (own : ∀ device ∈ devices, device.2.keys.isEmpty = false) :
    HasRestored (devices.foldl (fun m device => m.restoreDevice device.1 device.2) m) lfdi := by
  induction devices generalizing m with
  | nil => cases listed
  | cons device rest ih =>
      have later : ∀ other ∈ rest, other.2.keys.isEmpty = false :=
        fun other within => own other (List.mem_cons_of_mem _ within)
      rcases List.mem_cons.mp listed with rfl | within
      · have first : HasRestored (m.restoreDevice lfdi registered) lfdi :=
          ⟨registered, Dict.get?_set_self _ _ _, own _ List.mem_cons_self⟩
        exact first.restoreAll later
      · exact ih within later

theorem keys_restoreAll (m : TelemetryManager) (devices : List (Lfdi × Registered)) :
    (devices.foldl (fun m device => m.restoreDevice device.1 device.2) m).devices.keys =
      m.devices.keys := by
  induction devices generalizing m with
  | nil => rfl
  | cons device rest ih =>
      rw [List.foldl_cons, ih, TelemetryManager.restoreDevice, Dict.keys_modify]

/-- A device with registrations is in the checkpoint. -/
theorem mem_listed {d : DeviceTelemetryState} (device : m.devices.get? lfdi = some d)
    (own : d.registered.keys.isEmpty = false) : (lfdi, d.registered) ∈ m.listed := by
  rw [← m.listedDict_entries, Dict.mem_entries_iff, get?_listedDict, get?_written, device]
  simp [own]

/-- A checkpoint that has a device is restored while the device's MUP POST is in flight, which has
no readings. When it returns, the device has no registrations, and those that were restored are
left. -/
theorem restored_left {f : Session} {other : TelemetryManager} {data : Json}
    {declared : Option (List ReadingIdentity)} {d : DeviceTelemetryState}
    (sound : other.Sound s) (written : other.toCheckpoint s = .ok data)
    (device : other.devices.get? lfdi = some d) (own : d.registered.keys.isEmpty = false)
    (known : lfdi ∈ f.manager.devices.keys)
    (inFlight : f.posting.get? lfdi = some (Dict.empty, declared)) :
    ∃ g, (session s).exec f [.restore data, .returned lfdi] = some g ∧ ¬ g.manager.Settled := by
  set restored := other.listed.foldl (fun m device => m.restoreDevice device.1 device.2) f.manager
    with all
  have left : HasRestored restored lfdi :=
    hasRestored_restoreAll (mem_listed device own) fun device listed =>
      (sound.planned device listed).2.2
  refine ⟨⟨{ restored with
      devices := restored.devices.modify lfdi fun d => d.posted Dict.empty declared },
    f.posting.erase lfdi⟩, ?_, fun settled => ?_⟩
  · simp only [Machine.exec, Session.step, restore_checkpoint f.manager sound written,
      Option.bind_some, inFlight, Option.map_some]
    rfl
  · obtain ⟨registered, found, some_registered⟩ := left
    rw [← keys_restoreAll f.manager other.listed, ← all] at known
    obtain ⟨old, has⟩ := (Dict.mem_keys_iff _ _).mp known
    have none := settled lfdi (old.posted Dict.empty declared) registered
      (by rw [Dict.get?_modify, if_pos rfl, has]; rfl) rfl found
    rw [some_registered] at none
    cases none

end InFlight

/-! ### Short sessions -/

/-- Digests of zeros, and lower case in ASCII. -/
def someSettings : Settings where
  profile := .default
  powerDirection := .default
  sha256 _ := ⟨List.replicate 64 0, List.length_replicate, fun d listed => by
    rw [List.eq_of_mem_replicate listed]
    decide⟩
  lower := String.toLower
  lower_ascii _ _ := rfl

/-- A device registers what it reads. -/
def registers (readings : List Reading) : List Act :=
  [.start someScheme.lfdi .der none, .post someScheme.lfdi readings none]

theorem registers_fair (readings : List Reading) :
    ∀ l ∈ registers readings ++ [.returned someScheme.lfdi],
      Fair someSettings l ∧ ∀ data, l ≠ .restore data := by
  intro l listed
  simp only [registers, List.cons_append, List.nil_append, List.mem_cons, List.not_mem_nil,
    or_false] at listed
  rcases listed with rfl | rfl | rfl
  · exact ⟨someLfdi_valid, fun _ same => by cases same⟩
  · exact ⟨trivial, fun _ same => by cases same⟩
  · exact ⟨trivial, fun _ same => by cases same⟩

/-- A session in which a device registers real power. -/
theorem exists_registered : ∃ f : Session,
    (session someSettings).Run (Quiet someSettings) Session.fresh f ∧
      ∃ d, f.manager.devices.get? someScheme.lfdi = some d ∧
        d.registered.keys.isEmpty = false := by
  have counted : ((session someSettings).exec Session.fresh
        (registers [watts 500] ++ [.returned someScheme.lfdi])).map
      (fun f => ((Session.manager f).devices.get? someScheme.lfdi).map fun d =>
        d.registered.keys.isEmpty) = some (some false) := by decide +kernel
  obtain ⟨f, executed, one⟩ := Option.map_eq_some_iff.mp counted
  have run : (session someSettings).Run
      (fun _ l _ => Fair someSettings l ∧ ∀ data, l ≠ .restore data) Session.fresh f :=
    Machine.run_of_labels _ executed (registers_fair [watts 500])
  refine ⟨f, run.weaken fun met => ⟨met.1, fun data same => absurd same (met.2 data)⟩, ?_⟩
  obtain ⟨d, device, own⟩ := Option.map_eq_some_iff.mp one
  exact ⟨d, device, own⟩

/-- The checkpoint of a device that registers real power. -/
theorem checkpoint_round_trip_registered : ∃ m : TelemetryManager,
    (∃ lfdi d, m.devices.get? lfdi = some d ∧ d.registered.keys.isEmpty = false) ∧
      m.RoundTrips someSettings ∧ ∀ (other : TelemetryManager) (data : Json),
        ∃ result, other.restoreFromCheckpoint someSettings data = .ok result ∧
          ∀ lfdi d, other.devices.get? lfdi = some d → d.registered.keys.isEmpty = false →
            result.1.devices.get? lfdi = some d := by
  obtain ⟨f, run, d, device, own⟩ := exists_registered
  exact ⟨f.manager, ⟨someScheme.lfdi, d, device, own⟩, checkpoint_round_trip someSettings f.manager
    (sound_of_run (run.weaken And.left)).manager (settled_of_run run).manager⟩

/-- A device has no registrations of its own, and those that were restored are written. -/
theorem restored_in_flight : ∃ f : Session,
    (session someSettings).Run (fun _ l _ => Fair someSettings l) Session.fresh f ∧
      f.manager.Sound someSettings ∧ ¬ f.manager.RoundTrips someSettings := by
  obtain ⟨other, quiet, d, device, own⟩ := exists_registered
  have sound := (sound_of_run (quiet.weaken And.left)).manager
  have posting : ((session someSettings).exec Session.fresh (registers [])).map
      (fun f => ((Session.manager f).devices.keys,
        ((Session.posting f).get? someScheme.lfdi).map fun plan => (plan.1.entries.length, plan.2))) =
      some ([someScheme.lfdi], some (0, none)) := by decide +kernel
  obtain ⟨f, executed, facts⟩ := Option.map_eq_some_iff.mp posting
  obtain ⟨keys, planned⟩ := Prod.mk.inj facts
  obtain ⟨plan, inFlight, empty⟩ := Option.map_eq_some_iff.mp planned
  obtain ⟨nothing, undeclared⟩ := Prod.mk.inj empty
  have same : plan = (Dict.empty, none) :=
    Prod.ext (Dict.eq_of_entries (List.eq_nil_of_length_eq_zero nothing)) undeclared
  have written := toCheckpoint_eq someSettings sound.readable
  obtain ⟨g, restored, unsettled⟩ := restored_left sound written device own
    (keys ▸ List.mem_singleton_self _) (same ▸ inFlight)
  have first : (session someSettings).Run (fun _ l _ => Fair someSettings l) Session.fresh f :=
    Machine.run_of_labels _ executed fun l listed =>
      (registers_fair [] l (List.mem_append_left _ listed)).1
  have second : (session someSettings).Run (fun _ l _ => Fair someSettings l) f g := by
    refine Machine.run_of_labels _ restored fun l listed => ?_
    simp only [List.mem_cons, List.not_mem_nil, or_false] at listed
    rcases listed with rfl | rfl
    · exact ⟨other.manager, sound, written⟩
    · trivial
  have run := first.trans second
  exact ⟨g, run, (sound_of_run run).manager, fun trips =>
    unsettled ((sound_of_run run).manager.settled_of_roundTrips trips)⟩

end Py20305.Telemetry
