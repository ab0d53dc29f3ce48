import Py20305.Lib.Machine
import Py20305.Sep.Resources

/-!
The PUTs of DERCapability and DERSettings (`telemetry/der_resource_manager.py`), for one
device.

Under `on_change` a cycle skips its PUT where it has read what is recorded as sent. The
record is made when the PUT returns, and what was sent can be forgotten before that
(`resent_iff_undisturbed`).

Left out: DERStatus, which is PUT on every cycle, the telemetry of the reads, and the
reports of a failure.
-/

namespace Py20305.DerResources

/-- When DERCapability and DERSettings are PUT. -/
inductive PutPolicy where
  | periodic | onChange
  deriving DecidableEq

/-- A PUT, and how many times what was sent had been forgotten when it started. -/
structure Put (Content : Type) where
  href : Href
  content : Content
  epoch : Nat
  deriving DecidableEq

/-- `Config` is the data of a connector's configuration. -/
structure DeviceDerState (Config : Type) where
  /-- Which call of `start_device` made it. -/
  id : Nat
  capabilityHref : Option Href
  settingsHref : Option Href
  lastSettingsData : Option Config := none
  deriving DecidableEq

/-- What a capability cycle waits for. `Body` is the XML of a DERCapability. -/
inductive CapabilityCycle (Body : Type) where
  /-- The connector, or its nameplate. -/
  | reading (href : Href)
  /-- The PUT. -/
  | putting (sent : Put Body) (previous : Option (Href × Body))
  deriving DecidableEq

/-- A settings cycle, which waits for its PUT or, before it, for the configuration. -/
structure SettingsCycle (Config : Type) where
  state : DeviceDerState Config
  href : Href
  put : Option (Put Config)
  /-- When it started, the settings were to be resent. -/
  resends : Bool
  /-- A changed DERCapability was PUT while it ran. -/
  overtaken : Bool
  deriving DecidableEq

/-- The manager, and what it did so far: the PUTs that succeeded, newest first, how many
times it forgot what was sent, and whether a changed DERCapability was PUT that no
settings PUT of a later cycle has followed. -/
structure World (Body Config : Type) where
  device : Option (DeviceDerState Config)
  starts : Nat
  sentCapability : Option (Href × Body)
  sentSettings : Option (Href × Config)
  capability : Option (CapabilityCycle Body)
  settings : Option (SettingsCycle Config)
  forgets : Nat
  capabilityPuts : List (Put Body)
  settingsPuts : List (Put Config)
  changed : Bool
  deriving DecidableEq

inductive Step (Body Config : Type) where
  | startDevice (capabilityHref settingsHref : Option Href)
  | stopDevice
  | forgetSent
  | capabilityBegins
  /-- The nameplate was read, and DERCapability built from it. -/
  | nameplate (body : Body)
  | capabilityPut (succeeded : Bool)
  /-- Anything else raises, before the PUT. -/
  | capabilityFails
  | settingsBegins
  /-- The configuration was read, and DERSettings can be built from it or not. -/
  | configuration (data : Config) (buildable : Bool)
  | settingsPut (succeeded : Bool)
  | settingsFails

section Manager

variable {Body Config : Type} [DecidableEq Body] [DecidableEq Config]

def World.fresh : World Body Config where
  device := none
  starts := 0
  sentCapability := none
  sentSettings := none
  capability := none
  settings := none
  forgets := 0
  capabilityPuts := []
  settingsPuts := []
  changed := false

namespace World

variable (policy : PutPolicy) (w : World Body Config)

/-- `start_device`. Scheduling a poll cancels the one before, and with it a cycle that runs. -/
def startDevice (capabilityHref settingsHref : Option Href) : World Body Config :=
  { w with
    device := some { id := w.starts, capabilityHref := capabilityHref, settingsHref := settingsHref }
    starts := w.starts + 1
    capability := if capabilityHref.any (· ≠ "") then none else w.capability
    settings := if settingsHref.any (· ≠ "") then none else w.settings }

/-- `forget_sent`. -/
def forgetSent : World Body Config :=
  { w with sentCapability := none, sentSettings := none, forgets := w.forgets + 1 }

/-- `stop_device`. A cycle that runs goes on. -/
def stopDevice : World Body Config := { w.forgetSent with device := none }

/-- `_capability_cycle`, to its first await. -/
def capabilityBegins : Option (World Body Config) :=
  match w.capability, w.device.bind (·.capabilityHref) with
  | none, some href => some { w with capability := some (.reading href) }
  | _, _ => none

/-- `_capability_cycle`, from the body to the PUT. -/
def nameplateRead (href : Href) (body : Body) : World Body Config :=
  if policy = .onChange ∧ w.sentCapability = some (href, body) then { w with capability := none }
  else { w with capability := some (.putting ⟨href, body, w.forgets⟩ w.sentCapability) }

/-- The body is not the one that was PUT before it. -/
def differs (sent : Put Body) : Bool := w.capabilityPuts.head?.any fun p => p.content ≠ sent.content

/-- `_capability_cycle`, from where its PUT succeeded. -/
def capabilityPut (sent : Put Body) (previous : Option (Href × Body)) : World Body Config :=
  { w with
    capability := none
    sentCapability :=
      if policy = .onChange then some (sent.href, sent.content) else w.sentCapability
    sentSettings :=
      if policy = .onChange ∧ previous.any (·.2 ≠ sent.content) then none else w.sentSettings
    capabilityPuts := sent :: w.capabilityPuts
    changed := w.changed || w.differs sent
    settings :=
      w.settings.map fun cycle =>
        { cycle with overtaken := cycle.overtaken || w.differs sent } }

/-- `_settings_cycle`, to its first await. -/
def settingsBegins : Option (World Body Config) :=
  match w.settings, w.device with
  | none, some state =>
      state.settingsHref.map fun href =>
        { w with settings := some ⟨state, href, none, w.changed, false⟩ }
  | _, _ => none

/-- The configuration is the one that was sent. -/
def unchanged (cycle : SettingsCycle Config) (data : Config) : Bool :=
  match policy with
  | .onChange => w.sentSettings = some (cycle.href, data)
  | .periodic => cycle.state.lastSettingsData = some data

/-- `_settings_cycle`, from the configuration to the PUT. -/
def configurationRead (cycle : SettingsCycle Config) (data : Config) (buildable : Bool) :
    World Body Config :=
  if w.unchanged policy cycle data || !buildable then { w with settings := none }
  else { w with settings := some { cycle with put := some ⟨cycle.href, data, w.forgets⟩ } }

/-- `_settings_cycle`, from where its PUT succeeded. -/
def settingsPut (cycle : SettingsCycle Config) (sent : Put Config) : World Body Config :=
  { w with
    device := w.device.map fun state =>
      if state.id = cycle.state.id then { state with lastSettingsData := some sent.content }
      else state
    settings := none
    sentSettings := if policy = .onChange then some (sent.href, sent.content) else w.sentSettings
    settingsPuts := sent :: w.settingsPuts
    changed := w.changed && (cycle.overtaken || !cycle.resends) }

def step : Step Body Config → Option (World Body Config)
  | .startDevice capabilityHref settingsHref => some (w.startDevice capabilityHref settingsHref)
  | .stopDevice => some w.stopDevice
  | .forgetSent => some w.forgetSent
  | .capabilityBegins => w.capabilityBegins
  | .nameplate body =>
      match w.capability with
      | some (.reading href) => some (w.nameplateRead policy href body)
      | _ => none
  | .capabilityPut succeeded =>
      match w.capability with
      | some (.putting sent previous) =>
          some (if succeeded then w.capabilityPut policy sent previous
            else { w with capability := none })
      | _ => none
  | .capabilityFails => some { w with capability := none }
  | .settingsBegins => w.settingsBegins
  | .configuration data buildable =>
      match w.settings with
      | some ⟨state, href, none, resends, overtaken⟩ =>
          some (w.configurationRead policy ⟨state, href, none, resends, overtaken⟩ data buildable)
      | _ => none
  | .settingsPut succeeded =>
      match w.settings with
      | some ⟨state, href, some sent, resends, overtaken⟩ =>
          some (if succeeded then
              w.settingsPut policy ⟨state, href, some sent, resends, overtaken⟩ sent
            else { w with settings := none })
      | _ => none
  | .settingsFails => some { w with settings := none }

end World

end Manager

/-- The manager, for one device. -/
@[reducible] def manager (Body Config : Type) [DecidableEq Body] [DecidableEq Config]
    (policy : PutPolicy) : Machine where
  State := World Body Config
  Label := Step Body Config
  step l w := w.step policy l

/-! ### What a skip needs -/

/-- A PUT of the content to the path, started since what was sent was last forgotten, has
succeeded, and no PUT of other content has since. -/
def Held {Content : Type} (puts : List (Put Content)) (epoch : Nat) (href : Href)
    (content : Content) : Prop :=
  ∃ newer p older, puts = newer ++ p :: older ∧ p.href = href ∧ p.content = content ∧
    p.epoch = epoch ∧ ∀ q ∈ newer, q.content = content

/-- What the last PUT sent is held. -/
theorem held_of_last {Content : Type} {puts : List (Put Content)} {epoch : Nat} {href : Href}
    {content : Content} (last : puts.head? = some ⟨href, content, epoch⟩) :
    Held puts epoch href content := by
  obtain ⟨older, rfl⟩ := List.head?_eq_some_iff.mp last
  exact ⟨[], _, older, rfl, rfl, rfl, rfl, nofun⟩

/-- What is recorded as sent is the last PUT, and no settings are while they are to be resent. -/
structure Recorded {Body Config : Type} (w : World Body Config) : Prop where
  capability : ∀ href body, w.sentCapability = some (href, body) →
    w.capabilityPuts.head? = some ⟨href, body, w.forgets⟩
  settings : ∀ href data, w.sentSettings = some (href, data) →
    w.settingsPuts.head? = some ⟨href, data, w.forgets⟩
  previous : ∀ sent href body, w.capability = some (.putting sent (some (href, body))) →
    w.capabilityPuts.head?.map (·.content) = some body
  changed : w.changed = true → w.sentSettings = none
  resends : ∀ cycle, w.settings = some cycle → w.changed = (cycle.resends || cycle.overtaken)

section Plain

variable {Body Config : Type} {w : World Body Config}

theorem Recorded.fresh : Recorded (World.fresh : World Body Config) :=
  ⟨nofun, nofun, nofun, nofun, nofun⟩

theorem Recorded.forgetSent (recorded : Recorded w) : Recorded w.forgetSent :=
  ⟨nofun, nofun, recorded.previous, fun _ => rfl, recorded.resends⟩

theorem Recorded.stopDevice (recorded : Recorded w) : Recorded w.stopDevice :=
  ⟨nofun, nofun, recorded.previous, fun _ => rfl, recorded.resends⟩

/-- A capability cycle ends without a PUT. -/
theorem Recorded.capabilityEnds (recorded : Recorded w) :
    Recorded { w with capability := none } :=
  ⟨recorded.capability, recorded.settings, nofun, recorded.changed, recorded.resends⟩

/-- A settings cycle ends without a PUT. -/
theorem Recorded.settingsEnds (recorded : Recorded w) : Recorded { w with settings := none } :=
  ⟨recorded.capability, recorded.settings, recorded.previous, recorded.changed, nofun⟩

theorem Recorded.startDevice (recorded : Recorded w) (capabilityHref settingsHref : Option Href) :
    Recorded (w.startDevice capabilityHref settingsHref) := by
  refine ⟨recorded.capability, recorded.settings, fun sent href body putting => ?_,
    recorded.changed, fun cycle running => ?_⟩
  · simp only [World.startDevice] at putting
    split at putting
    · cases putting
    · exact recorded.previous sent href body putting
  · simp only [World.startDevice] at running
    split at running
    · cases running
    · exact recorded.resends cycle running

end Plain

section Steps

variable {Body Config : Type} [DecidableEq Body] {w : World Body Config}

/-- The step is not the success of a PUT that comes too late: one in flight when what was sent
was forgotten, one of a settings cycle in which a changed DERCapability was PUT, or one of a
DERCapability that changed before it was forgotten, and is PUT after the settings. -/
def World.undisturbed (w : World Body Config) : Step Body Config → Bool
  | .capabilityPut true =>
      match w.capability with
      | some (.putting sent previous) =>
          sent.epoch = w.forgets && (!w.differs sent || previous.isSome || w.sentSettings.isNone)
      | _ => true
  | .settingsPut true =>
      match w.settings with
      | some ⟨_, _, some sent, _, overtaken⟩ => sent.epoch = w.forgets && !overtaken
      | _ => true
  | _ => true

def Undisturbed (w : World Body Config) (l : Step Body Config) (_ : World Body Config) : Prop :=
  w.undisturbed l = true

theorem Recorded.nameplateRead (recorded : Recorded w) (href : Href) (body : Body) :
    Recorded (w.nameplateRead .onChange href body) := by
  unfold World.nameplateRead
  split
  · exact recorded.capabilityEnds
  · refine ⟨recorded.capability, recorded.settings, fun sent href' body' putting => ?_,
      recorded.changed, recorded.resends⟩
    simp only [Option.some.injEq, CapabilityCycle.putting.injEq] at putting
    rw [recorded.capability href' body' putting.2, Option.map_some]

/-- A changed DERCapability takes the record of the settings with it. -/
theorem Recorded.capabilityPut (recorded : Recorded w) {sent : Put Body}
    {previous : Option (Href × Body)} (running : w.capability = some (.putting sent previous))
    (undisturbed : w.undisturbed (.capabilityPut true) = true) :
    Recorded (w.capabilityPut .onChange sent previous) := by
  simp only [World.undisturbed, running, Bool.and_eq_true, Bool.or_eq_true, decide_eq_true_eq,
    Bool.not_eq_true', Option.isNone_iff_eq_none] at undisturbed
  obtain ⟨current, known⟩ := undisturbed
  refine ⟨fun href body found => ?_, fun href data found => ?_, nofun, fun changed => ?_,
    fun cycle running' => ?_⟩
  · simp only [World.capabilityPut, if_true, Option.some.injEq, Prod.mk.injEq] at found
    obtain ⟨rfl, rfl⟩ := found
    simp only [World.capabilityPut, List.head?_cons, ← current]
  · simp only [World.capabilityPut] at found
    split at found
    · cases found
    · exact recorded.settings href data found
  · simp only [World.capabilityPut, true_and, Bool.or_eq_true] at changed ⊢
    split
    · rfl
    · rename_i same
      rcases changed with earlier | differs
      · exact recorded.changed earlier
      · cases previous with
        | none => simpa [differs] using known
        | some last =>
            -- The body recorded as sent is the one that was PUT before.
            obtain ⟨href, body⟩ := last
            have before := recorded.previous sent href body running
            obtain ⟨p, first, rfl⟩ := Option.map_eq_some_iff.mp before
            simp only [World.differs, first, Option.any_some, decide_eq_true_eq] at differs
            exact absurd (by simpa using differs) same
  · simp only [World.capabilityPut, Option.map_eq_some_iff] at running' ⊢
    obtain ⟨cycle', running', rfl⟩ := running'
    rw [recorded.resends cycle' running', Bool.or_assoc]

theorem Recorded.settingsPut (recorded : Recorded w) {cycle : SettingsCycle Config}
    {sent : Put Config} (running : w.settings = some cycle) (putting : cycle.put = some sent)
    (undisturbed : w.undisturbed (.settingsPut true) = true) :
    Recorded (w.settingsPut .onChange cycle sent) := by
  obtain ⟨state, href, put, resends, overtaken⟩ := cycle
  cases putting
  simp only [World.undisturbed, running, Bool.and_eq_true, decide_eq_true_eq,
    Bool.not_eq_true'] at undisturbed
  obtain ⟨current, rfl⟩ := undisturbed
  refine ⟨recorded.capability, fun href data found => ?_, recorded.previous, fun changed => ?_,
    nofun⟩
  · simp only [World.settingsPut, if_true, Option.some.injEq, Prod.mk.injEq] at found
    obtain ⟨rfl, rfl⟩ := found
    simp only [World.settingsPut, List.head?_cons, ← current]
  · have whole := recorded.resends _ running
    simp [World.settingsPut, whole] at changed

end Steps

variable {Body Config : Type} [DecidableEq Config] {w u : World Body Config}

theorem Recorded.configurationRead (recorded : Recorded w) {cycle : SettingsCycle Config}
    (running : w.settings = some cycle) (data : Config) (buildable : Bool) :
    Recorded (w.configurationRead .onChange cycle data buildable) := by
  unfold World.configurationRead
  split
  · exact recorded.settingsEnds
  · refine ⟨recorded.capability, recorded.settings, recorded.previous, recorded.changed,
      fun cycle' running' => ?_⟩
    cases running'
    exact recorded.resends cycle running

variable [DecidableEq Body]

/-- Every undisturbed step keeps the record. -/
theorem Recorded.step (recorded : Recorded w) {l : Step Body Config}
    (stepped : w.step .onChange l = some u) (undisturbed : w.undisturbed l = true) :
    Recorded u := by
  cases l with
  | startDevice capabilityHref settingsHref =>
      cases stepped
      exact recorded.startDevice capabilityHref settingsHref
  | stopDevice =>
      cases stepped
      exact recorded.stopDevice
  | forgetSent =>
      cases stepped
      exact recorded.forgetSent
  | capabilityBegins =>
      simp only [World.step, World.capabilityBegins] at stepped
      split at stepped
      · cases stepped
        exact ⟨recorded.capability, recorded.settings, nofun, recorded.changed, recorded.resends⟩
      · cases stepped
  | nameplate body =>
      simp only [World.step] at stepped
      split at stepped
      · cases stepped
        exact recorded.nameplateRead _ body
      · cases stepped
  | capabilityPut succeeded =>
      simp only [World.step] at stepped
      split at stepped
      · rename_i sent previous running
        cases stepped
        cases succeeded with
        | false => exact recorded.capabilityEnds
        | true => exact recorded.capabilityPut running undisturbed
      · cases stepped
  | capabilityFails =>
      cases stepped
      exact recorded.capabilityEnds
  | settingsBegins =>
      simp only [World.step, World.settingsBegins] at stepped
      split at stepped
      · obtain ⟨href, -, rfl⟩ := Option.map_eq_some_iff.mp stepped
        refine ⟨recorded.capability, recorded.settings, recorded.previous, recorded.changed,
          fun cycle running => ?_⟩
        cases running
        exact (Bool.or_false _).symm
      · cases stepped
  | configuration data buildable =>
      simp only [World.step] at stepped
      split at stepped
      · rename_i running
        cases stepped
        exact recorded.configurationRead running data buildable
      · cases stepped
  | settingsPut succeeded =>
      simp only [World.step] at stepped
      split at stepped
      · rename_i running
        cases stepped
        cases succeeded with
        | false => exact recorded.settingsEnds
        | true => exact recorded.settingsPut running rfl undisturbed
      · cases stepped
  | settingsFails =>
      cases stepped
      exact recorded.settingsEnds

/-- A cycle skips only what the server holds, and DERSettings are not skipped after a changed
DERCapability. -/
structure Resent (w : World Body Config) : Prop where
  capability : ∀ href body u, w.capability = some (.reading href) →
    w.step .onChange (.nameplate body) = some u → u.capability = none →
    Held w.capabilityPuts w.forgets href body
  settings : ∀ cycle data u, w.settings = some cycle →
    w.step .onChange (.configuration data true) = some u → u.settings = none →
    Held w.settingsPuts w.forgets cycle.href data
  changed : ∀ cycle data u, w.settings = some cycle → cycle.resends = true →
    w.step .onChange (.configuration data true) = some u → u.settings.isSome

theorem Recorded.resent (recorded : Recorded w) : Resent w := by
  refine ⟨fun href body u reading stepped ends => ?_, fun cycle data u running stepped ends => ?_,
    fun cycle data u running resends stepped => ?_⟩
  · simp only [World.step, reading, Option.some.injEq, World.nameplateRead] at stepped
    split at stepped
    · rename_i unchanged
      exact held_of_last (recorded.capability href body unchanged.2)
    · cases stepped
      cases ends
  · obtain ⟨state, href, put, resends, overtaken⟩ := cycle
    cases put with
    | some sent => simp only [World.step, running, reduceCtorEq] at stepped
    | none =>
        simp only [World.step, running, Option.some.injEq, World.configurationRead] at stepped
        split at stepped
        · rename_i unchanged
          simp only [World.unchanged, Bool.not_true, Bool.or_false, decide_eq_true_eq] at unchanged
          exact held_of_last (recorded.settings href data unchanged)
        · cases stepped
          cases ends
  · obtain ⟨state, href, put, _, overtaken⟩ := cycle
    cases resends
    have unsent := recorded.changed ((recorded.resends _ running).trans (Bool.true_or _))
    cases put with
    | some sent => simp only [World.step, running, reduceCtorEq] at stepped
    | none =>
        simp [World.step, running, World.configurationRead, World.unchanged, unsent] at stepped
        subst stepped
        rfl

/-! ### A PUT that comes too late -/

/-- The PUTs of a resource that succeeded and the one in flight started in this order. -/
def Timely {Content : Type} (puts : List (Put Content)) (inFlight : Option (Put Content))
    (epoch : Nat) : Prop :=
  (∀ p ∈ puts, p.epoch ≤ epoch) ∧
    ∀ sent, inFlight = some sent → sent.epoch ≤ epoch ∧ ∀ p ∈ puts, p.epoch ≤ sent.epoch

section Timely

variable {Content : Type} {puts : List (Put Content)} {inFlight : Option (Put Content)} {epoch : Nat}

theorem Timely.forget (timely : Timely puts inFlight epoch) : Timely puts inFlight (epoch + 1) :=
  ⟨fun p listed => Nat.le_succ_of_le (timely.1 p listed), fun sent waits =>
    ⟨Nat.le_succ_of_le (timely.2 sent waits).1, (timely.2 sent waits).2⟩⟩

theorem Timely.ends (timely : Timely puts inFlight epoch) : Timely puts none epoch :=
  ⟨timely.1, nofun⟩

theorem Timely.starts (timely : Timely puts inFlight epoch) (href : Href) (content : Content) :
    Timely puts (some ⟨href, content, epoch⟩) epoch := by
  refine ⟨timely.1, fun sent waits => ?_⟩
  cases waits
  exact ⟨le_rfl, timely.1⟩

theorem Timely.succeeds {sent : Put Content} (timely : Timely puts (some sent) epoch) :
    Timely (sent :: puts) none epoch :=
  ⟨List.forall_mem_cons.mpr ⟨(timely.2 sent rfl).1, timely.1⟩, nofun⟩

/-- A PUT that started before what was sent was forgotten does not show what is held. -/
theorem Timely.not_held {sent : Put Content} (timely : Timely puts (some sent) epoch)
    (late : sent.epoch ≠ epoch) (href : Href) (content : Content) :
    ¬ Held (sent :: puts) epoch href content := by
  rintro ⟨newer, p, older, split_, -, -, current, -⟩
  obtain ⟨started, before⟩ := timely.2 sent rfl
  have earlier : ∀ q ∈ sent :: puts, q.epoch ≤ sent.epoch :=
    List.forall_mem_cons.mpr ⟨le_rfl, before⟩
  have bound := earlier p (split_ ▸ List.mem_append_right newer List.mem_cons_self)
  omega

end Timely

/-- The capability PUT in flight. -/
def World.capabilitySent {Body Config : Type} (w : World Body Config) : Option (Put Body) :=
  match w.capability with
  | some (.putting sent _) => some sent
  | _ => none

/-- The settings PUT in flight. -/
def World.settingsSent {Body Config : Type} (w : World Body Config) : Option (Put Config) :=
  w.settings.bind (·.put)

/-- Both resources' PUTs started in the order in which they succeeded. -/
structure World.Timed {Body Config : Type} (w : World Body Config) : Prop where
  capability : Timely w.capabilityPuts w.capabilitySent w.forgets
  settings : Timely w.settingsPuts w.settingsSent w.forgets

omit [DecidableEq Body] [DecidableEq Config] in
theorem World.Timed.fresh : (World.fresh : World Body Config).Timed :=
  ⟨⟨nofun, nofun⟩, ⟨nofun, nofun⟩⟩

theorem World.Timed.step (timed : w.Timed) {l : Step Body Config}
    (stepped : w.step .onChange l = some u) : u.Timed := by
  obtain ⟨capability, settings⟩ := timed
  cases l with
  | startDevice capabilityHref settingsHref =>
      cases stepped
      refine ⟨?_, ?_⟩
      · simp only [startDevice, capabilitySent]
        split <;> rename_i running
        · split at running
          · cases running
          · simpa only [capabilitySent, running] using capability
        · exact capability.ends
      · simp only [startDevice, settingsSent]
        split
        · exact settings.ends
        · exact settings
  | stopDevice =>
      cases stepped
      exact ⟨capability.forget, settings.forget⟩
  | forgetSent =>
      cases stepped
      exact ⟨capability.forget, settings.forget⟩
  | capabilityBegins =>
      simp only [World.step, capabilityBegins] at stepped
      split at stepped
      · cases stepped
        exact ⟨capability.ends, settings⟩
      · cases stepped
  | nameplate body =>
      simp only [World.step] at stepped
      split at stepped
      · cases stepped
        unfold nameplateRead
        split
        · exact ⟨capability.ends, settings⟩
        · exact ⟨capability.starts _ body, settings⟩
      · cases stepped
  | capabilityPut succeeded =>
      simp only [World.step] at stepped
      split at stepped
      · rename_i sent previous running
        cases stepped
        simp only [capabilitySent, running] at capability
        cases succeeded with
        | false => exact ⟨capability.ends, settings⟩
        | true =>
            refine ⟨capability.succeeds, ?_⟩
            have same : (w.capabilityPut .onChange sent previous).settingsSent = w.settingsSent := by
              simp only [World.capabilityPut, settingsSent, Option.bind_map]
              rfl
            exact same ▸ settings
      · cases stepped
  | capabilityFails =>
      cases stepped
      exact ⟨capability.ends, settings⟩
  | settingsBegins =>
      simp only [World.step, settingsBegins] at stepped
      split at stepped
      · obtain ⟨href, -, rfl⟩ := Option.map_eq_some_iff.mp stepped
        exact ⟨capability, settings.ends⟩
      · cases stepped
  | configuration data buildable =>
      simp only [World.step] at stepped
      split at stepped
      · cases stepped
        unfold configurationRead
        split
        · exact ⟨capability, settings.ends⟩
        · exact ⟨capability, settings.starts _ data⟩
      · cases stepped
  | settingsPut succeeded =>
      simp only [World.step] at stepped
      split at stepped
      · rename_i running
        cases stepped
        simp only [settingsSent, running, Option.bind_some] at settings
        cases succeeded with
        | false => exact ⟨capability, settings.ends⟩
        | true => exact ⟨capability, settings.succeeds⟩
      · cases stepped
  | settingsFails =>
      cases stepped
      exact ⟨capability, settings.ends⟩

instance (w : World Body Config) (l : Step Body Config) (u : World Body Config) :
    Decidable (Undisturbed w l u) := inferInstanceAs (Decidable (_ = true))

omit [DecidableEq Config] in
theorem nameplateRead_sent {href : Href} {body : Body}
    (recorded : w.sentCapability = some (href, body)) :
    (w.nameplateRead .onChange href body).capability = none := by
  rw [World.nameplateRead, if_pos ⟨rfl, recorded⟩]

omit [DecidableEq Body] in
theorem configurationRead_sent {cycle : SettingsCycle Config} {data : Config}
    (recorded : w.sentSettings = some (cycle.href, data)) (buildable : Bool) :
    (w.configurationRead .onChange cycle data buildable).settings = none := by
  rw [World.configurationRead, if_pos (by simp [World.unchanged, recorded])]

/-- What is recorded of the capability but not held is skipped sooner or later. -/
theorem unresent_of_capability {href : Href} {body : Body}
    (recorded : w.sentCapability = some (href, body))
    (lost : ¬ Held w.capabilityPuts w.forgets href body) :
    ∃ v, (manager Body Config .onChange).Run Undisturbed w v ∧ ¬ Resent v := by
  have run : (manager Body Config .onChange).execMeeting Undisturbed w
      [.startDevice (some href) none, .capabilityFails, .capabilityBegins] = some _ := rfl
  refine ⟨_, Machine.run_of_meeting _ run, fun resent => lost ?_⟩
  exact resent.capability href body _ rfl rfl (nameplateRead_sent recorded)

/-- So are recorded settings that are not held, or to be resent. -/
theorem unresent_of_settings {href : Href} {data : Config}
    (recorded : w.sentSettings = some (href, data))
    (lost : ¬ Held w.settingsPuts w.forgets href data ∨ w.changed = true) :
    ∃ v, (manager Body Config .onChange).Run Undisturbed w v ∧ ¬ Resent v := by
  have run : (manager Body Config .onChange).execMeeting Undisturbed w
      [.startDevice none (some href), .settingsFails, .settingsBegins] = some _ := rfl
  refine ⟨_, Machine.run_of_meeting _ run, fun resent => ?_⟩
  rcases lost with lost | changed
  · exact lost (resent.settings _ data _ rfl rfl (configurationRead_sent recorded true))
  · have sends := resent.changed _ data _ rfl changed rfl
    rw [configurationRead_sent recorded true] at sends
    cases sends

/-- A PUT that succeeds too late has a cycle skip, sooner or later. -/
theorem unresent_of_late (recorded : Recorded w) (timed : w.Timed) {l : Step Body Config}
    (stepped : w.step .onChange l = some u) (late : w.undisturbed l = false) :
    ∃ v, (manager Body Config .onChange).Run Undisturbed u v ∧ ¬ Resent v := by
  cases l with
  | capabilityPut succeeded =>
      simp only [World.step] at stepped
      split at stepped
      · rename_i sent previous running
        cases stepped
        cases succeeded with
        | false => cases late
        | true =>
            simp only [World.undisturbed, running, Bool.and_eq_false_iff, Bool.or_eq_false_iff,
              decide_eq_false_iff_not, Bool.not_eq_false', Option.isSome_eq_false_iff,
              Option.isNone_iff_eq_none, Option.isNone_eq_false_iff] at late
            rcases late with late | ⟨⟨differs, rfl⟩, known⟩
            · have inFlight := timed.capability
              rw [World.capabilitySent, running] at inFlight
              exact unresent_of_capability (w := w.capabilityPut .onChange sent previous) rfl
                (inFlight.not_held late sent.href sent.content)
            · obtain ⟨⟨href, data⟩, recorded'⟩ := Option.isSome_iff_exists.mp known
              refine unresent_of_settings (w := w.capabilityPut .onChange sent none) recorded' (.inr ?_)
              simp [World.capabilityPut, differs]
      · cases stepped
  | settingsPut succeeded =>
      simp only [World.step] at stepped
      split at stepped
      · rename_i state href sent resends overtaken running
        cases stepped
        cases succeeded with
        | false => cases late
        | true =>
            simp only [World.undisturbed, running, Bool.and_eq_false_iff, decide_eq_false_iff_not,
              Bool.not_eq_false'] at late
            have whole := recorded.resends _ running
            have inFlight := timed.settings
            rw [World.settingsSent, running] at inFlight
            refine unresent_of_settings
              (w := w.settingsPut .onChange ⟨state, href, some sent, resends, overtaken⟩ sent) rfl ?_
            rcases late with late | rfl
            · exact .inl (inFlight.not_held late sent.href sent.content)
            · exact .inr (by simp [World.settingsPut, whole])
      · cases stepped
  | _ => cases late

/-- Up to now, no cycle skipped what the server may not hold; and from now on none does as long
as no PUT succeeds too late, but one does once a PUT has. -/
theorem resent_iff_undisturbed
    (run : (manager Body Config .onChange).Run Undisturbed World.fresh w) :
    Resent w ∧ ∀ l u, w.step .onChange l = some u →
      (w.undisturbed l = true ↔
        ∀ v, (manager Body Config .onChange).Run Undisturbed u v → Resent v) := by
  have keeps : ∀ {v}, Recorded v → ∀ {x}, (manager Body Config .onChange).Run Undisturbed v x →
      Recorded x := fun holds _ run =>
    run.keeps (fun _ _ _ stepped undisturbed recorded => recorded.step stepped undisturbed) holds
  have recorded := keeps Recorded.fresh run
  have timed : w.Timed :=
    run.keeps (P := World.Timed) (fun _ _ _ stepped _ timed => timed.step stepped) World.Timed.fresh
  refine ⟨recorded.resent, fun l u stepped => ⟨fun undisturbed v later =>
    (keeps (recorded.step stepped undisturbed) later).resent, fun all => ?_⟩⟩
  by_contra disturbed
  obtain ⟨v, later, unresent⟩ := unresent_of_late recorded timed stepped (Bool.not_eq_true _ ▸ disturbed)
  exact unresent (all v later)

/-! ### Runs on given inputs -/

/-- A start of the device, and the first PUT of each resource. -/
def reporting : List (Step Nat Nat) :=
  [.startDevice (some "/dercap") (some "/derset"), .capabilityBegins, .nameplate 1,
    .capabilityPut true, .settingsBegins, .configuration 1 true, .settingsPut true]

/-- The device leaves after its capability changed, and returns: what it reports is PUT again. -/
theorem resent_rejoined : ∃ w : World Nat Nat, w.capabilityPuts.length = 3 ∧ Resent w := by
  have run : (manager Nat Nat .onChange).execMeeting Undisturbed World.fresh
      (reporting ++ [.capabilityBegins, .nameplate 2, .capabilityPut true, .stopDevice] ++
        reporting ++ [.capabilityBegins]) = some _ := rfl
  exact ⟨_, rfl, (resent_iff_undisturbed (Machine.run_of_meeting _ run)).1⟩

/-- A PUT in flight when the device leaves is skipped when it returns; and one of the settings
in flight when a changed capability is PUT is not repeated. -/
theorem late_put_skipped :
    (∃ w, (manager Nat Nat .onChange).exec World.fresh
        [.startDevice (some "/dercap") none, .capabilityBegins, .nameplate 1, .stopDevice,
          .capabilityPut true, .startDevice (some "/dercap") none, .capabilityBegins] = some w ∧
      (∃ u, w.step .onChange (.nameplate 1) = some u ∧ u.capability = none) ∧
      ¬ Held w.capabilityPuts w.forgets "/dercap" 1) ∧
    ∃ w, (manager Nat Nat .onChange).exec World.fresh
        (reporting ++ [.settingsBegins, .configuration 2 true, .capabilityBegins, .nameplate 2,
          .capabilityPut true, .settingsPut true, .settingsBegins]) = some w ∧
      w.capabilityPuts = [⟨"/dercap", 2, 0⟩, ⟨"/dercap", 1, 0⟩] ∧
      ∃ u, w.step .onChange (.configuration 2 true) = some u ∧ u.settings = none := by
  refine ⟨⟨_, rfl, ⟨_, rfl, rfl⟩, ?_⟩, _, rfl, rfl, _, rfl, rfl⟩
  rintro ⟨newer, p, older, split_, -, -, current, -⟩
  have puts : [(⟨"/dercap", 1, 0⟩ : Put Nat)] = newer ++ p :: older := split_
  have listed : p ∈ [(⟨"/dercap", 1, 0⟩ : Put Nat)] :=
    puts ▸ List.mem_append_right newer List.mem_cons_self
  cases List.mem_singleton.mp listed
  cases current

end Py20305.DerResources
