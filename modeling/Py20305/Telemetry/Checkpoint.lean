import Mathlib.Data.Nat.Digits.Lemmas
import Mathlib.Data.String.Basic
import Py20305.Telemetry.CheckpointData
import Py20305.Telemetry.OwnType

/-!
The checkpoint of the telemetry manager (`to_checkpoint` and `restore_from_checkpoint` of
`telemetry/manager.py`).

A new manager that restores a checkpoint and starts every device has what the old one had
(`Sound.roundTrips`), unless a device of the old one has no registrations of its own and a restored
checkpoint has some for it: these are written instead (`Sound.settled_of_roundTrips`). Data of any
other shape raises nothing (`restoreFromCheckpoint_keeps`).

Left out: the warnings.
-/

namespace Py20305.Telemetry

open Security (isHex hexValue decimalDigits)

/-! ### The manager -/

/-- `PowerDirection.value`. -/
def PowerDirection.value : PowerDirection → String
  | default => "default"
  | net => "net"
  | split => "split"

/-- How a manager posts, with `hashlib.sha256` and `str.lower`, which is known in ASCII. -/
structure Settings where
  profile : ReadingProfile
  powerDirection : PowerDirection
  sha256 : String → HexDigest
  lower : String → String
  lower_ascii : ∀ text : String, (∀ c ∈ text.toList, c.toNat < 128) → lower text = text.toLower

def Settings.scheme (s : Settings) (lfdi : Lfdi) : Scheme where
  sha256 text := (s.sha256 text).digits
  lfdi := lfdi
  profile := s.profile
  powerDirection := s.powerDirection

/-- `mup_mrid`, of any text. `None` is a `ValueError`. -/
def Settings.mupMrid (s : Settings) (lfdi : String) : Option Bytes := do
  let lfdi := (s.lower lfdi).toList
  let base ← intBase16 (lfdi.take 9)
  -- a minus is no digit of the check digit's sum
  if base < 0 then none
  else
    let digits := decimalDigits base.toNat
    let check := (10 - digits.sum % 10) % 10
    let sfdi := digits ++ decimalDigits check
    let padded := List.replicate (12 - sfdi.length) 0 ++ sfdi
    bytesFromHex (padded.map hexChar ++ '0' :: lfdi.take 11 ++
      (fixedDigits 16 8 defaultPen).map hexChar)

/-- `TelemetryManager`: its devices and the registrations it restored. -/
structure TelemetryManager where
  devices : Dict Lfdi DeviceTelemetryState
  restored : Dict Lfdi Registered

namespace TelemetryManager

def fresh : TelemetryManager := ⟨Dict.empty, Dict.empty⟩

variable (s : Settings) (m : TelemetryManager)

/-- `start_metering`. -/
def startMetering (lfdi : Lfdi) (role : DeviceRole) (logEventListHref : Option Href) :
    TelemetryManager :=
  { m with
    devices := m.devices.set (s.lower lfdi)
      (Telemetry.startMetering (m.devices.get? (s.lower lfdi))
        (m.restored.getD (s.lower lfdi) Dict.empty) role logEventListHref) }

/-- The registrations `to_checkpoint` writes, by device. -/
def written : Dict Lfdi Registered :=
  m.devices.entries.foldl
    (fun out device => if device.2.registered.keys.isEmpty then out
      else out.set device.1 device.2.registered) m.restored

/-- The devices of a checkpoint: those with registrations, sorted. -/
def listed : List (Lfdi × Registered) :=
  (m.written.entries.mergeSort fun a b => decide (a.1 ≤ b.1)).filter fun device =>
    !device.2.keys.isEmpty

def deviceJson (mupMrid : Bytes) (device : Lfdi × Registered) : Json :=
  .object
    [("lfdi", .text device.1),
      ("mup_mrid", .text (hexText mupMrid)),
      ("readings", .list (device.2.values.map readingToJson))]

def checkpointJson (devices : List Json) : Json :=
  .object
    [("version", .int 1),
      ("reading_profile", .text s.profile.name),
      ("power_direction", .text s.powerDirection.value),
      ("devices", .list devices)]

/-- A device with no mRID raises. -/
def writeDevice (device : Lfdi × Registered) : Except PyError Json :=
  match s.mupMrid device.1 with
  | none => .error (.valueError "non-hexadecimal number found in fromhex() arg")
  | some mupMrid => .ok (deviceJson mupMrid device)

/-- `to_checkpoint`. -/
def toCheckpoint : Except PyError Json := do
  let devices ← m.listed.mapM (writeDevice s)
  .ok (checkpointJson s devices)

/-- The loop over the readings of `_parse_device`. -/
def parseReadings : List Json → Registered → Except PyError Registered
  | [], registered => .ok registered
  | data :: rest, registered =>
      match readingFromJson data with
      | .ok reading => parseReadings rest (registered.set reading.mrid reading)
      | .error (.valueError _) => parseReadings rest registered
      | .error e => .error e

/-- `_parse_device`, from where the LFDI is known to have 40 characters. -/
def parseEntry (fields : List (String × Json)) (lfdi : String) :
    Except PyError (Lfdi × Registered) :=
  match s.mupMrid (s.lower lfdi) with
  | none => .error (.valueError "lfdi must be 40 hex characters")
  | some expected =>
      if (fields.lookup "mup_mrid").any (·.isText (hexText expected)) then
        match fields.lookup "readings" with
        | some (.list readings) => do
            let registered ← parseReadings readings Dict.empty
            if registered.keys.isEmpty then .error (.valueError "no usable readings")
            else .ok (s.lower lfdi, registered)
        | _ => .error (.valueError "readings must be a list")
      else .error (.valueError "the MirrorUsagePoint mRID does not belong to the device")

/-- `_parse_device`. -/
def parseDevice : Json → Except PyError (Lfdi × Registered)
  | .object fields =>
      match fields.lookup "lfdi" with
      | some (.text lfdi) =>
          if lfdi.length ≠ 40 then .error (.valueError "lfdi must be 40 hex characters")
          else parseEntry s fields lfdi
      | _ => .error (.valueError "lfdi must be 40 hex characters")
  | _ => .error (.valueError "a device entry must be an object")

/-- What `restore_from_checkpoint` does with a device that parses. -/
def restoreDevice (lfdi : Lfdi) (registered : Registered) : TelemetryManager where
  devices := m.devices.modify lfdi fun d =>
    if d.registered.keys.isEmpty then { d with registered := registered } else d
  restored := m.restored.set lfdi registered

/-- The loop of `restore_from_checkpoint`. -/
def restoreEntries (s : Settings) :
    List Json → TelemetryManager × Nat → Except PyError (TelemetryManager × Nat)
  | [], state => .ok state
  | entry :: rest, (m, count) =>
      match parseDevice s entry with
      | .ok (lfdi, registered) => restoreEntries s rest (m.restoreDevice lfdi registered, count + 1)
      | .error (.valueError _) => restoreEntries s rest (m, count)
      | .error e => .error e

/-- `restore_from_checkpoint`: the manager, and how many devices were restored. -/
def restoreFromCheckpoint (data : Json) : Except PyError (TelemetryManager × Nat) :=
  match data with
  | .object fields =>
      if (fields.lookup "version").any (·.isNumber 1) ∧
          (fields.lookup "reading_profile").any (·.isText s.profile.name) ∧
          (fields.lookup "power_direction").any (·.isText s.powerDirection.value) then
        match fields.lookup "devices" with
        | some (.list entries) => restoreEntries s entries (m, 0)
        | _ => .ok (m, 0)
      else .ok (m, 0)
  | _ => .ok (m, 0)

end TelemetryManager

/-! ### The mRIDs of a device -/

/-- A LFDI as the manager keeps it. -/
structure IsKey (lfdi : Lfdi) : Prop where
  valid : IsLfdi lfdi
  lower : lfdi.toLower = lfdi

theorem isHex_ascii {c : Char} (hex : isHex c = true) : c.toNat < 128 := by
  simp only [isHex, Char.isDigit, Bool.or_eq_true, Bool.and_eq_true, decide_eq_true_eq,
    Char.le_def, UInt32.le_iff_toNat_le] at hex
  have same : c.val.toNat = c.toNat := rfl
  simp at hex
  omega

theorem Settings.lower_lfdi (s : Settings) {lfdi : Lfdi} (valid : IsLfdi lfdi) :
    s.lower lfdi = lfdi.toLower :=
  s.lower_ascii lfdi fun c listed => isHex_ascii (valid.hex c listed)

theorem Settings.lower_key (s : Settings) {lfdi : Lfdi} (isKey : IsKey lfdi) :
    s.lower lfdi = lfdi := by
  rw [s.lower_lfdi isKey.valid, isKey.lower]

/-- The digits of a text of hexadecimal digits. -/
theorem readDigits_hex {text : List Char} (hex : ∀ c ∈ text, isHex c = true) (n : Nat) :
    readDigits true n text = some (text.foldl (fun n c => n * 16 + hexValue c) n) := by
  induction text generalizing n with
  | nil => rfl
  | cons c rest ih =>
      have digit := hex c List.mem_cons_self
      have other : c ≠ '_' := by
        rintro rfl
        revert digit
        decide
      rw [readDigits, if_neg other, if_pos digit, List.foldl_cons]
      exact ih (fun d listed => hex d (List.mem_cons_of_mem _ listed)) _

theorem intBase16_hex {first : Char} {rest : List Char}
    (hex : ∀ c ∈ first :: rest, isHex c = true) :
    intBase16 (first :: rest) = some ((number 16 ((first :: rest).map hexValue) : Nat) : ℤ) := by
  have digit := hex first List.mem_cons_self
  have others {c : Char} (other : isHex c = false) : first ≠ c := by
    rintro rfl
    rw [digit] at other
    cases other
  have stripped : ((first :: rest).dropWhile isSpace).rdropWhile isSpace = first :: rest := by
    rw [List.dropWhile_cons_of_neg (by rw [not_isSpace digit]; exact Bool.false_ne_true),
      List.rdropWhile_eq_self_iff]
    intro nonempty
    rw [not_isSpace (hex _ (List.getLast_mem nonempty))]
    exact Bool.false_ne_true
  have sign : unsigned (first :: rest) = (false, first :: rest) := by
    unfold unsigned
    split
    · rename_i same
      exact absurd (List.cons.inj same).1 (others (by decide))
    · rename_i same
      exact absurd (List.cons.inj same).1 (others (by decide))
    · rfl
  have plain : unprefixed (first :: rest) = first :: rest := by
    unfold unprefixed
    split
    · rename_i x more same
      obtain ⟨rfl, rfl⟩ := List.cons.inj same
      have second := hex x (List.mem_cons_of_mem _ List.mem_cons_self)
      rw [if_neg]
      rintro (rfl | rfl)
      · revert second
        decide
      · revert second
        decide
    · rfl
  have other : first ≠ '_' := others (by decide)
  have digits := readDigits_hex
    (fun c listed => hex c (List.mem_cons_of_mem first listed)) (0 * 16 + hexValue first)
  unfold intBase16
  rw [stripped, sign]
  simp only [plain, readDigits, if_neg other, if_pos digit, digits]
  simp [number, List.foldl_map]

theorem length_decimalDigits {n k : Nat} (pos : 0 < k) (small : n < 10 ^ k) :
    (decimalDigits n).length ≤ k := by
  unfold decimalDigits
  split
  · exact pos
  · rw [List.length_reverse]
    exact (Nat.digits_length_le_iff (by decide) n).mpr small

theorem decimalDigits_lt {n : Nat} : ∀ d ∈ decimalDigits n, d < 10 := by
  intro d listed
  unfold decimalDigits at listed
  split at listed
  · rw [List.mem_singleton.mp listed]
    decide
  · exact Nat.digits_lt_base (by decide) (List.mem_reverse.mp listed)

/-- A LFDI has the mRID of a MirrorUsagePoint. -/
theorem Settings.exists_mupMrid (s : Settings) {lfdi : Lfdi} (isKey : IsKey lfdi) :
    ∃ mrid, s.mupMrid lfdi = some mrid := by
  have hex : ∀ c ∈ lfdi.toList.take 9, isHex c = true := fun c listed =>
    isKey.valid.hex c (List.mem_of_mem_take listed)
  have count : (lfdi.toList.take 9).length = 9 :=
    List.length_take_of_le (by rw [isKey.valid.length]; decide)
  obtain ⟨first, rest, parted⟩ := List.exists_cons_of_length_eq_add_one count
  have base : intBase16 (lfdi.toList.take 9) =
      some ((number 16 ((lfdi.toList.take 9).map hexValue) : Nat) : ℤ) := by
    rw [parted] at hex ⊢
    exact intBase16_hex hex
  have small : number 16 ((lfdi.toList.take 9).map hexValue) < 10 ^ 11 :=
    (sfdiBase_lt isKey.valid).trans (by decide)
  generalize number 16 ((lfdi.toList.take 9).map hexValue) = n at base small
  unfold Settings.mupMrid
  rw [s.lower_key isKey]
  simp only [base, Option.bind_eq_bind, Option.bind_some, Int.toNat_natCast]
  rw [if_neg (by omega)]
  set check := (10 - (decimalDigits n).sum % 10) % 10 with checked
  have one : (decimalDigits check).length ≤ 1 :=
    length_decimalDigits (by decide) (by rw [checked]; omega)
  have eleven := length_decimalDigits (by decide) small
  apply exists_bytesFromHex
  · intro c listed
    simp only [List.mem_append, List.mem_map, List.mem_cons] at listed
    rcases listed with (⟨d, digit, rfl⟩ | rfl | part) | ⟨d, digit, rfl⟩
    · refine (hexChar_facts d ?_).1
      rcases digit with zero | sfdi | last
      · rw [(List.mem_replicate.mp zero).2]
        decide
      · exact (decimalDigits_lt d sfdi).trans (by decide)
      · exact (decimalDigits_lt d last).trans (by decide)
    · decide
    · exact isKey.valid.hex c (List.mem_of_mem_take part)
    · exact (hexChar_facts d (fixedDigits_lt (by decide) 8 _ d digit)).1
  · have eleven' : (lfdi.toList.take 11).length = 11 :=
      List.length_take_of_le (by rw [isKey.valid.length]; decide)
    simp only [List.length_append, List.length_map, List.length_replicate, List.length_cons,
      length_fixedDigits, eleven']
    omega

/-! ### What is registered can be read back -/

/-- `plan_registration` produced it, from nothing or from what it produced before. -/
inductive Planned (s : Settings) (lfdi : Lfdi) : Registered → Prop where
  | nothing : Planned s lfdi Dict.empty
  | plan {registered : Registered} (before : Planned s lfdi registered) (readings : List Reading)
      (declared : Option (List ReadingIdentity)) :
      Planned s lfdi ((s.scheme lfdi).planRegistration readings registered declared)

theorem number_mridDigits_lt {lfdi : Lfdi} {middle : List Nat} (isMiddle : IsMiddle middle) :
    number 16 (mridDigits lfdi middle) < 256 ^ 16 := by
  obtain ⟨length, hex⟩ := @mridDigits_hex lfdi _ isMiddle
  have bound := number_lt hex
  rw [length] at bound
  exact bound.trans_eq (by norm_num)

theorem createMrid_lt {lfdi : Lfdi} (isKey : IsKey lfdi) (slot : Nat) :
    createMrid lfdi slot < 256 ^ 16 := by
  have middle := slotDigits_isMiddle isKey.valid slot
  rw [isKey.lower] at middle
  unfold createMrid
  exact number_mridDigits_lt middle

theorem hashedMrid_lt (sha256 : String → HexDigest) (lfdi : Lfdi) (identity : ReadingIdentity)
    (salt : String) :
    hashedMrid (fun text => (sha256 text).digits) lfdi identity salt < 256 ^ 16 := by
  unfold hashedMrid
  exact number_mridDigits_lt (hashed_isMiddle (sha256 (hashedText lfdi identity salt)))

theorem mem_of_mem_keepFirst {seen : List Mrid} {posted : List Posted} {p : Posted}
    (kept : p ∈ keepFirst seen posted) : p ∈ posted := by
  induction posted generalizing seen with
  | nil => exact kept
  | cons first rest ih =>
      rw [keepFirst] at kept
      split at kept
      · exact List.mem_cons_of_mem _ (ih kept)
      · rcases List.mem_cons.mp kept with rfl | later
        · exact List.mem_cons_self
        · exact List.mem_cons_of_mem _ (ih later)

/-- A reading is posted under an mRID of 16 bytes. -/
theorem Settings.posted_mrid_lt (s : Settings) {lfdi : Lfdi} (isKey : IsKey lfdi)
    {readings : List Reading} {registered : Registered}
    {declared : Option (List ReadingIdentity)} {p : Posted}
    (listed : p ∈ (s.scheme lfdi).postedReadings readings registered declared) :
    p.mrid < 256 ^ 16 := by
  rw [Scheme.postedReadings, List.mem_mergeSort] at listed
  obtain ⟨r, -, position, rank, variant, rfl⟩ := mem_wanted (mem_of_mem_keepFirst listed)
  change (s.scheme lfdi).mrid _ r variant < _
  unfold Scheme.mrid
  split
  · exact createMrid_lt isKey _
  · exact hashedMrid_lt s.sha256 lfdi _ _

/-- What is registered is under its mRID and can be read back. -/
theorem Planned.readable {s : Settings} {lfdi : Lfdi} {registered : Registered}
    (planned : Planned s lfdi registered) (isKey : IsKey lfdi) :
    ∀ e ∈ registered.entries, e.2.mrid = e.1 ∧ Readable e.2 := by
  have both : Keyed registered ∧ ∀ mrid r, registered.get? mrid = some r → r.mrid < 256 ^ 16 := by
    induction planned with
    | nothing =>
        refine ⟨Keyed.empty, fun mrid r found => ?_⟩
        rw [Dict.get?_empty] at found
        cases found
    | plan before readings declared ih =>
        refine ⟨ih.1.planRegistration _ readings declared, fun mrid r found => ?_⟩
        rw [Scheme.planRegistration, Dict.get?_sortedBy] at found
        rcases get?_foldl_addReading found with old | ⟨p, posted, -, rfl⟩
        · exact ih.2 mrid r old
        · exact s.posted_mrid_lt isKey posted
  rintro ⟨mrid, r⟩ listed
  have found := (Dict.mem_entries_iff _ _ _).mp listed
  exact ⟨(both.1 mrid r found).1, (both.1 mrid r found).2, both.2 mrid r found⟩

namespace TelemetryManager

/-! ### Arbitrary data -/

section Arbitrary

variable (s : Settings) (m : TelemetryManager)

theorem parseReadings_ok (items : List Json) (registered : Registered) :
    ∃ result, parseReadings items registered = .ok result := by
  induction items generalizing registered with
  | nil => exact ⟨registered, rfl⟩
  | cons data rest ih =>
      rw [parseReadings]
      cases read : readingFromJson data with
      | ok reading => exact ih _
      | error e =>
          obtain ⟨text, rfl⟩ := readingFromJson_raises data e read
          exact ih _

theorem parseDevice_raises (data : Json) : ValueErrorsOnly (parseDevice s data) := by
  unfold parseDevice
  split
  · split
    · split
      · exact .raised _
      · unfold parseEntry
        split
        · exact .raised _
        split
        · split
          · rename_i readings _
            obtain ⟨registered, read⟩ := parseReadings_ok readings Dict.empty
            rw [read]
            change ValueErrorsOnly (if _ then _ else _)
            split
            · exact .raised _
            · exact .ok _
          · exact .raised _
        · exact .raised _
    · exact .raised _
  · exact .raised _

/-- The device keeps its registrations. -/
theorem restoreDevice_keeps {lfdi : Lfdi} {d : DeviceTelemetryState}
    (device : m.devices.get? lfdi = some d) (own : d.registered.keys.isEmpty = false)
    (other : Lfdi) (registered : Registered) :
    (m.restoreDevice other registered).devices.get? lfdi = some d := by
  rw [restoreDevice, Dict.get?_modify, device]
  split
  · rw [Option.map_some, own]
    rfl
  · rfl

theorem restoreEntries_keeps (entries : List Json) (count : Nat) :
    ∃ result, restoreEntries s entries (m, count) = .ok result ∧
      ∀ lfdi d, m.devices.get? lfdi = some d → d.registered.keys.isEmpty = false →
        result.1.devices.get? lfdi = some d := by
  induction entries generalizing m count with
  | nil => exact ⟨(m, count), rfl, fun _ _ device _ => device⟩
  | cons entry rest ih =>
      rw [restoreEntries]
      cases parsed : parseDevice s entry with
      | ok device =>
          obtain ⟨result, restored, kept⟩ := ih (m.restoreDevice device.1 device.2) (count + 1)
          exact ⟨result, restored, fun lfdi d found own =>
            kept lfdi d (m.restoreDevice_keeps found own _ _) own⟩
      | error e =>
          obtain ⟨text, rfl⟩ := parseDevice_raises s entry e parsed
          exact ih m count

/-- Whatever the data is, nothing is raised, and devices with registrations stay as they are. -/
theorem restoreFromCheckpoint_keeps (data : Json) :
    ∃ result, m.restoreFromCheckpoint s data = .ok result ∧
      ∀ lfdi d, m.devices.get? lfdi = some d → d.registered.keys.isEmpty = false →
        result.1.devices.get? lfdi = some d := by
  have same : ∃ result : TelemetryManager × Nat,
      (Except.ok (m, 0) : Except PyError (TelemetryManager × Nat)) = .ok result ∧
        ∀ lfdi d, m.devices.get? lfdi = some d → d.registered.keys.isEmpty = false →
          result.1.devices.get? lfdi = some d :=
    ⟨(m, 0), rfl, fun _ _ device _ => device⟩
  unfold restoreFromCheckpoint
  split
  · split
    · split
      · exact m.restoreEntries_keeps s _ 0
      · exact same
    · exact same
  · exact same

end Arbitrary

/-! ### Devices are read back -/

variable (s : Settings)

theorem parseReadings_readable {readings : List RegisteredReading}
    (readable : ∀ r ∈ readings, Readable r) (registered : Registered) :
    parseReadings (readings.map readingToJson) registered =
      .ok (readings.foldl (fun registered r => registered.set r.mrid r) registered) := by
  induction readings generalizing registered with
  | nil => rfl
  | cons r rest ih =>
      rw [List.map_cons, parseReadings, readingFromJson_toJson (readable r List.mem_cons_self)]
      exact ih (fun r' listed => readable r' (List.mem_cons_of_mem _ listed)) _

/-- Registrations put together again, in their order. -/
theorem foldl_set_values {registered : Registered}
    (keyed : ∀ e ∈ registered.entries, e.2.mrid = e.1) :
    registered.values.foldl (fun out r => out.set r.mrid r) Dict.empty = registered := by
  have same : registered.values.foldl (fun out r => out.set r.mrid r) Dict.empty =
      registered.entries.foldl (fun out e => out.set e.1 e.2) Dict.empty := by
    rw [Dict.values, List.foldl_map]
    refine List.foldl_ext _ _ _ fun out e listed => ?_
    rw [keyed e listed]
  rw [same]
  refine Dict.eq_of_entries ?_
  rw [Dict.entries_foldl_set_new]
  · rfl
  · exact registered.nodup

/-- A device of a checkpoint that another manager can read. -/
structure ReadableDevice (device : Lfdi × Registered) : Prop where
  isKey : IsKey device.1
  readings : ∀ e ∈ device.2.entries, e.2.mrid = e.1 ∧ Readable e.2
  nonempty : device.2.keys.isEmpty = false

theorem parseDevice_deviceJson {device : Lfdi × Registered} (readable : ReadableDevice device)
    {mrid : Bytes} (own : s.mupMrid device.1 = some mrid) :
    parseDevice s (deviceJson mrid device) = .ok device := by
  have lfdi : [("lfdi", Json.text device.1), ("mup_mrid", .text (hexText mrid)),
      ("readings", .list (device.2.values.map readingToJson))].lookup "lfdi" =
        some (.text device.1) := rfl
  have mupMrid : [("lfdi", Json.text device.1), ("mup_mrid", .text (hexText mrid)),
      ("readings", .list (device.2.values.map readingToJson))].lookup "mup_mrid" =
        some (.text (hexText mrid)) := rfl
  have readings : [("lfdi", Json.text device.1), ("mup_mrid", .text (hexText mrid)),
      ("readings", .list (device.2.values.map readingToJson))].lookup "readings" =
        some (.list (device.2.values.map readingToJson)) := rfl
  have length : ¬ device.1.length ≠ 40 := by
    rw [← String.length_toList, readable.isKey.valid.length]
    decide
  have each : ∀ r ∈ device.2.values, Readable r := by
    intro r listed
    obtain ⟨e, within, rfl⟩ := List.mem_map.mp listed
    exact (readable.readings e within).2
  have lower := s.lower_key readable.isKey
  rw [deviceJson, parseDevice, lfdi]
  simp only [if_neg length, parseEntry, lower, own, mupMrid, readings, Option.any_some,
    Json.isText, decide_true, if_true, parseReadings_readable each]
  rw [foldl_set_values fun e within => (readable.readings e within).1]
  simp only [bind, Except.bind, readable.nonempty]
  rfl

theorem mapM_ok {α β ε : Type} {f : α → Except ε β} {g : α → β} {xs : List α}
    (each : ∀ x ∈ xs, f x = .ok (g x)) : xs.mapM f = .ok (xs.map g) := by
  induction xs with
  | nil => rfl
  | cons x rest ih =>
      rw [List.mapM_cons, each x List.mem_cons_self,
        ih fun y listed => each y (List.mem_cons_of_mem _ listed)]
      rfl

/-- A device, as it is written. -/
def deviceData (device : Lfdi × Registered) : Json :=
  deviceJson ((s.mupMrid device.1).getD []) device

theorem parseDevice_deviceData {device : Lfdi × Registered} (readable : ReadableDevice device) :
    parseDevice s (deviceData s device) = .ok device := by
  obtain ⟨mrid, own⟩ := s.exists_mupMrid readable.isKey
  rw [deviceData, own, Option.getD_some]
  exact parseDevice_deviceJson s readable own

theorem toCheckpoint_eq {m : TelemetryManager}
    (readable : ∀ device ∈ m.listed, ReadableDevice device) :
    m.toCheckpoint s = .ok (checkpointJson s (m.listed.map (deviceData s))) := by
  have each : ∀ device ∈ m.listed, writeDevice s device = .ok (deviceData s device) := by
    intro device listed
    obtain ⟨mrid, own⟩ := s.exists_mupMrid (readable device listed).isKey
    rw [writeDevice, deviceData, own]
    rfl
  rw [toCheckpoint, mapM_ok each]
  rfl

/-- Every device of a checkpoint is restored. -/
theorem restoreEntries_readable {devices : List (Lfdi × Registered)}
    (readable : ∀ device ∈ devices, ReadableDevice device) (m : TelemetryManager) (count : Nat) :
    restoreEntries s (devices.map (deviceData s)) (m, count) =
      .ok (devices.foldl (fun m device => m.restoreDevice device.1 device.2) m,
        count + devices.length) := by
  induction devices generalizing m count with
  | nil => rfl
  | cons device rest ih =>
      rw [List.map_cons, restoreEntries,
        parseDevice_deviceData s (readable device List.mem_cons_self)]
      change restoreEntries s _ (m.restoreDevice device.1 device.2, count + 1) = _
      rw [ih fun d listed => readable d (List.mem_cons_of_mem _ listed), List.foldl_cons,
        List.length_cons]
      congr 2
      omega

theorem restoreFromCheckpoint_checkpointJson (m : TelemetryManager) (devices : List Json) :
    m.restoreFromCheckpoint s (checkpointJson s devices) = restoreEntries s devices (m, 0) := by
  have profile : [("version", Json.int 1), ("reading_profile", .text s.profile.name),
      ("power_direction", .text s.powerDirection.value), ("devices", .list devices)].lookup
        "reading_profile" = some (.text s.profile.name) := rfl
  have direction : [("version", Json.int 1), ("reading_profile", .text s.profile.name),
      ("power_direction", .text s.powerDirection.value), ("devices", .list devices)].lookup
        "power_direction" = some (.text s.powerDirection.value) := rfl
  have version : [("version", Json.int 1), ("reading_profile", .text s.profile.name),
      ("power_direction", .text s.powerDirection.value), ("devices", .list devices)].lookup
        "version" = some (.int 1) := rfl
  have list : [("version", Json.int 1), ("reading_profile", .text s.profile.name),
      ("power_direction", .text s.powerDirection.value), ("devices", .list devices)].lookup
        "devices" = some (.list devices) := rfl
  rw [checkpointJson, restoreFromCheckpoint, profile, direction, version, list, if_pos]
  simp [Json.isText, Json.isNumber]

/-! ### What is written -/

theorem get?_written_foldl (devices : List (Lfdi × DeviceTelemetryState))
    (distinct : (devices.map Prod.fst).Nodup) (out : Dict Lfdi Registered) (lfdi : Lfdi) :
    (devices.foldl (fun out device => if device.2.registered.keys.isEmpty then out
        else out.set device.1 device.2.registered) out).get? lfdi =
      match Dict.lookupEntry lfdi devices with
      | some d => if d.registered.keys.isEmpty then out.get? lfdi else some d.registered
      | none => out.get? lfdi := by
  induction devices generalizing out with
  | nil => rfl
  | cons device rest ih =>
      obtain ⟨first, d⟩ := device
      rw [List.map_cons, List.nodup_cons] at distinct
      rw [List.foldl_cons, ih distinct.2]
      by_cases same : first = lfdi
      · subst same
        have absent : Dict.lookupEntry first rest = none :=
          (Dict.lookupEntry_eq_none_iff first rest).mpr distinct.1
        simp only [absent, Dict.lookupEntry, if_true]
        split
        · rfl
        · rw [Dict.get?_set_self]
      · have other : lfdi ≠ first := fun h => same h.symm
        have kept : (if d.registered.keys.isEmpty then out else out.set first d.registered).get?
            lfdi = out.get? lfdi := by
          split
          · rfl
          · rw [Dict.get?_set_ne _ _ other]
        simp only [Dict.lookupEntry, if_neg same, kept]

/-- A device's own registrations are written, or those restored for it. -/
theorem get?_written (m : TelemetryManager) (lfdi : Lfdi) :
    m.written.get? lfdi =
      match m.devices.get? lfdi with
      | some d => if d.registered.keys.isEmpty then m.restored.get? lfdi else some d.registered
      | none => m.restored.get? lfdi :=
  get?_written_foldl m.devices.entries m.devices.nodup m.restored lfdi

/-- The devices that are written, as a dictionary. -/
def listedDict (m : TelemetryManager) : Dict Lfdi Registered :=
  (m.written.sortedBy fun a b => decide (a.1 ≤ b.1)).filter fun _ registered =>
    !registered.keys.isEmpty

theorem listedDict_entries (m : TelemetryManager) : m.listedDict.entries = m.listed := rfl

theorem get?_listedDict (m : TelemetryManager) (lfdi : Lfdi) :
    m.listedDict.get? lfdi =
      (m.written.get? lfdi).filter fun registered => !registered.keys.isEmpty := by
  rw [listedDict, Dict.get?_filter, Dict.get?_sortedBy]

/-- Registrations that `plan_registration` produced, of devices with a LFDI. -/
structure Sound (m : TelemetryManager) : Prop where
  devices : ∀ lfdi d, m.devices.get? lfdi = some d → IsKey lfdi ∧ Planned s lfdi d.registered
  restored : ∀ lfdi registered, m.restored.get? lfdi = some registered →
    IsKey lfdi ∧ Planned s lfdi registered

theorem Sound.planned {s : Settings} {m : TelemetryManager} (sound : m.Sound s) :
    ∀ device ∈ m.listed, IsKey device.1 ∧ Planned s device.1 device.2 ∧
      device.2.keys.isEmpty = false := by
  rintro ⟨lfdi, registered⟩ listed
  have found : m.listedDict.get? lfdi = some registered :=
    (Dict.mem_entries_iff _ _ _).mp (m.listedDict_entries ▸ listed)
  rw [get?_listedDict, Option.filter_eq_some_iff] at found
  have planned : IsKey lfdi ∧ Planned s lfdi registered := by
    have written := found.1
    rw [get?_written] at written
    split at written
    · rename_i d device
      split at written
      · exact sound.restored lfdi registered written
      · cases written
        exact sound.devices lfdi d device
    · exact sound.restored lfdi registered written
  exact ⟨planned.1, planned.2, by simpa using found.2⟩

theorem Sound.readable {s : Settings} {m : TelemetryManager} (sound : m.Sound s) :
    ∀ device ∈ m.listed, ReadableDevice device := by
  intro device listed
  obtain ⟨isKey, planned, nonempty⟩ := sound.planned device listed
  exact ⟨isKey, planned.readable isKey, nonempty⟩

/-- A new manager restores what is written. -/
theorem restore_written {m : TelemetryManager} (sound : m.Sound s) :
    fresh.restoreFromCheckpoint s (checkpointJson s (m.listed.map (deviceData s))) =
      .ok (⟨Dict.empty, m.listedDict⟩, m.listed.length) := by
  have restores : ∀ (devices : List (Lfdi × Registered)) (restored : Dict Lfdi Registered),
      devices.foldl (fun m device => TelemetryManager.restoreDevice m device.1 device.2)
          ⟨Dict.empty, restored⟩ =
        ⟨Dict.empty, devices.foldl (fun out device => out.set device.1 device.2) restored⟩ := by
    intro devices
    induction devices with
    | nil => intro restored; rfl
    | cons device rest ih => intro restored; exact ih _
  have together : m.listed.foldl (fun out device => out.set device.1 device.2) Dict.empty =
      m.listedDict := by
    refine Dict.eq_of_entries ?_
    rw [← listedDict_entries, Dict.entries_foldl_set_new]
    · rfl
    · exact m.listedDict.nodup
  rw [restoreFromCheckpoint_checkpointJson, restoreEntries_readable s sound.readable, fresh,
    restores, together, Nat.zero_add]

/-! ### Starting the devices -/

/-- `start_metering`, of one device after the other. -/
def startAll (m : TelemetryManager) (order : List (Lfdi × DeviceRole × Option Href)) :
    TelemetryManager :=
  order.foldl (fun m device => m.startMetering s device.1 device.2.1 device.2.2) m

/-- Every device has what was restored for it. -/
structure Restored (restored : Dict Lfdi Registered) (m : TelemetryManager) : Prop where
  same : m.restored = restored
  registered : ∀ lfdi d, m.devices.get? lfdi = some d →
    d.mupPosted = false ∧ d.registered = restored.getD lfdi Dict.empty

theorem Restored.startMetering {restored : Dict Lfdi Registered} {m : TelemetryManager}
    (isRestored : Restored restored m) (lfdi : Lfdi) (role : DeviceRole)
    (logEventListHref : Option Href) :
    Restored restored (m.startMetering s lfdi role logEventListHref) := by
  refine ⟨isRestored.same, fun other d found => ?_⟩
  rw [TelemetryManager.startMetering, Dict.get?_set] at found
  split at found
  · rename_i same
    subst same
    rw [Option.some.injEq] at found
    rw [← found, isRestored.same]
    -- the old state, if there is one, has no MUP, so nothing of it is carried over
    have plain : ∀ existing, m.devices.get? (s.lower lfdi) = existing →
        (carriedOver existing role logEventListHref).registered = Dict.empty ∧
          (carriedOver existing role logEventListHref).mupPosted = false := by
      intro existing known
      cases existing with
      | none => exact ⟨rfl, rfl⟩
      | some old =>
          have unposted := (isRestored.registered _ old known).1
          simp only [carriedOver, unposted]
          exact ⟨rfl, rfl⟩
    obtain ⟨empty, unposted⟩ := plain _ rfl
    unfold Telemetry.startMetering
    dsimp only
    rw [empty]
    exact ⟨unposted, rfl⟩
  · exact isRestored.registered other d found

theorem Restored.startAll {restored : Dict Lfdi Registered} {m : TelemetryManager}
    (isRestored : Restored restored m) (order : List (Lfdi × DeviceRole × Option Href)) :
    Restored restored (m.startAll s order) := by
  induction order generalizing m with
  | nil => exact isRestored
  | cons device rest ih => exact ih (isRestored.startMetering s _ _ _)

theorem mem_keys_startAll (m : TelemetryManager) (order : List (Lfdi × DeviceRole × Option Href))
    (lfdi : Lfdi) : lfdi ∈ (m.startAll s order).devices.keys ↔
      lfdi ∈ m.devices.keys ∨ lfdi ∈ order.map fun device => s.lower device.1 := by
  induction order generalizing m with
  | nil => simp [startAll]
  | cons device rest ih =>
      rw [startAll, List.foldl_cons, ← startAll, ih, startMetering, Dict.mem_keys_set,
        List.map_cons, List.mem_cons]
      tauto

/-- Devices that have what was restored for them are written as they were restored. -/
theorem Restored.written {restored : Dict Lfdi Registered} {m : TelemetryManager}
    (isRestored : Restored restored m) : m.written = restored := by
  have each : ∀ device ∈ m.devices.entries, device.2.registered.keys.isEmpty = false →
      restored.get? device.1 = some device.2.registered := by
    rintro ⟨lfdi, d⟩ listed own
    have known := (Dict.mem_entries_iff _ _ _).mp listed
    have mine := (isRestored.registered lfdi d known).2
    rw [Dict.getD] at mine
    cases found : restored.get? lfdi with
    | some registered => rw [mine, found]; rfl
    | none =>
        rw [found] at mine
        rw [mine] at own
        cases own
  rw [TelemetryManager.written, isRestored.same]
  generalize m.devices.entries = devices at each
  induction devices with
  | nil => rfl
  | cons device rest ih =>
      have later := ih fun other listed => each other (List.mem_cons_of_mem _ listed)
      rw [List.foldl_cons]
      split
      · exact later
      · rename_i own
        rw [Dict.set_get?_self _ (each device List.mem_cons_self (by simpa using own))]
        exact later

/-- What is written is sorted, and no device of it is without registrations. -/
theorem listed_of_written {m m' : TelemetryManager} (same : m'.written = m.listedDict) :
    m'.listed = m.listed := by
  have sorted : m.listed.Pairwise fun a b => decide (a.1 ≤ b.1) = true := by
    refine (List.pairwise_mergeSort ?_ ?_ m.written.entries).filter _
    · intro a b c first second
      rw [decide_eq_true_eq] at first second ⊢
      exact le_trans first second
    · intro a b
      rw [Bool.or_eq_true, decide_eq_true_eq, decide_eq_true_eq]
      exact le_total a.1 b.1
  rw [listed, same, listedDict_entries, List.mergeSort_of_pairwise sorted, List.filter_eq_self]
  intro device within
  exact (List.mem_filter.mp within).2

/-! ### Round trips -/

/-- A device without registrations of its own has none restored for it. -/
def Settled (m : TelemetryManager) : Prop :=
  ∀ lfdi d registered, m.devices.get? lfdi = some d → d.registered.keys.isEmpty = true →
    m.restored.get? lfdi = some registered → registered.keys.isEmpty = true

/-- A new manager that restores the checkpoint and starts the devices, in any order, has for each
of them the same registrations, and writes the same checkpoint. -/
def RoundTrips (m : TelemetryManager) : Prop :=
  ∃ data restored count, m.toCheckpoint s = .ok data ∧
    fresh.restoreFromCheckpoint s data = .ok (restored, count) ∧
    ∀ order : List (Lfdi × DeviceRole × Option Href),
      (∀ lfdi, lfdi ∈ (order.map fun device => s.lower device.1) ↔ lfdi ∈ m.devices.keys) →
      (∀ lfdi d, m.devices.get? lfdi = some d →
        ∃ d', (restored.startAll s order).devices.get? lfdi = some d' ∧
          d'.registered = d.registered) ∧
      (restored.startAll s order).toCheckpoint s = .ok data

theorem eq_empty_of_isEmpty {registered : Registered} (empty : registered.keys.isEmpty = true) :
    registered = Dict.empty := by
  refine Dict.eq_of_entries ?_
  exact List.map_eq_nil_iff.mp (List.isEmpty_iff.mp empty)

/-- What a device has after a restart. -/
theorem started_registered {m : TelemetryManager}
    {order : List (Lfdi × DeviceRole × Option Href)}
    (every : ∀ lfdi, lfdi ∈ (order.map fun device => s.lower device.1) ↔ lfdi ∈ m.devices.keys)
    {lfdi : Lfdi} {d : DeviceTelemetryState} (device : m.devices.get? lfdi = some d) :
    ∃ d', (startAll s ⟨Dict.empty, m.listedDict⟩ order).devices.get? lfdi = some d' ∧
      d'.registered = m.listedDict.getD lfdi Dict.empty := by
  have start : Restored m.listedDict ⟨Dict.empty, m.listedDict⟩ := by
    refine ⟨rfl, fun lfdi d found => ?_⟩
    rw [Dict.get?_empty] at found
    cases found
  have started : lfdi ∈ (startAll s ⟨Dict.empty, m.listedDict⟩ order).devices.keys :=
    (mem_keys_startAll s _ order lfdi).mpr
      (.inr ((every lfdi).mpr ((Dict.mem_keys_iff _ _).mpr ⟨d, device⟩)))
  obtain ⟨d', found⟩ := (Dict.mem_keys_iff _ _).mp started
  exact ⟨d', found, ((start.startAll s order).registered lfdi d' found).2⟩

theorem Sound.roundTrips {s : Settings} {m : TelemetryManager} (sound : m.Sound s)
    (settled : m.Settled) : m.RoundTrips s := by
  refine ⟨_, _, _, toCheckpoint_eq s sound.readable, restore_written s sound, ?_⟩
  intro order every
  constructor
  · intro lfdi d device
    obtain ⟨d', found, same⟩ := started_registered s every device
    refine ⟨d', found, same.trans ?_⟩
    rw [Dict.getD, get?_listedDict, get?_written, device]
    dsimp only
    cases own : d.registered.keys.isEmpty with
    | false =>
        rw [if_neg Bool.false_ne_true, Option.filter_some, if_pos (by rw [own]; rfl)]
        rfl
    | true =>
        rw [if_pos rfl, eq_empty_of_isEmpty own]
        cases restored : m.restored.get? lfdi with
        | none => rfl
        | some registered =>
            have none := settled lfdi d registered device own restored
            rw [Option.filter_some, if_neg (by rw [none]; exact Bool.false_ne_true)]
            rfl
  · have start : Restored m.listedDict ⟨Dict.empty, m.listedDict⟩ := by
      refine ⟨rfl, fun lfdi d found => ?_⟩
      rw [Dict.get?_empty] at found
      cases found
    have same := listed_of_written (start.startAll s order).written
    rw [← same]
    exact toCheckpoint_eq s (same ▸ sound.readable)

/-- Where restored registrations are written for a device that has none, they come back. -/
theorem Sound.settled_of_roundTrips {s : Settings} {m : TelemetryManager} (sound : m.Sound s)
    (trips : m.RoundTrips s) : m.Settled := by
  obtain ⟨data, restored, count, written, read, started⟩ := trips
  rw [toCheckpoint_eq s sound.readable] at written
  cases written
  rw [restore_written s sound] at read
  cases read
  have every : ∀ lfdi, lfdi ∈ ((m.devices.keys.map fun key => (key, DeviceRole.der, none)).map
      fun device : Lfdi × DeviceRole × Option Href => s.lower device.1) ↔
        lfdi ∈ m.devices.keys := by
    have lowered : ((m.devices.keys.map fun key => (key, DeviceRole.der, none)).map
        fun device : Lfdi × DeviceRole × Option Href => s.lower device.1) = m.devices.keys := by
      rw [List.map_map]
      refine (List.map_congr_left (g := id) fun key listed => ?_).trans (List.map_id _)
      obtain ⟨d, device⟩ := (Dict.mem_keys_iff _ _).mp listed
      exact s.lower_key (sound.devices key d device).1
    rw [lowered]
    exact fun _ => Iff.rfl
  intro lfdi d registered device own restored
  obtain ⟨d₁, found, same⟩ := (started _ every).1 lfdi d device
  obtain ⟨d₂, found', mine⟩ := started_registered s every device
  rw [found] at found'
  cases found'
  by_contra some_registered
  rw [Bool.not_eq_true] at some_registered
  rw [same, eq_empty_of_isEmpty own, Dict.getD, get?_listedDict, get?_written, device] at mine
  simp only [own, if_true, restored, Option.filter_some, some_registered, Bool.not_false,
    Option.getD_some] at mine
  rw [← mine] at some_registered
  cases some_registered

end TelemetryManager

end Py20305.Telemetry
