import Py20305.Lib.Dict
import Py20305.Sep.Resources

/-!
Discovered resource state (`client/state.py`).

`DeviceMapping` holds the program-to-device relation twice, once per direction.
The two dictionaries are plain data in the source, so the agreement between
them is the predicate `DeviceMapping.Synced`; `add` and `removeProgram` keep it
(`synced_add`, `synced_removeProgram`) and then act on the relation as on a set
of pairs (`related_add`, `related_removeProgram`).
-/

namespace Py20305

/-- `EndDeviceState`, as far as control dispatch and the FSA walk read it. -/
structure EndDeviceState where
  device : EndDevice
  lfdi : Lfdi
  fsaList : List FunctionSetAssignments

/-- `DerProgramState`. -/
structure DerProgramState where
  program : Derprogram
  href : Href
  primacy : Nat
  defaultDercontrol : Option DefaultDercontrol := none
  derControls : List Dercontrol := []
  discoveredFromFsaHref : Option Href := none
  derControlsComplete : Bool := false

/-! ### The device mapping -/

/-- `DeviceMapping`: both directions, in discovery order. -/
structure DeviceMapping where
  programToDevices : Dict Href (List Href)
  deviceToPrograms : Dict Href (List Href)

namespace DeviceMapping

/-- A mapping with no pair. -/
def empty : DeviceMapping := ⟨Dict.empty, Dict.empty⟩

/-- `program_to_devices.get(p, [])`. -/
def devices (m : DeviceMapping) (p : Href) : List Href := m.programToDevices.getD p []

/-- `device_to_programs.get(d, [])`. -/
def programs (m : DeviceMapping) (d : Href) : List Href := m.deviceToPrograms.getD d []

/-- `DeviceMapping.add`: adding a pair twice adds it once. -/
def add (m : DeviceMapping) (p d : Href) : DeviceMapping :=
  if p ∈ m.programs d then m
  else
    { programToDevices := m.programToDevices.set p (m.devices p ++ [d])
      deviceToPrograms := m.deviceToPrograms.set d (m.programs d ++ [p]) }

/-- `DeviceMapping.remove_program`. -/
def removeProgram (m : DeviceMapping) (p : Href) : DeviceMapping where
  programToDevices := m.programToDevices.erase p
  deviceToPrograms := (m.devices p).foldl
    (fun d2p d => d2p.modify d (fun progs => progs.erase p)) m.deviceToPrograms

/-- The two directions list the same pairs, and no program twice for a device. -/
structure Synced (m : DeviceMapping) : Prop where
  agree : ∀ p d, d ∈ m.devices p ↔ p ∈ m.programs d
  nodup : ∀ d, (m.programs d).Nodup

/-- `p` and `d` are related, read in either direction. -/
def Related (m : DeviceMapping) (p d : Href) : Prop := d ∈ m.devices p ∧ p ∈ m.programs d

instance (m : DeviceMapping) (p d : Href) : Decidable (m.Related p d) :=
  inferInstanceAs (Decidable (d ∈ m.devices p ∧ p ∈ m.programs d))

theorem Synced.related_iff_programs {m : DeviceMapping} (synced : m.Synced) (p d : Href) :
    m.Related p d ↔ p ∈ m.programs d :=
  ⟨fun h => h.2, fun h => ⟨(synced.agree p d).mpr h, h⟩⟩

@[simp] theorem devices_empty (p : Href) : empty.devices p = [] := rfl

@[simp] theorem programs_empty (d : Href) : empty.programs d = [] := rfl

theorem synced_empty : empty.Synced := ⟨by simp, by simp⟩

/-! ### Adding a pair -/

theorem add_of_new {m : DeviceMapping} {p d : Href} (new : p ∉ m.programs d) :
    m.add p d =
      { programToDevices := m.programToDevices.set p (m.devices p ++ [d])
        deviceToPrograms := m.deviceToPrograms.set d (m.programs d ++ [p]) } :=
  if_neg new

theorem devices_add (m : DeviceMapping) (p d q : Href) :
    (m.add p d).devices q =
      if q = p ∧ p ∉ m.programs d then m.devices q ++ [d] else m.devices q := by
  by_cases known : p ∈ m.programs d
  · simp [add, known]
  · rw [add_of_new known]
    by_cases same : q = p
    · simp [known, same, devices, Dict.getD]
    · simp [same, devices, Dict.getD, Dict.get?_set_ne]

theorem programs_add (m : DeviceMapping) (p d e : Href) :
    (m.add p d).programs e =
      if e = d ∧ p ∉ m.programs d then m.programs e ++ [p] else m.programs e := by
  by_cases known : p ∈ m.programs d
  · simp [add, known]
  · rw [add_of_new known, if_congr (and_iff_left known) rfl rfl]
    unfold programs Dict.getD
    rw [Dict.get?_set]
    split
    · rename_i same
      simp [same]
    · rfl

theorem add_of_related {m : DeviceMapping} {p d : Href} (h : m.Related p d) : m.add p d = m :=
  if_pos h.2

theorem mem_programs_add (m : DeviceMapping) (p d q e : Href) :
    q ∈ (m.add p d).programs e ↔ q ∈ m.programs e ∨ (q = p ∧ e = d) := by
  rw [programs_add]
  split
  · rename_i h
    simp [h.1]
  · rename_i h
    constructor
    · exact Or.inl
    · rintro (h' | ⟨rfl, rfl⟩)
      · exact h'
      · by_contra absent
        exact h ⟨rfl, absent⟩

theorem synced_add {m : DeviceMapping} (synced : m.Synced) (p d : Href) : (m.add p d).Synced where
  agree := by
    intro q e
    rw [mem_programs_add, devices_add, ← synced.agree q e]
    split
    · rename_i h
      simp only [List.mem_append, List.mem_singleton, h.1, true_and]
    · rename_i h
      constructor
      · exact Or.inl
      · rintro (h' | ⟨rfl, rfl⟩)
        · exact h'
        · by_contra absent
          exact h ⟨rfl, fun known => absent ((synced.agree q e).mpr known)⟩
  nodup := by
    intro e
    rw [programs_add]
    split
    · rename_i h
      rw [h.1]
      exact List.nodup_append.mpr ⟨synced.nodup d, List.nodup_singleton _, by
        rintro a ha b hb rfl
        exact h.2 (List.mem_singleton.mp hb ▸ ha)⟩
    · exact synced.nodup e

/-- `add` inserts one pair into the relation. -/
theorem related_add {m : DeviceMapping} (synced : m.Synced) (p d q e : Href) :
    (m.add p d).Related q e ↔ m.Related q e ∨ (q = p ∧ e = d) := by
  rw [(synced_add synced p d).related_iff_programs, synced.related_iff_programs, mem_programs_add]

/-! ### Removing a program -/

theorem devices_removeProgram (m : DeviceMapping) (p q : Href) :
    (m.removeProgram p).devices q = if q = p then [] else m.devices q := by
  unfold removeProgram devices Dict.getD
  rw [Dict.get?_erase]
  split <;> simp

/-- Erasing `p` from the program list of each device in `ds`. -/
theorem getD_foldl_erase (p e : Href) (ds : List Href) (d2p : Dict Href (List Href)) :
    ((ds.foldl (fun d2p d => d2p.modify d (fun progs => progs.erase p)) d2p).getD e []) =
      if e ∈ ds then ds.foldl (fun progs d => if d = e then progs.erase p else progs)
        (d2p.getD e []) else d2p.getD e [] := by
  induction ds generalizing d2p with
  | nil => simp
  | cons d rest ih =>
      have step : (d2p.modify d fun progs => progs.erase p).getD e [] =
          if d = e then (d2p.getD e []).erase p else d2p.getD e [] := by
        unfold Dict.getD
        rw [Dict.get?_modify]
        by_cases same : e = d
        · subst same
          cases d2p.get? e <;> simp
        · have other : ¬ d = e := fun h => same h.symm
          simp [same, other]
      rw [List.foldl_cons, ih, step]
      by_cases later : e ∈ rest
      · simp [later]
      · by_cases same : d = e
        · have tail : ∀ progs : List Href,
              rest.foldl (fun progs d => if d = e then progs.erase p else progs) progs = progs := by
            intro progs
            have unrelated : ∀ d ∈ rest, d ≠ e := fun d hd h => later (h ▸ hd)
            clear ih step later
            induction rest generalizing progs with
            | nil => rfl
            | cons x xs ihx =>
                rw [List.foldl_cons, if_neg (unrelated x List.mem_cons_self)]
                exact ihx progs fun d hd => unrelated d (List.mem_cons_of_mem _ hd)
          simp [later, same, tail]
        · have other : ¬ e = d := fun h => same h.symm
          simp [later, same, other]

theorem foldl_erase_of_nodup {p e : Href} (ds : List Href) {progs : List Href}
    (distinct : progs.Nodup) (q : Href) :
    q ∈ ds.foldl (fun progs d => if d = e then progs.erase p else progs) progs ↔
      q ∈ progs ∧ (e ∈ ds → q ≠ p) := by
  induction ds generalizing progs with
  | nil => simp
  | cons d rest ih =>
      by_cases same : d = e
      · subst same
        rw [List.foldl_cons, if_pos rfl, ih (distinct.erase p), distinct.mem_erase_iff]
        simp only [List.mem_cons, true_or, true_implies]
        tauto
      · have other : ¬ e = d := fun h => same h.symm
        rw [List.foldl_cons, if_neg same, ih distinct]
        simp [other]

theorem nodup_foldl_erase {p e : Href} (ds : List Href) {progs : List Href}
    (distinct : progs.Nodup) :
    (ds.foldl (fun progs d => if d = e then progs.erase p else progs) progs).Nodup := by
  induction ds generalizing progs with
  | nil => exact distinct
  | cons d rest ih =>
      rw [List.foldl_cons]
      split
      · exact ih (distinct.erase p)
      · exact ih distinct

theorem mem_programs_removeProgram {m : DeviceMapping} (synced : m.Synced) (p q e : Href) :
    q ∈ (m.removeProgram p).programs e ↔ q ∈ m.programs e ∧ q ≠ p := by
  have known : m.deviceToPrograms.getD e [] = m.programs e := rfl
  unfold removeProgram programs
  rw [getD_foldl_erase]
  split
  · rename_i listed
    rw [known, foldl_erase_of_nodup _ (synced.nodup e)]
    simp [listed]
  · rename_i unlisted
    rw [known]
    constructor
    · intro h
      refine ⟨h, ?_⟩
      rintro rfl
      exact unlisted ((synced.agree q e).mpr h)
    · exact fun h => h.1

theorem synced_removeProgram {m : DeviceMapping} (synced : m.Synced) (p : Href) :
    (m.removeProgram p).Synced where
  agree := by
    intro q e
    rw [mem_programs_removeProgram synced, devices_removeProgram, ← synced.agree q e]
    split
    · rename_i same
      simp [same]
    · rename_i other
      simp [other]
  nodup := by
    intro e
    unfold removeProgram programs
    rw [getD_foldl_erase]
    split
    · exact nodup_foldl_erase _ (synced.nodup e)
    · exact synced.nodup e

/-- `remove_program` deletes exactly the pairs of one program. -/
theorem related_removeProgram {m : DeviceMapping} (synced : m.Synced) (p q e : Href) :
    (m.removeProgram p).Related q e ↔ m.Related q e ∧ q ≠ p := by
  rw [(synced_removeProgram synced p).related_iff_programs, synced.related_iff_programs,
    mem_programs_removeProgram synced]

end DeviceMapping

/-! ### Discovered state -/

/-- `DiscoveredState`, as far as the topology and the control path read it. -/
structure DiscoveredState where
  endDevices : Dict Href EndDeviceState := Dict.empty
  derPrograms : Dict Href DerProgramState := Dict.empty
  deviceMapping : DeviceMapping := DeviceMapping.empty
  previousFsaHrefs : Dict Href (List Href) := Dict.empty

namespace DiscoveredState

/-- `DiscoveredState.programs_from_fsa`. -/
def programsFromFsa (state : DiscoveredState) (fsa : Href) : List Href :=
  (state.derPrograms.entries.filter fun e => e.2.discoveredFromFsaHref = some fsa).map Prod.fst

end DiscoveredState

end Py20305
