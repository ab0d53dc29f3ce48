import Mathlib.Data.List.Dedup
import Py20305.Client.Paging

/-!
The resource walk (`discover`) and its two topology refreshes
(`refresh_function_set_assignments`, `refresh_der_programs`) of `discovery.py`.

All three visit (program, device) pairs and differ in which pairs they visit
and in what a visit does to a program already known. A visit is one definition,
`visitProgram`; a walk is a fold of visits over the list the walk makes
(`discoverVisits`, `refreshVisits`), and what a walk leaves behind is read off
that list once, in `walk_related` and `walk_keys`.

`discover` reaches a device's programs through its FSAs and, for a device with
none, through the DeviceCapability's own program list. `refresh_der_programs`
walks the FSAs only.
-/

namespace Py20305

/-- The answers of a server to the GETs of the topology walk. `none` is a list
that stops answering between its pages; a list that cannot be read at all
raises out of the walk and is not represented. -/
structure Server where
  endDevices : List (Option Href)
  endDevice : Href → EndDevice
  derprogramListLink : Option Href
  fsaList : Href → Option (List FunctionSetAssignments)
  derprogramList : Href → Option (List (Option Href))
  derprogram : Href → Derprogram
  fetch : Href → ProgramFetch

namespace Server

/-- A new `DerProgramState` for the program `p`, attributed to `fsa`. -/
def newProgram (srv : Server) (p : Href) (fsa : Option Href) : DerProgramState :=
  { (discoverProgram (srv.derprogram p) p (srv.fetch p)).1 with discoveredFromFsaHref := fsa }

/-- The FSA list of an EndDevice: nothing without a link, `none` on a fault. -/
def fetchFsas (srv : Server) (device : EndDevice) : Option (List FunctionSetAssignments) :=
  match extractHref device.functionSetAssignmentsListLink with
  | none => some []
  | some link => srv.fsaList link

/-- The programs an FSA lists; entries without an href are skipped. -/
def fetchPrograms (srv : Server) (link : Option Href) : Option (List Href) :=
  match extractHref link with
  | none => some []
  | some list => (srv.derprogramList list).map (·.filterMap extractHref)

end Server

/-! ### Visiting programs -/

/-- One (program, device) pair met by a walk, and the FSA it was met through. -/
structure Visit where
  program : Href
  device : Href
  fsa : Option Href

/-- Meet a program: relate it to the device, then create it, or treat it as
`known` when it is already there. -/
def visitProgram (srv : Server) (known : Href → DerProgramState → DerProgramState)
    (state : DiscoveredState) (v : Visit) : DiscoveredState :=
  { state with
    deviceMapping := state.deviceMapping.add v.program v.device
    derPrograms :=
      match state.derPrograms.get? v.program with
      | some ps => state.derPrograms.set v.program (known v.program ps)
      | none => state.derPrograms.set v.program (srv.newProgram v.program v.fsa) }

/-- The visits made through one FSA of a device. -/
def fsaVisits (srv : Server) (edev : Href) (fsa : FunctionSetAssignments) : List Visit :=
  ((srv.fetchPrograms fsa.derprogramListLink).getD []).map fun p => ⟨p, edev, fsa.href⟩

/-! ### Full discovery -/

/-- The FSAs `discover` finds for a device: none where the list stopped
answering between pages. -/
def discoveredFsas (srv : Server) (edev : Href) : List FunctionSetAssignments :=
  (srv.fetchFsas (srv.endDevice edev)).getD []

/-- The visits of a device without FSAs: the DeviceCapability's program list. -/
def dcapVisits (srv : Server) (edev : Href) : List Visit :=
  ((srv.fetchPrograms srv.derprogramListLink).getD []).map fun p => ⟨p, edev, none⟩

/-- The visits `discover` makes for one device. -/
def discoverVisits (srv : Server) (edev : Href) : List Visit :=
  (discoveredFsas srv edev).flatMap (fsaVisits srv edev) ++
    if discoveredFsas srv edev = [] then dcapVisits srv edev else []

/-- The set of FSA hrefs of a list, as the removal snapshot keeps it. -/
def fsaHrefs (fsas : List FunctionSetAssignments) : List Href :=
  (fsas.filterMap fun fsa => extractHref fsa.href).dedup

/-- One device of the EndDevice walk. -/
def discoverEndDevice (srv : Server) (state : DiscoveredState) (edev : Href) : DiscoveredState :=
  let walked := (discoverVisits srv edev).foldl (visitProgram srv fun _ ps => ps) state
  { walked with
    previousFsaHrefs := walked.previousFsaHrefs.set edev (fsaHrefs (discoveredFsas srv edev))
    endDevices := walked.endDevices.set edev
      { device := srv.endDevice edev
        lfdi := (srv.endDevice edev).lfdi.getD ""
        fsaList := discoveredFsas srv edev } }

/-- `discover`, from the cleared state. EndDevices without an href are skipped. -/
def discover (srv : Server) : DiscoveredState :=
  (srv.endDevices.filterMap extractHref).foldl (discoverEndDevice srv) {}

/-! ### Refreshing the FSA lists -/

/-- `refresh_function_set_assignments` for one device: the removed programs so
far, and the state. -/
def refreshFsasOf (srv : Server) (acc : List Href × DiscoveredState) (edev : Href) :
    List Href × DiscoveredState :=
  match acc.2.endDevices.get? edev with
  | none => acc
  | some es =>
      match extractHref es.device.functionSetAssignmentsListLink with
      | none => acc
      | some link =>
          match srv.fsaList link with
          | none => acc
          | some fsas =>
              let removed := (acc.2.previousFsaHrefs.getD edev []).filter (· ∉ fsaHrefs fsas)
              (acc.1 ++ removed.flatMap acc.2.programsFromFsa,
                { acc.2 with
                  endDevices := acc.2.endDevices.set edev { es with fsaList := fsas }
                  previousFsaHrefs := acc.2.previousFsaHrefs.set edev (fsaHrefs fsas) })

/-- `refresh_function_set_assignments`, without subscribed lists to skip. -/
def refreshFunctionSetAssignments (srv : Server) (state : DiscoveredState) :
    List Href × DiscoveredState :=
  state.endDevices.keys.foldl (refreshFsasOf srv) ([], state)

/-! ### Refreshing the program lists -/

/-- The update of a program already known: its representation and primacy. -/
def updateProgram (srv : Server) (p : Href) (ps : DerProgramState) : DerProgramState :=
  { ps with
    program := srv.derprogram p
    primacy := (srv.derprogram p).primacy.getD 0 }

/-- The visits `refresh_der_programs` makes. -/
def refreshVisits (srv : Server) (state : DiscoveredState) : List Visit :=
  state.endDevices.entries.flatMap fun e => e.2.fsaList.flatMap (fsaVisits srv e.1)

/-- The FSAs whose program list stopped answering between pages. -/
def unreachableFsas (srv : Server) (state : DiscoveredState) : List (Option Href) :=
  state.endDevices.entries.flatMap fun e =>
    (e.2.fsaList.filter fun fsa => (srv.fetchPrograms fsa.derprogramListLink).isNone).map (·.href)

/-- A program no FSA listed, and that no unreachable FSA may still list. -/
def isStale (srv : Server) (state : DiscoveredState) (p : Href) (ps : DerProgramState) : Bool :=
  p ∉ (refreshVisits srv state).map (·.program) ∧
    ps.discoveredFromFsaHref ∉ unreachableFsas srv state

/-- Drop one program and its pairs. -/
def pruneProgram (state : DiscoveredState) (p : Href) : DiscoveredState :=
  { state with
    derPrograms := state.derPrograms.erase p
    deviceMapping := state.deviceMapping.removeProgram p }

/-- The walk of `refresh_der_programs`. -/
def refreshWalk (srv : Server) (state : DiscoveredState) : DiscoveredState :=
  (refreshVisits srv state).foldl (visitProgram srv (updateProgram srv)) state

/-- The programs `refresh_der_programs` finds gone. -/
def stalePrograms (srv : Server) (state : DiscoveredState) : List Href :=
  ((refreshWalk srv state).derPrograms.entries.filter fun e => isStale srv state e.1 e.2).map
    Prod.fst

/-- `refresh_der_programs`: the removed programs and the state. -/
def refreshDerPrograms (srv : Server) (state : DiscoveredState) : List Href × DiscoveredState :=
  if state.endDevices.entries = [] then ([], state)
  else (stalePrograms srv state, (stalePrograms srv state).foldl pruneProgram (refreshWalk srv state))

/-! ### What a walk leaves behind -/

section Walk

variable {srv : Server} {known : Href → DerProgramState → DerProgramState}

@[simp] theorem visitProgram_endDevices (state : DiscoveredState) (v : Visit) :
    (visitProgram srv known state v).endDevices = state.endDevices := rfl

@[simp] theorem visitProgram_previousFsaHrefs (state : DiscoveredState) (v : Visit) :
    (visitProgram srv known state v).previousFsaHrefs = state.previousFsaHrefs := rfl

theorem walk_endDevices (visits : List Visit) (state : DiscoveredState) :
    (visits.foldl (visitProgram srv known) state).endDevices = state.endDevices := by
  induction visits generalizing state with
  | nil => rfl
  | cons v rest ih => rw [List.foldl_cons, ih, visitProgram_endDevices]

theorem walk_previousFsaHrefs (visits : List Visit) (state : DiscoveredState) :
    (visits.foldl (visitProgram srv known) state).previousFsaHrefs = state.previousFsaHrefs := by
  induction visits generalizing state with
  | nil => rfl
  | cons v rest ih => rw [List.foldl_cons, ih, visitProgram_previousFsaHrefs]

theorem walk_synced (visits : List Visit) {state : DiscoveredState}
    (synced : state.deviceMapping.Synced) :
    (visits.foldl (visitProgram srv known) state).deviceMapping.Synced := by
  induction visits generalizing state with
  | nil => exact synced
  | cons v rest ih => exact ih (DeviceMapping.synced_add synced _ _)

/-- A walk adds the pairs it visits, and nothing else. -/
theorem walk_related (visits : List Visit) {state : DiscoveredState}
    (synced : state.deviceMapping.Synced) (p d : Href) :
    (visits.foldl (visitProgram srv known) state).deviceMapping.Related p d ↔
      state.deviceMapping.Related p d ∨ ∃ v ∈ visits, v.program = p ∧ v.device = d := by
  induction visits generalizing state with
  | nil => simp
  | cons v rest ih =>
      rw [List.foldl_cons, ih (DeviceMapping.synced_add synced _ _)]
      simp only [visitProgram, DeviceMapping.related_add synced, List.mem_cons,
        exists_eq_or_imp]
      rw [or_assoc]
      simp only [eq_comm]

theorem visitProgram_keys (state : DiscoveredState) (v : Visit) (p : Href) :
    p ∈ (visitProgram srv known state v).derPrograms.keys ↔
      p = v.program ∨ p ∈ state.derPrograms.keys := by
  unfold visitProgram
  simp only
  split <;> exact Dict.mem_keys_set _ _ _ _

/-- A walk adds the programs it visits, and nothing else. -/
theorem walk_keys (visits : List Visit) (state : DiscoveredState) (p : Href) :
    p ∈ (visits.foldl (visitProgram srv known) state).derPrograms.keys ↔
      p ∈ state.derPrograms.keys ∨ ∃ v ∈ visits, v.program = p := by
  induction visits generalizing state with
  | nil => simp
  | cons v rest ih =>
      rw [List.foldl_cons, ih, visitProgram_keys]
      simp only [List.mem_cons, exists_eq_or_imp, eq_comm (a := p)]
      tauto

/-- A visit that relates no new pair and meets a known program unchanged by
`known` changes nothing. -/
theorem visitProgram_eq_self {state : DiscoveredState} {v : Visit} {ps : DerProgramState}
    (related : state.deviceMapping.Related v.program v.device)
    (found : state.derPrograms.get? v.program = some ps) (same : known v.program ps = ps) :
    visitProgram srv known state v = state := by
  unfold visitProgram
  rw [found]
  simp only [same, Dict.set_get?_self _ found, DeviceMapping.add_of_related related]

theorem walk_eq_self (visits : List Visit) {state : DiscoveredState}
    (related : ∀ v ∈ visits, state.deviceMapping.Related v.program v.device)
    (found : ∀ v ∈ visits, ∃ ps, state.derPrograms.get? v.program = some ps ∧
      known v.program ps = ps) :
    visits.foldl (visitProgram srv known) state = state := by
  induction visits with
  | nil => rfl
  | cons v rest ih =>
      obtain ⟨ps, read, same⟩ := found v List.mem_cons_self
      rw [List.foldl_cons, visitProgram_eq_self (related v List.mem_cons_self) read same]
      exact ih (fun w hw => related w (List.mem_cons_of_mem _ hw))
        (fun w hw => found w (List.mem_cons_of_mem _ hw))

end Walk

/-! ### What discovery leaves behind -/

/-- The state `discover` keeps for a device. -/
def discoveredDevice (srv : Server) (edev : Href) : EndDeviceState where
  device := srv.endDevice edev
  lfdi := (srv.endDevice edev).lfdi.getD ""
  fsaList := discoveredFsas srv edev

theorem discoverVisits_device {srv : Server} {edev : Href} {v : Visit}
    (member : v ∈ discoverVisits srv edev) : v.device = edev := by
  rcases List.mem_append.mp member with viaFsa | viaDcap
  · obtain ⟨fsa, -, listed⟩ := List.mem_flatMap.mp viaFsa
    obtain ⟨p, -, rfl⟩ := List.mem_map.mp listed
    rfl
  · split at viaDcap
    · obtain ⟨p, -, rfl⟩ := List.mem_map.mp viaDcap
      rfl
    · cases viaDcap

/-- A program as the walk creates it is one that a refresh leaves as it is. -/
theorem updateProgram_newProgram (srv : Server) (p : Href) (fsa : Option Href) :
    updateProgram srv p (srv.newProgram p fsa) = srv.newProgram p fsa := by
  have created := discoverProgram_program (srv.derprogram p) p (srv.fetch p)
  simp [updateProgram, Server.newProgram, created.1, created.2]

section Discovered

variable (srv : Server)

/-- Every program is represented as the server serves it. -/
def UpToDate (state : DiscoveredState) : Prop :=
  ∀ p ps, state.derPrograms.get? p = some ps → updateProgram srv p ps = ps

theorem walk_upToDate (visits : List Visit) {state : DiscoveredState}
    (current : UpToDate srv state) :
    UpToDate srv (visits.foldl (visitProgram srv fun _ ps => ps) state) := by
  induction visits generalizing state with
  | nil => exact current
  | cons v rest ih =>
      refine ih fun p ps found => ?_
      unfold visitProgram at found
      simp only at found
      split at found
      · rename_i old read
        rw [Dict.set_get?_self _ read] at found
        exact current p ps found
      · rw [Dict.get?_set] at found
        split at found
        · rename_i same
          cases found
          rw [same]
          exact updateProgram_newProgram srv _ _
        · exact current p ps found

theorem discoverFrom_synced (ds : List Href) {state : DiscoveredState}
    (synced : state.deviceMapping.Synced) :
    (ds.foldl (discoverEndDevice srv) state).deviceMapping.Synced := by
  induction ds generalizing state with
  | nil => exact synced
  | cons d rest ih => exact ih (walk_synced _ synced)

theorem discoverFrom_related (ds : List Href) {state : DiscoveredState}
    (synced : state.deviceMapping.Synced) (p d : Href) :
    (ds.foldl (discoverEndDevice srv) state).deviceMapping.Related p d ↔
      state.deviceMapping.Related p d ∨
        (d ∈ ds ∧ ∃ v ∈ discoverVisits srv d, v.program = p) := by
  induction ds generalizing state with
  | nil => simp
  | cons e rest ih =>
      have moved : (discoverEndDevice srv state e).deviceMapping.Synced := walk_synced _ synced
      rw [List.foldl_cons, ih moved]
      have here : (discoverEndDevice srv state e).deviceMapping.Related p d ↔
          state.deviceMapping.Related p d ∨ (d = e ∧ ∃ v ∈ discoverVisits srv d, v.program = p) := by
        refine (walk_related _ synced p d).trans (or_congr_right ?_)
        constructor
        · rintro ⟨v, member, program, device⟩
          have same := discoverVisits_device member
          have target : d = e := device.symm.trans same
          exact ⟨target, v, target ▸ member, program⟩
        · rintro ⟨rfl, v, member, program⟩
          exact ⟨v, member, program, discoverVisits_device member⟩
      rw [here, List.mem_cons, or_assoc, or_and_right]

theorem discoverFrom_keys (ds : List Href) (state : DiscoveredState) (p : Href) :
    p ∈ (ds.foldl (discoverEndDevice srv) state).derPrograms.keys ↔
      p ∈ state.derPrograms.keys ∨ ∃ d ∈ ds, ∃ v ∈ discoverVisits srv d, v.program = p := by
  induction ds generalizing state with
  | nil => simp
  | cons e rest ih =>
      rw [List.foldl_cons, ih]
      have here : p ∈ (discoverEndDevice srv state e).derPrograms.keys ↔
          p ∈ state.derPrograms.keys ∨ ∃ v ∈ discoverVisits srv e, v.program = p :=
        walk_keys _ _ _
      rw [here, or_assoc]
      simp only [List.mem_cons, exists_eq_or_imp]

theorem discoverFrom_endDevices (ds : List Href) (state : DiscoveredState) (d : Href) :
    (ds.foldl (discoverEndDevice srv) state).endDevices.get? d =
      if d ∈ ds then some (discoveredDevice srv d) else state.endDevices.get? d := by
  induction ds generalizing state with
  | nil => simp
  | cons e rest ih =>
      rw [List.foldl_cons, ih]
      simp only [discoverEndDevice, walk_endDevices, Dict.get?_set, List.mem_cons]
      by_cases later : d ∈ rest
      · simp [later]
      · by_cases same : d = e
        · simp [same, discoveredDevice]
        · simp [later, same]

theorem discoverFrom_previousFsaHrefs (ds : List Href) (state : DiscoveredState) (d : Href) :
    (ds.foldl (discoverEndDevice srv) state).previousFsaHrefs.get? d =
      if d ∈ ds then some (fsaHrefs (discoveredFsas srv d)) else state.previousFsaHrefs.get? d := by
  induction ds generalizing state with
  | nil => simp
  | cons e rest ih =>
      rw [List.foldl_cons, ih]
      simp only [discoverEndDevice, walk_previousFsaHrefs, Dict.get?_set, List.mem_cons]
      by_cases later : d ∈ rest
      · simp [later]
      · by_cases same : d = e
        · simp [same]
        · simp [later, same]

theorem discoverFrom_upToDate (ds : List Href) {state : DiscoveredState}
    (current : UpToDate srv state) : UpToDate srv (ds.foldl (discoverEndDevice srv) state) := by
  induction ds generalizing state with
  | nil => exact current
  | cons e rest ih => exact ih (walk_upToDate srv _ current)

/-- The devices `discover` walks. -/
def walkedDevices : List Href := srv.endDevices.filterMap extractHref

theorem discover_synced : (discover srv).deviceMapping.Synced :=
  discoverFrom_synced srv _ DeviceMapping.synced_empty

theorem discover_related (p d : Href) :
    (discover srv).deviceMapping.Related p d ↔
      d ∈ walkedDevices srv ∧ ∃ v ∈ discoverVisits srv d, v.program = p := by
  refine (discoverFrom_related srv (walkedDevices srv) DeviceMapping.synced_empty p d).trans ?_
  simp [DeviceMapping.Related]

theorem discover_keys (p : Href) :
    p ∈ (discover srv).derPrograms.keys ↔
      ∃ d ∈ walkedDevices srv, ∃ v ∈ discoverVisits srv d, v.program = p := by
  refine (discoverFrom_keys srv (walkedDevices srv) {} p).trans ?_
  simp [Dict.keys, Dict.empty]

theorem discover_endDevices (d : Href) :
    (discover srv).endDevices.get? d =
      if d ∈ walkedDevices srv then some (discoveredDevice srv d) else none :=
  discoverFrom_endDevices srv _ {} d

theorem discover_previousFsaHrefs (d : Href) :
    (discover srv).previousFsaHrefs.get? d =
      if d ∈ walkedDevices srv then some (fsaHrefs (discoveredFsas srv d)) else none :=
  discoverFrom_previousFsaHrefs srv _ {} d

theorem discover_upToDate : UpToDate srv (discover srv) :=
  discoverFrom_upToDate srv _ fun _ _ found => by cases found

theorem mem_discover_endDevices_keys (d : Href) :
    d ∈ (discover srv).endDevices.keys ↔ d ∈ walkedDevices srv := by
  rw [Dict.mem_keys_iff, discover_endDevices]
  split <;> simp_all

end Discovered

end Py20305
