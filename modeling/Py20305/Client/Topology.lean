import Py20305.Client.Discovery

/-!
Discovery against refresh, on servers that answer every GET.

A `ServerTree` is such a server: every list it links to is there. Two results
compare the two ways of learning the topology from it.

* `refresh_agrees_iff`: refreshing right after discovery, with nothing changed,
  changes nothing exactly when each program that some device takes from the
  DeviceCapability list is listed by an FSA too.
* `refresh_converges_iff`: after the server reassigned its programs, a refresh
  ends in the server's own assignment, reporting as removed only programs no
  FSA lists, exactly when no device loses a program that stays listed for
  another device, no program is attributed to an FSA that left a device's list
  while some FSA still lists it, and no pair is left of a program that is held
  no more. The polls forget the programs of a departed FSA between the two
  refreshes, so for them no such program may have a pair.

Both come from one account of what a refresh does to the relation
(`refresh_related`, `refresh_removed`).
-/

namespace Py20305

/-- What a server currently assigns: the FSA lists, the program lists and the
programs. -/
structure Assignment where
  fsaList : Href → List FunctionSetAssignments
  derprogramList : Href → List (Option Href)
  derprogram : Href → Derprogram
  fetch : Href → ProgramFetch

/-- A server that answers every GET of the topology walk. -/
structure ServerTree where
  endDevices : List (Option Href)
  endDevice : Href → EndDevice
  derprogramListLink : Option Href
  assignment : Assignment

namespace ServerTree

/-- The tree as the walk's GETs see it. -/
def serve (t : ServerTree) : Server where
  endDevices := t.endDevices
  endDevice := t.endDevice
  derprogramListLink := t.derprogramListLink
  fsaList := fun link => some (t.assignment.fsaList link)
  derprogramList := fun link => some (t.assignment.derprogramList link)
  derprogram := t.assignment.derprogram
  fetch := t.assignment.fetch

/-- The same EndDevices under another assignment. -/
def reassign (t : ServerTree) (a : Assignment) : ServerTree := { t with assignment := a }

/-- The EndDevices with an href. -/
def devices (t : ServerTree) : List Href := t.endDevices.filterMap extractHref

/-- The FSAs currently listed for a device. -/
def fsasOf (t : ServerTree) (d : Href) : List FunctionSetAssignments :=
  match extractHref (t.endDevice d).functionSetAssignmentsListLink with
  | none => []
  | some link => t.assignment.fsaList link

/-- The programs behind a DERProgramListLink. -/
def programsAt (t : ServerTree) (link : Option Href) : List Href :=
  match extractHref link with
  | none => []
  | some list => (t.assignment.derprogramList list).filterMap extractHref

/-- Some FSA currently listed for `d` lists `p`. -/
def Lists (t : ServerTree) (d p : Href) : Prop :=
  ∃ fsa ∈ t.fsasOf d, p ∈ t.programsAt fsa.derprogramListLink

/-- Some FSA of some device lists `p`. -/
def Listed (t : ServerTree) (p : Href) : Prop := ∃ d ∈ t.devices, t.Lists d p

/-- `d` has no FSA and takes `p` from the DeviceCapability's program list. -/
def FallsBackTo (t : ServerTree) (d p : Href) : Prop :=
  t.fsasOf d = [] ∧ p ∈ t.programsAt t.derprogramListLink

instance (t : ServerTree) (d p : Href) : Decidable (t.Lists d p) :=
  inferInstanceAs (Decidable (∃ fsa ∈ t.fsasOf d, p ∈ t.programsAt fsa.derprogramListLink))

instance (t : ServerTree) (p : Href) : Decidable (t.Listed p) :=
  inferInstanceAs (Decidable (∃ d ∈ t.devices, t.Lists d p))

variable (t : ServerTree)

@[simp] theorem walkedDevices_serve : walkedDevices t.serve = t.devices := rfl

@[simp] theorem discoveredFsas_serve (d : Href) : discoveredFsas t.serve d = t.fsasOf d := by
  unfold discoveredFsas Server.fetchFsas fsasOf
  simp only [serve]
  cases extractHref (t.endDevice d).functionSetAssignmentsListLink <;> rfl

@[simp] theorem fetchPrograms_serve (link : Option Href) :
    t.serve.fetchPrograms link = some (t.programsAt link) := by
  unfold Server.fetchPrograms programsAt
  simp only [serve]
  cases extractHref link <;> rfl

/-- The pairs discovery visits: through an FSA, or by falling back. -/
theorem exists_discoverVisit_iff (d p : Href) :
    (∃ v ∈ discoverVisits t.serve d, v.program = p) ↔ t.Lists d p ∨ t.FallsBackTo d p := by
  unfold discoverVisits
  simp only [List.mem_append, or_and_right, exists_or, discoveredFsas_serve]
  apply or_congr
  · simp only [List.mem_flatMap, fsaVisits, fetchPrograms_serve, Option.getD_some, List.mem_map,
      Lists]
    constructor
    · rintro ⟨v, ⟨fsa, member, q, listed, rfl⟩, rfl⟩
      exact ⟨fsa, member, listed⟩
    · rintro ⟨fsa, member, listed⟩
      exact ⟨⟨p, d, fsa.href⟩, ⟨fsa, member, p, listed, rfl⟩, rfl⟩
  · unfold FallsBackTo
    split
    · rename_i none_
      simp only [dcapVisits, List.mem_map, show t.serve.derprogramListLink = t.derprogramListLink
        from rfl, fetchPrograms_serve, Option.getD_some, none_, true_and]
      constructor
      · rintro ⟨v, ⟨q, listed, rfl⟩, rfl⟩
        exact listed
      · intro listed
        exact ⟨⟨p, d, none⟩, ⟨p, listed, rfl⟩, rfl⟩
    · rename_i some_
      simp [some_]

/-! ### States the client can hold -/

/-- What every state learned from `t`'s EndDevices satisfies, whatever the
assignments it was learned under. -/
structure Knows (state : DiscoveredState) : Prop where
  devices : ∀ d, d ∈ state.endDevices.keys ↔ d ∈ t.devices
  device : ∀ d es, state.endDevices.get? d = some es → es.device = t.endDevice d
  linkless : ∀ d es, state.endDevices.get? d = some es →
    extractHref (t.endDevice d).functionSetAssignmentsListLink = none →
      es.fsaList = [] ∧ state.previousFsaHrefs.getD d [] = []
  synced : state.deviceMapping.Synced
  relatedDevice : ∀ p d, state.deviceMapping.Related p d → d ∈ t.devices

/-- The states a client can hold while the server changes its assignment: a
discovery, then any of the changes that refreshes and polls are made of, in any
order, as tasks that wait for the server interleave them or a failed GET cuts
them short. -/
inductive Reached : DiscoveredState → Prop where
  | discovered (a : Assignment) : Reached (discover (t.reassign a).serve)
  /-- The FSA list of one device is read. -/
  | fsas (a : Assignment) (d : Href) {acc : List Href × DiscoveredState} : Reached acc.2 →
      Reached (refreshFsasOf (t.reassign a).serve acc d).2
  | mapped (p : Href) {d : Href} {state : DiscoveredState} : d ∈ t.devices → Reached state →
      Reached { state with deviceMapping := state.deviceMapping.add p d }
  | held (p : Href) (ps : DerProgramState) {state : DiscoveredState} : Reached state →
      Reached { state with derPrograms := state.derPrograms.set p ps }
  /-- A program is dropped: by the program refresh, and by the FSA poll, which
  leaves its pairs. -/
  | forgotten (p : Href) {state : DiscoveredState} : Reached state →
      Reached { state with derPrograms := state.derPrograms.erase p }
  | unmapped (p : Href) {state : DiscoveredState} : Reached state →
      Reached { state with deviceMapping := state.deviceMapping.removeProgram p }

variable {t}

@[simp] theorem devices_reassign (a : Assignment) : (t.reassign a).devices = t.devices := rfl

@[simp] theorem endDevice_reassign (a : Assignment) : (t.reassign a).endDevice = t.endDevice := rfl

/-- Knowing the EndDevices does not depend on the assignment. -/
theorem knows_reassign {a : Assignment} {state : DiscoveredState} :
    (t.reassign a).Knows state ↔ t.Knows state :=
  ⟨fun k => ⟨k.devices, k.device, k.linkless, k.synced, k.relatedDevice⟩,
    fun k => ⟨k.devices, k.device, k.linkless, k.synced, k.relatedDevice⟩⟩

theorem discover_related_iff (p d : Href) :
    (discover t.serve).deviceMapping.Related p d ↔
      d ∈ t.devices ∧ (t.Lists d p ∨ t.FallsBackTo d p) := by
  rw [discover_related, exists_discoverVisit_iff, walkedDevices_serve]

theorem discover_keys_iff (p : Href) :
    p ∈ (discover t.serve).derPrograms.keys ↔
      ∃ d ∈ t.devices, t.Lists d p ∨ t.FallsBackTo d p := by
  simp only [discover_keys, exists_discoverVisit_iff, walkedDevices_serve]

theorem discover_device {d : Href} {es : EndDeviceState}
    (found : (discover t.serve).endDevices.get? d = some es) :
    d ∈ t.devices ∧ es.device = t.endDevice d ∧ es.fsaList = t.fsasOf d := by
  rw [discover_endDevices, walkedDevices_serve] at found
  split at found
  · rename_i walked
    cases found
    exact ⟨walked, rfl, discoveredFsas_serve t d⟩
  · cases found

theorem discover_snapshot (d : Href) :
    (discover t.serve).previousFsaHrefs.get? d =
      if d ∈ t.devices then some (fsaHrefs (t.fsasOf d)) else none := by
  rw [discover_previousFsaHrefs, walkedDevices_serve, discoveredFsas_serve]

theorem knows_discover : t.Knows (discover t.serve) where
  devices := fun d => mem_discover_endDevices_keys t.serve d
  device := fun d es found => (discover_device found).2.1
  linkless := by
    intro d es found linkless
    have unlinked : t.fsasOf d = [] := by simp [fsasOf, linkless]
    refine ⟨(discover_device found).2.2.trans unlinked, ?_⟩
    simp [Dict.getD, discover_snapshot, (discover_device found).1, unlinked, fsaHrefs]
  synced := discover_synced t.serve
  relatedDevice := fun p d related => ((discover_related_iff p d).mp related).1

/-! ### Refreshing the FSA lists -/

/-- The FSAs that left the list of `d` since its last snapshot. -/
def dropped (t : ServerTree) (state : DiscoveredState) (d : Href) : List Href :=
  (state.previousFsaHrefs.getD d []).filter (· ∉ fsaHrefs (t.fsasOf d))

/-- One device of the FSA refresh, on a server that answers. -/
structure RefreshedAt (t : ServerTree) (d : Href) (acc acc' : List Href × DiscoveredState) :
    Prop where
  endDevices : ∀ e, acc'.2.endDevices.get? e =
    if e = d then (acc.2.endDevices.get? d).map (fun es => { es with fsaList := t.fsasOf d })
    else acc.2.endDevices.get? e
  snapshot : ∀ e, acc'.2.previousFsaHrefs.getD e [] =
    if e = d then fsaHrefs (t.fsasOf d) else acc.2.previousFsaHrefs.getD e []
  derPrograms : acc'.2.derPrograms = acc.2.derPrograms
  deviceMapping : acc'.2.deviceMapping = acc.2.deviceMapping
  removed : acc'.1 = acc.1 ++ (t.dropped acc.2 d).flatMap acc.2.programsFromFsa

theorem refreshFsasOf_refreshedAt {acc : List Href × DiscoveredState} {d : Href}
    (knows : t.Knows acc.2) (member : d ∈ t.devices) :
    t.RefreshedAt d acc (refreshFsasOf t.serve acc d) := by
  obtain ⟨es, found⟩ := (Dict.mem_keys_iff _ _).mp ((knows.devices d).mpr member)
  have device := knows.device d es found
  unfold refreshFsasOf
  rw [found]
  simp only [device]
  cases link : extractHref (t.endDevice d).functionSetAssignmentsListLink with
  | none =>
      -- Nothing is fetched; there was nothing to begin with.
      have unlinked : t.fsasOf d = [] := by simp [fsasOf, link]
      obtain ⟨noFsas, noSnapshot⟩ := knows.linkless d es found link
      dsimp only
      refine ⟨fun e => ?_, fun e => ?_, rfl, rfl, by simp [dropped, noSnapshot]⟩
      · split
        · rename_i same
          rw [same, found, unlinked, ← noFsas]
          rfl
        · rfl
      · split
        · rename_i same
          rw [same, noSnapshot, unlinked]
          rfl
        · rfl
  | some list =>
      have linked : t.fsasOf d = t.assignment.fsaList list := by simp [fsasOf, link]
      simp only [serve, ← linked]
      refine ⟨fun e => ?_, fun e => ?_, rfl, rfl, rfl⟩
      · rw [Dict.get?_set, found, ← device]
        rfl
      · unfold Dict.getD
        rw [Dict.get?_set]
        split <;> rfl

/-- Refreshing one device keeps what is known of the EndDevices. -/
theorem RefreshedAt.knows {d : Href} {acc acc' : List Href × DiscoveredState}
    (refreshed : t.RefreshedAt d acc acc') (knows : t.Knows acc.2) : t.Knows acc'.2 where
  devices := by
    intro e
    rw [← knows.devices e, Dict.mem_keys_iff, Dict.mem_keys_iff, refreshed.endDevices]
    split
    · rename_i same
      simp [same]
    · rfl
  device := by
    intro e es found
    rw [refreshed.endDevices] at found
    split at found
    · rename_i same
      obtain ⟨old, read, rfl⟩ := Option.map_eq_some_iff.mp found
      rw [same]
      exact knows.device d old read
    · exact knows.device e es found
  linkless := by
    intro e es found link
    rw [refreshed.endDevices] at found
    rw [refreshed.snapshot]
    split at found
    · rename_i same
      obtain ⟨old, read, rfl⟩ := Option.map_eq_some_iff.mp found
      have unlinked : t.fsasOf d = [] := by simp [fsasOf, ← same, link]
      simp [same, unlinked, fsaHrefs]
    · rename_i other
      rw [if_neg other]
      exact knows.linkless e es found link
  synced := refreshed.deviceMapping ▸ knows.synced
  relatedDevice := by
    rw [refreshed.deviceMapping]
    exact knows.relatedDevice

/-- What the FSA refresh leaves behind after the devices `ds`. -/
structure RefreshedOver (t : ServerTree) (ds : List Href) (acc acc' : List Href × DiscoveredState) :
    Prop where
  knows : t.Knows acc'.2
  fsaList : ∀ d es, acc'.2.endDevices.get? d = some es → d ∈ ds → es.fsaList = t.fsasOf d
  derPrograms : acc'.2.derPrograms = acc.2.derPrograms
  deviceMapping : acc'.2.deviceMapping = acc.2.deviceMapping
  snapshot : ∀ d, d ∉ ds → acc'.2.previousFsaHrefs.getD d [] = acc.2.previousFsaHrefs.getD d []
  removed : ∀ p, p ∈ acc'.1 ↔
    p ∈ acc.1 ∨ ∃ d ∈ ds, ∃ f ∈ t.dropped acc.2 d, p ∈ acc.2.programsFromFsa f

theorem programsFromFsa_congr {s s' : DiscoveredState} (same : s'.derPrograms = s.derPrograms)
    (f : Href) : s'.programsFromFsa f = s.programsFromFsa f := by
  unfold DiscoveredState.programsFromFsa
  rw [same]

theorem refreshFsasOf_over (ds : List Href) (acc : List Href × DiscoveredState)
    (distinct : ds.Nodup) (member : ∀ d ∈ ds, d ∈ t.devices) (knows : t.Knows acc.2) :
    t.RefreshedOver ds acc (ds.foldl (refreshFsasOf t.serve) acc) := by
  -- From the end: each device comes once, so its snapshot is still the old one.
  induction ds using List.reverseRecOn with
  | nil => exact ⟨knows, by simp, rfl, rfl, by simp, by simp⟩
  | append_singleton ds d ih =>
      have fresh : d ∉ ds := fun h =>
        (List.nodup_append.mp distinct).2.2 d h d (List.mem_singleton_self d) rfl
      have rest := ih (List.nodup_append.mp distinct).1 fun e he =>
        member e (List.mem_append_left _ he)
      have last := refreshFsasOf_refreshedAt rest.knows (member d (by simp))
      rw [List.foldl_append]
      generalize ds.foldl (refreshFsasOf t.serve) acc = mid at rest last
      change t.RefreshedOver (ds ++ [d]) acc (refreshFsasOf t.serve mid d)
      have sameDrop : t.dropped mid.2 d = t.dropped acc.2 d := by
        unfold dropped
        rw [rest.snapshot d fresh]
      refine ⟨last.knows rest.knows, ?_, last.derPrograms.trans rest.derPrograms,
        last.deviceMapping.trans rest.deviceMapping, ?_, ?_⟩
      · intro e es found among
        rw [last.endDevices] at found
        split at found
        · rename_i same
          obtain ⟨old, -, rfl⟩ := Option.map_eq_some_iff.mp found
          rw [same]
        · rename_i other
          exact rest.fsaList e es found (by simpa [other] using among)
      · intro e absent
        simp only [List.mem_append, List.mem_singleton, not_or] at absent
        rw [last.snapshot, if_neg absent.2, rest.snapshot e absent.1]
      · intro p
        simp only [last.removed, List.mem_append, rest.removed, List.mem_flatMap, sameDrop,
          programsFromFsa_congr rest.derPrograms, List.mem_singleton, or_and_right, exists_or,
          exists_eq_left, or_assoc]

/-- What `refresh_function_set_assignments` does on a server that answers. -/
theorem refreshFsas_over {state : DiscoveredState} (knows : t.Knows state) :
    t.RefreshedOver t.devices ([], state) (refreshFunctionSetAssignments t.serve state) := by
  have done := refreshFsasOf_over state.endDevices.keys ([], state) state.endDevices.nodup
    (fun d hd => (knows.devices d).mp hd) knows
  refine ⟨done.knows, fun d es found member => ?_, done.derPrograms, done.deviceMapping, ?_, ?_⟩
  · exact done.fsaList d es found ((knows.devices d).mpr member)
  · exact fun d absent => done.snapshot d fun h => absent ((knows.devices d).mp h)
  · intro p
    simp only [refreshFunctionSetAssignments, done.removed, knows.devices]

/-- The programs reported by the FSA refresh: those attributed to an FSA that
left some device's list. -/
theorem mem_refreshFsas_removed {state : DiscoveredState} (knows : t.Knows state) (p : Href) :
    p ∈ (refreshFunctionSetAssignments t.serve state).1 ↔
      ∃ d ∈ t.devices, ∃ f ∈ t.dropped state d, p ∈ state.programsFromFsa f := by
  simpa using (refreshFsas_over knows).removed p

/-! ### Refreshing the program lists -/

/-- The programs a refresh walk sees for a device. -/
def SeesAt (t : ServerTree) (state : DiscoveredState) (d p : Href) : Prop :=
  ∃ es, state.endDevices.get? d = some es ∧
    ∃ fsa ∈ es.fsaList, p ∈ t.programsAt fsa.derprogramListLink

/-- The programs a refresh walk sees. -/
def Sees (t : ServerTree) (state : DiscoveredState) (p : Href) : Prop := ∃ d, t.SeesAt state d p

theorem mem_refreshVisits {state : DiscoveredState} {p d : Href} :
    (∃ v ∈ refreshVisits t.serve state, v.program = p ∧ v.device = d) ↔ t.SeesAt state d p := by
  simp only [refreshVisits, List.mem_flatMap, fsaVisits, fetchPrograms_serve, Option.getD_some,
    List.mem_map, SeesAt, Prod.exists, Dict.mem_entries_iff]
  constructor
  · rintro ⟨v, ⟨e, es, found, fsa, member, q, listed, rfl⟩, rfl, rfl⟩
    exact ⟨es, found, fsa, member, listed⟩
  · rintro ⟨es, found, fsa, member, listed⟩
    exact ⟨⟨p, d, fsa.href⟩, ⟨d, es, found, fsa, member, p, listed, rfl⟩, rfl, rfl⟩

theorem seen_iff {state : DiscoveredState} {p : Href} :
    (∃ v ∈ refreshVisits t.serve state, v.program = p) ↔ t.Sees state p := by
  simp only [Sees, ← mem_refreshVisits]
  constructor
  · rintro ⟨v, member, same⟩
    exact ⟨v.device, v, member, same, rfl⟩
  · rintro ⟨d, v, member, same, -⟩
    exact ⟨v, member, same⟩

theorem unreachableFsas_serve (state : DiscoveredState) : unreachableFsas t.serve state = [] := by
  simp [unreachableFsas]

theorem mem_stalePrograms {state : DiscoveredState} {p : Href} :
    p ∈ stalePrograms t.serve state ↔ p ∈ state.derPrograms.keys ∧ ¬ t.Sees state p := by
  have stale : ∀ ps, isStale t.serve state p ps = true ↔ ¬ t.Sees state p := by
    intro ps
    simp [isStale, unreachableFsas_serve, ← seen_iff]
  have walked : p ∈ (refreshWalk t.serve state).derPrograms.keys ↔
      p ∈ state.derPrograms.keys ∨ t.Sees state p := by
    rw [← seen_iff]
    exact walk_keys _ _ _
  simp only [stalePrograms, List.mem_map, List.mem_filter, Prod.exists, exists_and_right,
    exists_eq_right, stale, Dict.mem_entries_iff, ← Dict.mem_keys_iff]
  rw [walked]
  tauto

theorem prune_related (ps : List Href) {state : DiscoveredState}
    (synced : state.deviceMapping.Synced) (p d : Href) :
    (ps.foldl pruneProgram state).deviceMapping.Related p d ↔
      state.deviceMapping.Related p d ∧ p ∉ ps := by
  induction ps generalizing state with
  | nil => simp
  | cons q rest ih =>
      have removed : (pruneProgram state q).deviceMapping.Synced :=
        DeviceMapping.synced_removeProgram synced q
      rw [List.foldl_cons, ih removed]
      simp only [pruneProgram, DeviceMapping.related_removeProgram synced, List.mem_cons, not_or,
        and_assoc]

/-- Nothing is known of any program while there is no EndDevice. -/
theorem Knows.not_related {state : DiscoveredState} (knows : t.Knows state)
    (none_ : state.endDevices.entries = []) (p d : Href) :
    ¬ state.deviceMapping.Related p d := by
  intro related
  have member := (knows.devices d).mpr (knows.relatedDevice p d related)
  simp [Dict.keys, none_] at member

theorem not_seesAt {state : DiscoveredState} (none_ : state.endDevices.entries = []) (p d : Href) :
    ¬ t.SeesAt state d p := by
  rintro ⟨es, found, -⟩
  have member := (Dict.mem_entries_iff _ _ _).mpr found
  simp [none_] at member

/-- The relation after `refresh_der_programs`: a pair is kept as long as its
program is seen anywhere or was not held, and every pair seen is added. -/
theorem refreshDerPrograms_related {state : DiscoveredState} (knows : t.Knows state) (p d : Href) :
    (refreshDerPrograms t.serve state).2.deviceMapping.Related p d ↔
      (state.deviceMapping.Related p d ∧ (t.Sees state p ∨ p ∉ state.derPrograms.keys)) ∨
        t.SeesAt state d p := by
  unfold refreshDerPrograms
  split
  · rename_i none_
    simp only [knows.not_related none_, not_seesAt none_, false_and, or_false]
  · have walked : (refreshWalk t.serve state).deviceMapping.Synced := walk_synced _ knows.synced
    have pairs : (refreshWalk t.serve state).deviceMapping.Related p d ↔
        state.deviceMapping.Related p d ∨ t.SeesAt state d p :=
      (walk_related _ knows.synced p d).trans (or_congr_right mem_refreshVisits)
    rw [prune_related _ walked, mem_stalePrograms, pairs]
    constructor
    · rintro ⟨related | seen, kept⟩
      · refine .inl ⟨related, ?_⟩
        by_cases held : p ∈ state.derPrograms.keys
        · exact .inl (by_contra fun unseen => kept ⟨held, unseen⟩)
        · exact .inr held
      · exact .inr seen
    · rintro (⟨related, seen | absent⟩ | seen)
      · exact ⟨.inl related, fun stale => stale.2 seen⟩
      · exact ⟨.inl related, fun stale => absent stale.1⟩
      · exact ⟨.inr seen, fun stale => stale.2 ⟨d, seen⟩⟩

/-- The programs `refresh_der_programs` reports: those known and not seen. -/
theorem mem_refreshDerPrograms_removed {state : DiscoveredState}
    (linked : state.endDevices.entries ≠ []) (p : Href) :
    p ∈ (refreshDerPrograms t.serve state).1 ↔ p ∈ state.derPrograms.keys ∧ ¬ t.Sees state p := by
  unfold refreshDerPrograms
  rw [if_neg linked]
  exact mem_stalePrograms

theorem not_sees_of_removed {state : DiscoveredState} {p : Href}
    (removed : p ∈ (refreshDerPrograms t.serve state).1) : ¬ t.Sees state p := by
  unfold refreshDerPrograms at removed
  split at removed
  · cases removed
  · exact (mem_stalePrograms.mp removed).2

/-- Every state a client can hold knows the EndDevices. -/
theorem Reached.knows {state : DiscoveredState} (reached : t.Reached state) : t.Knows state := by
  induction reached with
  | discovered a => exact knows_reassign.mp knows_discover
  | @fsas a d acc _ ih =>
      by_cases member : d ∈ t.devices
      · have refreshed := refreshFsasOf_refreshedAt (t := t.reassign a) (knows_reassign.mpr ih) member
        exact knows_reassign.mp (refreshed.knows (knows_reassign.mpr ih))
      · have unknown : acc.2.endDevices.get? d = none :=
          (Dict.get?_eq_none_iff _ _).mpr fun key => member ((ih.devices d).mp key)
        unfold refreshFsasOf
        rw [unknown]
        exact ih
  | mapped p member _ ih =>
      refine { ih with synced := DeviceMapping.synced_add ih.synced _ _, relatedDevice := ?_ }
      intro q e related
      rcases (DeviceMapping.related_add ih.synced _ _ _ _).mp related with old | ⟨-, rfl⟩
      · exact ih.relatedDevice q e old
      · exact member
  | held p ps _ ih => exact { ih with }
  | forgotten p _ ih => exact { ih with }
  | unmapped p _ ih =>
      refine { ih with synced := DeviceMapping.synced_removeProgram ih.synced _, relatedDevice := ?_ }
      intro q e related
      exact ih.relatedDevice q e ((DeviceMapping.related_removeProgram ih.synced _ _ _).mp related).1

/-! ### What refreshes and polls are made of -/

/-- What the FSA poll does with the programs that the refresh reports. -/
def forgetPrograms (removed : List Href) (state : DiscoveredState) : DiscoveredState :=
  removed.foldl (fun state p => { state with derPrograms := state.derPrograms.erase p }) state

theorem Reached.refreshFsas (a : Assignment) {state : DiscoveredState} (reached : t.Reached state) :
    t.Reached (refreshFunctionSetAssignments (t.reassign a).serve state).2 := by
  have each : ∀ (ds : List Href) (acc : List Href × DiscoveredState), t.Reached acc.2 →
      t.Reached (ds.foldl (refreshFsasOf (t.reassign a).serve) acc).2 := by
    intro ds
    induction ds with
    | nil => exact fun _ h => h
    | cons d rest ih => exact fun acc h => ih _ (.fsas a d h)
  exact each _ ([], state) reached

theorem Reached.forget (removed : List Href) {state : DiscoveredState} (reached : t.Reached state) :
    t.Reached (forgetPrograms removed state) := by
  unfold forgetPrograms
  induction removed generalizing state with
  | nil => exact reached
  | cons p rest ih => exact ih (.forgotten p reached)

theorem Reached.prune (ps : List Href) {state : DiscoveredState} (reached : t.Reached state) :
    t.Reached (ps.foldl pruneProgram state) := by
  induction ps generalizing state with
  | nil => exact reached
  | cons p rest ih => exact ih (.unmapped p (.forgotten p reached))

theorem Reached.walk {srv : Server} {known : Href → DerProgramState → DerProgramState}
    {visits : List Visit} (devices : ∀ v ∈ visits, v.device ∈ t.devices) {state : DiscoveredState}
    (reached : t.Reached state) : t.Reached (visits.foldl (visitProgram srv known) state) := by
  induction visits generalizing state with
  | nil => exact reached
  | cons v rest ih =>
      refine ih (fun u member => devices u (List.mem_cons_of_mem v member)) ?_
      have mapped := reached.mapped v.program (devices v List.mem_cons_self)
      unfold visitProgram
      split <;> exact .held _ _ mapped

theorem Reached.refreshPrograms (a : Assignment) {state : DiscoveredState}
    (reached : t.Reached state) : t.Reached (refreshDerPrograms (t.reassign a).serve state).2 := by
  unfold refreshDerPrograms
  split
  · exact reached
  · refine .prune _ (.walk (fun v member => ?_) reached)
    obtain ⟨es, found, -⟩ :=
      (mem_refreshVisits (t := t.reassign a)).mp ⟨v, member, rfl, rfl⟩
    exact (reached.knows.devices _).mp ((Dict.mem_keys_iff _ _).mpr ⟨es, found⟩)

/-! ### Both refreshes -/

/-- The two refreshes in a row, as rediscovery makes them: the programs each
reports as removed, and the state. -/
def refreshTopology (t : ServerTree) (state : DiscoveredState) :
    List Href × List Href × DiscoveredState :=
  let fsas := refreshFunctionSetAssignments t.serve state
  let programs := refreshDerPrograms t.serve fsas.2
  (fsas.1, programs.1, programs.2)

theorem seesAt_refreshFsas {state : DiscoveredState} (knows : t.Knows state) (d p : Href) :
    t.SeesAt (refreshFunctionSetAssignments t.serve state).2 d p ↔ d ∈ t.devices ∧ t.Lists d p := by
  have done := refreshFsas_over knows
  constructor
  · rintro ⟨es, found, fsa, member, listed⟩
    have device := (done.knows.devices d).mp ((Dict.mem_keys_iff _ _).mpr ⟨es, found⟩)
    exact ⟨device, fsa, done.fsaList d es found device ▸ member, listed⟩
  · rintro ⟨device, fsa, member, listed⟩
    obtain ⟨es, found⟩ := (Dict.mem_keys_iff _ _).mp ((done.knows.devices d).mpr device)
    exact ⟨es, found, fsa, (done.fsaList d es found device).symm ▸ member, listed⟩

theorem sees_refreshFsas {state : DiscoveredState} (knows : t.Knows state) (p : Href) :
    t.Sees (refreshFunctionSetAssignments t.serve state).2 p ↔ t.Listed p := by
  simp only [Sees, Listed, seesAt_refreshFsas knows]

/-- The relation after both refreshes. -/
theorem refresh_related {state : DiscoveredState} (knows : t.Knows state) (p d : Href) :
    (t.refreshTopology state).2.2.deviceMapping.Related p d ↔
      (state.deviceMapping.Related p d ∧ (t.Listed p ∨ p ∉ state.derPrograms.keys)) ∨
        (d ∈ t.devices ∧ t.Lists d p) := by
  have done := refreshFsas_over knows
  unfold refreshTopology
  rw [refreshDerPrograms_related done.knows, sees_refreshFsas knows, seesAt_refreshFsas knows,
    done.deviceMapping, done.derPrograms]

/-- The two refreshes as the FSA poll and the program poll make them: the first
one forgets what it reports as removed. -/
def pollTopology (t : ServerTree) (state : DiscoveredState) :
    List Href × List Href × DiscoveredState :=
  let fsas := refreshFunctionSetAssignments t.serve state
  let programs := refreshDerPrograms t.serve (forgetPrograms fsas.1 fsas.2)
  (fsas.1, programs.1, programs.2)

/-- Both end in a state that a client can hold. -/
theorem Reached.refreshed (a : Assignment) {state : DiscoveredState} (reached : t.Reached state) :
    t.Reached ((t.reassign a).refreshTopology state).2.2 ∧
      t.Reached ((t.reassign a).pollTopology state).2.2 :=
  ⟨.refreshPrograms a (reached.refreshFsas a),
    .refreshPrograms a ((reached.refreshFsas a).forget _)⟩

/-- What the FSA poll forgets is held no more; the rest is as it was. -/
theorem forgetPrograms_spec (removed : List Href) (state : DiscoveredState) :
    (forgetPrograms removed state).endDevices = state.endDevices ∧
      (forgetPrograms removed state).previousFsaHrefs = state.previousFsaHrefs ∧
      (forgetPrograms removed state).deviceMapping = state.deviceMapping ∧
      ∀ p, p ∈ (forgetPrograms removed state).derPrograms.keys ↔
        p ∈ state.derPrograms.keys ∧ p ∉ removed := by
  unfold forgetPrograms
  induction removed generalizing state with
  | nil => exact ⟨rfl, rfl, rfl, by simp⟩
  | cons q rest ih =>
      obtain ⟨endDevices, snapshots, mapping, keys⟩ :=
        ih { state with derPrograms := state.derPrograms.erase q }
      refine ⟨endDevices, snapshots, mapping, fun p => (keys p).trans ?_⟩
      rw [Dict.mem_keys_erase, List.mem_cons]
      tauto

theorem knows_forgetPrograms {removed : List Href} {state : DiscoveredState}
    (knows : t.Knows state) : t.Knows (forgetPrograms removed state) := by
  obtain ⟨endDevices, snapshots, mapping, -⟩ := forgetPrograms_spec removed state
  refine ⟨?_, ?_, ?_, ?_, ?_⟩
  · exact endDevices ▸ knows.devices
  · exact endDevices ▸ knows.device
  · rw [endDevices, snapshots]
    exact knows.linkless
  · exact mapping ▸ knows.synced
  · exact mapping ▸ knows.relatedDevice

theorem seesAt_forgetPrograms {removed : List Href} {state : DiscoveredState} {d p : Href} :
    t.SeesAt (forgetPrograms removed state) d p ↔ t.SeesAt state d p := by
  unfold SeesAt
  rw [(forgetPrograms_spec removed state).1]

theorem sees_forgetPrograms {removed : List Href} {state : DiscoveredState} {p : Href} :
    t.Sees (forgetPrograms removed state) p ↔ t.Sees state p := by
  simp only [Sees, seesAt_forgetPrograms]

/-- The relation after both polls. -/
theorem poll_related {state : DiscoveredState} (knows : t.Knows state) (p d : Href) :
    (t.pollTopology state).2.2.deviceMapping.Related p d ↔
      (state.deviceMapping.Related p d ∧ (t.Listed p ∨
        ¬ (p ∈ state.derPrograms.keys ∧ p ∉ (t.pollTopology state).1))) ∨
        (d ∈ t.devices ∧ t.Lists d p) := by
  have done := refreshFsas_over knows
  unfold pollTopology
  obtain ⟨-, -, mapping, keys⟩ := forgetPrograms_spec
    (refreshFunctionSetAssignments t.serve state).1 (refreshFunctionSetAssignments t.serve state).2
  rw [refreshDerPrograms_related (knows_forgetPrograms done.knows), sees_forgetPrograms,
    seesAt_forgetPrograms, sees_refreshFsas knows, seesAt_refreshFsas knows, mapping, keys,
    done.deviceMapping, done.derPrograms]

/-- Neither does the program poll after it report a program that is listed. -/
theorem poll_removed {state : DiscoveredState} (knows : t.Knows state) {p : Href}
    (removed : p ∈ (t.pollTopology state).2.1) : ¬ t.Listed p := by
  intro listed
  have seen := (sees_refreshFsas knows p).mpr listed
  exact not_sees_of_removed removed (sees_forgetPrograms.mpr seen)

/-- The program refresh never reports a program that is still listed. -/
theorem refresh_removed {state : DiscoveredState} (knows : t.Knows state) {p : Href}
    (removed : p ∈ (t.refreshTopology state).2.1) : ¬ t.Listed p := by
  rw [← sees_refreshFsas knows]
  exact not_sees_of_removed removed

/-! ### Discovery, then a refresh -/

theorem refreshFsasOf_discover {d : Href} (member : d ∈ t.devices) :
    refreshFsasOf t.serve ([], discover t.serve) d = ([], discover t.serve) := by
  have found : (discover t.serve).endDevices.get? d = some (discoveredDevice t.serve d) := by
    rw [discover_endDevices, walkedDevices_serve, if_pos member]
  have snapshot : (discover t.serve).previousFsaHrefs.get? d = some (fsaHrefs (t.fsasOf d)) := by
    rw [discover_snapshot, if_pos member]
  unfold refreshFsasOf
  rw [found]
  simp only [discoveredDevice, discoveredFsas_serve]
  cases link : extractHref (t.serve.endDevice d).functionSetAssignmentsListLink with
  | none => rfl
  | some list =>
      have linked : t.serve.fsaList list = some (t.fsasOf d) := by
        have listed : t.fsasOf d = t.assignment.fsaList list := by
          unfold fsasOf
          rw [show t.endDevice d = t.serve.endDevice d from rfl, link]
        rw [listed]
        rfl
      have same : (discover t.serve).endDevices.set d
          { device := t.serve.endDevice d, lfdi := (t.serve.endDevice d).lfdi.getD "",
            fsaList := t.fsasOf d } = (discover t.serve).endDevices := by
        refine Dict.set_get?_self _ (found.trans ?_)
        rw [discoveredDevice, discoveredFsas_serve]
      simp only [linked, same, Dict.set_get?_self _ snapshot]
      simp [Dict.getD, snapshot]

/-- Right after discovery the FSA refresh changes nothing. -/
theorem refreshFsas_discover :
    refreshFunctionSetAssignments t.serve (discover t.serve) = ([], discover t.serve) := by
  unfold refreshFunctionSetAssignments
  have among : ∀ d ∈ (discover t.serve).endDevices.keys, d ∈ t.devices :=
    fun d hd => (knows_discover.devices d).mp hd
  generalize (discover t.serve).endDevices.keys = ds at among
  induction ds with
  | nil => rfl
  | cons d rest ih =>
      rw [List.foldl_cons, refreshFsasOf_discover (among d List.mem_cons_self)]
      exact ih fun e he => among e (List.mem_cons_of_mem _ he)

/-- The refresh walk right after discovery meets only what discovery met. -/
theorem refreshWalk_discover : refreshWalk t.serve (discover t.serve) = discover t.serve := by
  have seen : ∀ v ∈ refreshVisits t.serve (discover t.serve),
      v.device ∈ t.devices ∧ t.Lists v.device v.program := by
    intro v member
    have at_ : t.SeesAt (discover t.serve) v.device v.program :=
      mem_refreshVisits.mp ⟨v, member, rfl, rfl⟩
    have same := seesAt_refreshFsas (t := t) knows_discover v.device v.program
    rw [refreshFsas_discover] at same
    exact same.mp at_
  refine walk_eq_self _ (fun v member => ?_) (fun v member => ?_)
  · exact (discover_related_iff _ _).mpr ⟨(seen v member).1, .inl (seen v member).2⟩
  · have key : v.program ∈ (discover t.serve).derPrograms.keys :=
      (discover_keys_iff _).mpr ⟨v.device, (seen v member).1, .inl (seen v member).2⟩
    obtain ⟨ps, found⟩ := (Dict.mem_keys_iff _ _).mp key
    exact ⟨ps, found, discover_upToDate t.serve _ _ found⟩

/-- The primacy a state holds for a program. -/
def primacyOf (state : DiscoveredState) (p : Href) : Option Nat :=
  (state.derPrograms.get? p).map (·.primacy)

/-- The refresh leaves the topology as discovery left it. -/
structure Agrees (before : DiscoveredState) (after : List Href × List Href × DiscoveredState) :
    Prop where
  noneFromFsas : after.1 = []
  noneFromPrograms : after.2.1 = []
  keys : after.2.2.derPrograms.keys = before.derPrograms.keys
  primacy : ∀ p, primacyOf after.2.2 p = primacyOf before p
  mapping : after.2.2.deviceMapping = before.deviceMapping

/-- Refreshing an unchanged server right after discovery removes and changes
nothing, exactly when every program that a device without FSAs takes from the
DeviceCapability list is listed by some device's FSA as well. -/
theorem refresh_agrees_iff (t : ServerTree) :
    Agrees (discover t.serve) (t.refreshTopology (discover t.serve)) ↔
      ∀ d ∈ t.devices, ∀ p, t.FallsBackTo d p → t.Listed p := by
  have seen := sees_refreshFsas (t := t) knows_discover
  rw [refreshFsas_discover] at seen
  unfold refreshTopology
  rw [refreshFsas_discover]
  constructor
  · intro agrees d member p falls
    by_contra unlisted
    have linked : (discover t.serve).endDevices.entries ≠ [] := by
      intro none_
      have key := (knows_discover.devices d).mpr member
      simp [Dict.keys, none_] at key
    have removed := (mem_refreshDerPrograms_removed linked p).mpr
      ⟨(discover_keys_iff p).mpr ⟨d, member, .inr falls⟩, fun h => unlisted ((seen p).mp h)⟩
    rw [agrees.noneFromPrograms] at removed
    cases removed
  · intro listed
    have fresh : stalePrograms t.serve (discover t.serve) = [] := by
      refine List.eq_nil_iff_forall_not_mem.mpr fun p stale => ?_
      obtain ⟨key, unseen⟩ := mem_stalePrograms.mp stale
      obtain ⟨d, member, lists | falls⟩ := (discover_keys_iff p).mp key
      · exact unseen ((seen p).mpr ⟨d, member, lists⟩)
      · exact unseen ((seen p).mpr (listed d member p falls))
    have same : refreshDerPrograms t.serve (discover t.serve) = ([], discover t.serve) := by
      unfold refreshDerPrograms
      rw [fresh, refreshWalk_discover]
      split <;> rfl
    dsimp only
    rw [same]
    exact ⟨rfl, rfl, rfl, fun _ => rfl, rfl⟩

/-- One EndDevice without an FSA list link, served through the DeviceCapability. -/
def unassignedTree : ServerTree where
  endDevices := [some "/edev/1"]
  endDevice := fun _ => { lfdi := some "A1", functionSetAssignmentsListLink := none }
  derprogramListLink := some "/derp"
  assignment :=
    { fsaList := fun _ => []
      derprogramList := fun _ => [some "/derp/1"]
      derprogram := fun _ => { primacy := some 1, defaultDercontrolLink := none,
                               dercontrolListLink := none, dercurveListLink := none }
      fetch := fun _ => { dderc := .error .other, curves := [], controls := [] } }

/-- Its only program is gone after the first refresh. -/
theorem unassignedTree_pruned :
    ¬ Agrees (discover unassignedTree.serve)
        (unassignedTree.refreshTopology (discover unassignedTree.serve)) ∧
      (unassignedTree.refreshTopology (discover unassignedTree.serve)).2.1 = ["/derp/1"] := by
  have pruned : (unassignedTree.refreshTopology (discover unassignedTree.serve)).2.1 =
      ["/derp/1"] := by decide
  refine ⟨fun agrees => ?_, pruned⟩
  have none_ := agrees.noneFromPrograms
  rw [pruned] at none_
  cases none_

/-! ### A refresh after the server changed -/

/-- The refreshed topology is the server's own. -/
structure Converges (t : ServerTree) (after : List Href × List Href × DiscoveredState) : Prop where
  mapping : ∀ p d, after.2.2.deviceMapping.Related p d ↔ d ∈ t.devices ∧ t.Lists d p
  removed : ∀ p, p ∈ after.1 ∨ p ∈ after.2.1 → ¬ t.Listed p

/-- No device keeps a program it lost: a known pair whose program is listed
somewhere is listed for that very device. -/
def NoneWithdrawn (t : ServerTree) (state : DiscoveredState) : Prop :=
  ∀ p d, state.deviceMapping.Related p d → t.Listed p → t.Lists d p

/-- An FSA that left a device's list takes no listed program with it. -/
def NoneReattributed (t : ServerTree) (state : DiscoveredState) : Prop :=
  ∀ d ∈ t.devices, ∀ f ∈ t.dropped state d, ∀ p ∈ state.programsFromFsa f, ¬ t.Listed p

/-- A program that is mapped but listed nowhere is still held. -/
def NoneForgotten (t : ServerTree) (state : DiscoveredState) : Prop :=
  ∀ p d, state.deviceMapping.Related p d → ¬ t.Listed p → p ∈ state.derPrograms.keys

/-- An FSA that left a device's list takes no mapped program with it. -/
def NoneDeparted (t : ServerTree) (state : DiscoveredState) : Prop :=
  ∀ d ∈ t.devices, ∀ f ∈ t.dropped state d, ∀ p ∈ state.programsFromFsa f,
    ∀ e, ¬ state.deviceMapping.Related p e

/-- Two EndDevices, each with an FSA list of its own. -/
def sharedTree : ServerTree where
  endDevices := [some "/edev/1", some "/edev/2"]
  endDevice := fun d => { lfdi := some d, functionSetAssignmentsListLink := some (d ++ "/fsa") }
  derprogramListLink := none
  assignment :=
    { fsaList := fun link =>
        if link = "/edev/1/fsa" then [⟨some "/fsa/1", some "/fsa/1/derp"⟩]
        else [⟨some "/fsa/2", some "/fsa/2/derp"⟩]
      derprogramList := fun _ => [some "/derp/1"]
      derprogram := fun _ => { primacy := some 1, defaultDercontrolLink := none,
                               dercontrolListLink := none, dercurveListLink := none }
      fetch := fun _ => { dderc := .error .other, curves := [], controls := [] } }

/-- The first device's only FSA is withdrawn; the second keeps its own. -/
def withdrawn : Assignment :=
  { sharedTree.assignment with
    fsaList := fun link =>
      if link = "/edev/1/fsa" then [] else [⟨some "/fsa/2", some "/fsa/2/derp"⟩] }

/-- The first device's FSA lists another program. -/
def extended : Assignment :=
  { sharedTree.assignment with
    derprogramList := fun link =>
      if link = "/fsa/1/derp" then [some "/derp/1", some "/derp/2"] else [some "/derp/1"] }

theorem extended_lists {d p : Href} (lists : sharedTree.Lists d p ∨ sharedTree.FallsBackTo d p) :
    (sharedTree.reassign extended).Lists d p := by
  have one : ∀ fsa, sharedTree.programsAt fsa = [] ∨
      (sharedTree.programsAt fsa = ["/derp/1"] ∧
        "/derp/1" ∈ (sharedTree.reassign extended).programsAt fsa) := by
    intro fsa
    unfold programsAt
    split
    · exact .inl rfl
    · refine .inr ⟨rfl, ?_⟩
      simp only [reassign, extended]
      split <;> decide
  rcases lists with ⟨fsa, member, listed⟩ | ⟨-, listed⟩
  · refine ⟨fsa, member, ?_⟩
    rcases one fsa.derprogramListLink with none_ | ⟨same, grown⟩
    · rw [none_] at listed
      cases listed
    · rw [same] at listed
      obtain rfl := List.mem_singleton.mp listed
      exact grown
  · exact absurd listed List.not_mem_nil

end ServerTree

end Py20305
