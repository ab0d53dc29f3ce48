import Py20305.Subscription.Manager

/-!
A subscription the server has cancelled.

`suppress_resubscribe` keeps `_auto_subscribe` from a resource whose subscription
the server cancelled; `reconcile` does not ask it, so a rediscovery that still wants
the resource POSTs a Subscription for it (`wantedAgain_posted`). Nothing else does:
where the notification leaves no subscription of the resource active and no call at
it, it stays unsubscribed to until a rediscovery wants it or the suppression is
cleared (`cancelled_stays_cancelled`).
-/

namespace Py20305

/-- The step asks for no subscription of the resource: no `reconcile` of a
rediscovery wants it, no call is made to subscribe to it, and the suppression is not
cleared. -/
def SubLabel.Leaves (resource : Href) : SubLabel → Prop
  | .call (.subscribe other _) => other ≠ resource
  | .call (.reconcile desired _) => resource ∉ desired.map Prod.fst
  | .clearSuppression => False
  | _ => True

namespace Subs

variable (s : Subs) (resource : Href)

/-! ### What is done with the resource -/

/-- The state is not an active subscription of the resource. -/
def Mute (r : SubRef) : Prop := s.resourceOf r ≠ resource ∨ s.isActive r = false

/-- No state of the loop a call goes on with is of the resource. -/
def SparesCont : Cont → Prop
  | .server r rest _ => ∀ r' ∈ r :: rest, s.resourceOf r' ≠ resource
  | _ => True

/-- `reconcile` will not create a subscription of the resource. -/
def SparesPhase : Phase → Prop
  | .cancels _ keep create renewKept =>
      (renewKept = true → resource ∉ keep.map Prod.fst) ∧ resource ∉ create.map Prod.fst
  | .renews keep create => resource ∉ keep.map Prod.fst ∧ resource ∉ create.map Prod.fst
  | _ => True

/-- The call will not POST a Subscription of the resource. A renewal of it can, once
its PUT has failed; one that is POSTed leaves a cancelled state cancelled. -/
def SparesWait : Wait → Prop
  | .subscribing other _ next => other ≠ resource ∧ s.SparesCont resource next
  | .putting _ r next => s.resourceOf r ≠ resource ∧ s.SparesCont resource next
  | .posting _ r next => s.Mute resource r ∧ s.SparesCont resource next
  | .gathering _ phase => SparesPhase resource phase
  | _ => True

/-- The task will not. -/
def Spares : SubTask → Prop
  | .created (.subscribe other _) => other ≠ resource
  | .waiting w => s.SparesWait resource w
  | _ => True

/-- The resource is suppressed, no subscription of it is active, no task but `p` is at
it, and none was POSTed since `before`. -/
structure Silent (before : List Href) (p : Nat) : Prop where
  suppressed : resource ∈ s.suppressed
  table : ∀ uri r, s.subscriptions.get? uri = some r → s.Mute resource r
  tasks : ∀ q task, q ≠ p → s.tasks q = some task → s.Spares resource task
  posted : ∃ more, s.posted = before ++ more ∧ resource ∉ more

/-- The same with no task at it. -/
def Left (before : List Href) : Prop := ∀ p, s.Silent resource before p

variable {s resource} {before : List Href} {p : Nat}

/-! ### Changes of the table -/

/-- No state becomes one of the resource, and none active. -/
structure Onward (resource : Href) (s t : Subs) : Prop where
  foreign : ∀ r, s.resourceOf r ≠ resource → t.resourceOf r ≠ resource
  mute : ∀ r, s.Mute resource r → t.Mute resource r

namespace Onward

variable {t : Subs}

theorem of_object (object : t.object = s.object) : Onward resource s t := by
  refine ⟨fun r => ?_, fun r => ?_⟩
  · simp only [resourceOf, object, imp_self]
  · simp only [Mute, resourceOf, isActive, object, imp_self]

theorem cont (onward : Onward resource s t) {next : Cont} (spares : s.SparesCont resource next) :
    t.SparesCont resource next := by
  cases next with
  | done | auto | validate | renewals => trivial
  | server r rest served => exact fun r' listed => onward.foreign r' (spares r' listed)

theorem spares (onward : Onward resource s t) {task : SubTask} (spares : s.Spares resource task) :
    t.Spares resource task := by
  cases task with
  | finished => trivial
  | created child =>
      cases child with
      | cancelOne | renew => trivial
      | subscribe other resourceType => exact spares
  | waiting w =>
      cases w with
      | subscribing other resourceType next => exact ⟨spares.1, onward.cont spares.2⟩
      | putting uri r next => exact ⟨onward.foreign r spares.1, onward.cont spares.2⟩
      | posting uri r next => exact ⟨onward.mute r spares.1, onward.cont spares.2⟩
      | deleting | listing => trivial
      | gathering tasks phase => exact spares

end Onward

/-- Whatever a call does to the table that leaves no subscription of the resource. -/
theorem Silent.onward {t : Subs} (silent : s.Silent resource before p) (onward : Onward resource s t)
    (suppressed : t.suppressed = s.suppressed) (tasks : t.tasks = s.tasks)
    (posted : t.posted = s.posted)
    (table : ∀ uri r, t.subscriptions.get? uri = some r → t.Mute resource r) :
    t.Silent resource before p := by
  refine ⟨suppressed ▸ silent.suppressed, table, fun q task other holds => ?_, posted ▸ silent.posted⟩
  exact onward.spares (silent.tasks q task other (tasks ▸ holds))

theorem Silent.pop (silent : s.Silent resource before p) (uri : Href) :
    (s.pop uri).Silent resource before p := by
  refine silent.onward (.of_object rfl) rfl rfl rfl fun uri' r stored => ?_
  simp only [Subs.pop, Dict.get?_erase] at stored
  split at stored
  · cases stored
  · exact silent.table uri' r stored

theorem Silent.popAll (silent : s.Silent resource before p) (uris : List Href) :
    (s.popAll uris).Silent resource before p := by
  induction uris generalizing s with
  | nil => exact silent
  | cons uri rest ih => exact ih (silent.pop uri)

theorem Silent.restore (silent : s.Silent resource before p) {r : SubRef}
    (mute : s.Mute resource r) : (s.restore r).Silent resource before p := by
  refine silent.onward (.of_object rfl) rfl rfl rfl fun uri r' stored => ?_
  simp only [Subs.restore, Dict.get?_set] at stored
  split at stored
  · exact Option.some.inj stored ▸ mute
  · exact silent.table uri r' stored

theorem onward_rekey (old : Href) (r : SubRef) (uri : Href) :
    Onward resource s (s.rekey old r uri) := by
  have same : ∀ r', (s.rekey old r uri).resourceOf r' = s.resourceOf r' ∧
      (s.rekey old r uri).isActive r' = s.isActive r' := fun r' => by
    by_cases at_ : r' = r <;> simp [Subs.rekey, resourceOf, isActive, Function.update, at_]
  refine ⟨fun r' => ?_, fun r' => ?_⟩
  · simp only [same, imp_self]
  · simp only [Mute, same, imp_self]

theorem Silent.rekey (silent : s.Silent resource before p) {r : SubRef} (mute : s.Mute resource r)
    (old uri : Href) : (s.rekey old r uri).Silent resource before p := by
  have onward : Onward resource s (s.rekey old r uri) := onward_rekey old r uri
  refine silent.onward onward rfl rfl rfl fun uri' r' stored => ?_
  simp only [Subs.rekey, Dict.get?_set, Dict.get?_erase] at stored
  split at stored
  · exact Option.some.inj stored ▸ onward.mute r mute
  · split at stored
    · cases stored
    · exact onward.mute r' (silent.table uri' r' stored)

/-- A new state of another resource. -/
theorem onward_insert {other : Href} (foreign : other ≠ resource) (uri : Href)
    (resourceType : String) (unmanaged : Bool) :
    Onward resource s (s.insert uri other resourceType unmanaged) := by
  have old : ∀ r, r ≠ s.next →
      (s.insert uri other resourceType unmanaged).object r = s.object r := fun r apart => by
    simp [Subs.insert, Function.update, apart]
  have new : (s.insert uri other resourceType unmanaged).resourceOf s.next ≠ resource := by
    simpa [Subs.insert, resourceOf] using foreign
  refine ⟨fun r holds => ?_, fun r holds => ?_⟩
  · by_cases fresh : r = s.next
    · exact fresh ▸ new
    · rwa [resourceOf, old r fresh]
  · by_cases fresh : r = s.next
    · exact .inl (fresh ▸ new)
    · rwa [Mute, resourceOf, isActive, old r fresh]

theorem Silent.insert (silent : s.Silent resource before p) {other : Href}
    (foreign : other ≠ resource) (uri : Href) (resourceType : String) (unmanaged : Bool) :
    (s.insert uri other resourceType unmanaged).Silent resource before p := by
  have onward : Onward resource s (s.insert uri other resourceType unmanaged) :=
    onward_insert foreign uri resourceType unmanaged
  refine silent.onward onward rfl rfl rfl fun uri' r stored => ?_
  simp only [Subs.insert, Dict.get?_set] at stored
  split at stored
  · obtain rfl := Option.some.inj stored
    exact .inl (by simpa [Subs.insert, resourceOf] using foreign)
  · exact onward.mute r (silent.table uri' r stored)

theorem onward_markCancelled (uri : Href) : Onward resource s (s.markCancelled uri) := by
  unfold markCancelled
  split
  · exact .of_object rfl
  · rename_i r _
    refine ⟨fun r' holds => ?_, fun r' holds => ?_⟩
    · by_cases at_ : r' = r
      · subst at_
        simpa [resourceOf] using holds
      · simpa [resourceOf, Function.update, at_] using holds
    · by_cases at_ : r' = r
      · exact .inr (by simp [isActive, at_])
      · simpa [Mute, resourceOf, isActive, Function.update, at_] using holds

theorem Silent.markCancelled (silent : s.Silent resource before p) (uri : Href) :
    (s.markCancelled uri).Silent resource before p := by
  refine silent.onward (onward_markCancelled uri) ?_ ?_ ?_ fun uri' r stored => ?_
  · unfold Subs.markCancelled
    split <;> rfl
  · unfold Subs.markCancelled
    split <;> rfl
  · unfold Subs.markCancelled
    split <;> rfl
  · refine (onward_markCancelled uri).mute r (silent.table uri' r ?_)
    unfold Subs.markCancelled at stored
    split at stored <;> exact stored

/-! ### Tasks -/

theorem Silent.put (silent : s.Silent resource before p) {task : SubTask}
    (spares : s.Spares resource task) : (s.put p task).Left resource before := by
  have onward : Onward resource s (s.put p task) := .of_object rfl
  refine fun q => ⟨silent.suppressed, silent.table, fun q' task' _ holds => ?_, silent.posted⟩
  by_cases same : q' = p
  · simp only [Subs.put, same, Function.update_self, Option.some.injEq] at holds
    exact onward.spares (holds ▸ spares)
  · simp only [Subs.put, Function.update_of_ne same] at holds
    exact onward.spares (silent.tasks q' task' same holds)

theorem Silent.finish (silent : s.Silent resource before p) (ok : Bool) :
    (s.finish p ok).Left resource before := silent.put trivial

theorem Silent.wait (silent : s.Silent resource before p) {w : Wait}
    (spares : s.SparesWait resource w) : (s.wait p w).Left resource before := silent.put spares

/-- A Subscription of another resource goes out. -/
theorem Silent.post (silent : s.Silent resource before p) {other : Href}
    (foreign : other ≠ resource) : (s.post other).Silent resource before p := by
  obtain ⟨more, posted, absent⟩ := silent.posted
  have onward : Onward resource s (s.post other) := .of_object rfl
  refine ⟨silent.suppressed, silent.table, ?_, more ++ [other], ?_, ?_⟩
  · exact fun q task apart holds => onward.spares (silent.tasks q task apart holds)
  · simp [Subs.post, posted]
  · simp [absent, foreign.symm]

theorem Silent.gather (silent : s.Silent resource before p) {children : List Child} {phase : Phase}
    (spared : ∀ child ∈ children, s.Spares resource (.created child))
    (sparedLater : SparesPhase resource phase) :
    (s.gather p children phase).Left resource before := by
  suffices made : ∀ (t : Subs), t.Silent resource before p →
      (children.foldl (fun (acc : Subs) child =>
        { acc.put acc.nextTask (.created child) with nextTask := acc.nextTask + 1 }) t).Silent
        resource before p from
    (made s silent).wait sparedLater
  intro t silent
  induction children generalizing t with
  | nil => exact silent
  | cons child rest ih =>
      refine ih (fun child' listed => spared child' (List.mem_cons_of_mem _ listed)) _ ?_
      have onward : Onward resource t
          { t.put t.nextTask (.created child) with nextTask := t.nextTask + 1 } := .of_object rfl
      refine ⟨silent.suppressed, silent.table, fun q task apart holds => ?_, silent.posted⟩
      by_cases same : q = t.nextTask
      · simp only [Subs.put, same, Function.update_self, Option.some.injEq] at holds
        have own := spared child List.mem_cons_self
        subst holds
        cases child with
        | cancelOne | renew => trivial
        | subscribe other resourceType => exact own
      · simp only [Subs.put, Function.update_of_ne same] at holds
        exact onward.spares (silent.tasks q task apart holds)

/-! ### Calls -/

variable {settings : SubSettings}

theorem Silent.subscribe (silent : s.Silent resource before p) {other : Href} {resourceType : String}
    {next : Cont} {t : Subs} (sent : s.subscribe p other resourceType next = some t)
    (foreign : other ≠ resource) (spares : s.SparesCont resource next) : t.Left resource before := by
  unfold Subs.subscribe at sent
  split at sent
  · cases sent
  · obtain rfl := Option.some.inj sent
    have onward : Onward resource s (s.post other) := .of_object rfl
    exact (silent.post foreign).wait ⟨foreign, onward.cont spares⟩

theorem Silent.subscribe_getD (silent : s.Silent resource before p) {other : Href}
    (foreign : other ≠ resource) (resourceType : String) :
    ((s.subscribe p other resourceType .done).getD (s.finish p true)).Left resource before := by
  cases sent : s.subscribe p other resourceType .done with
  | none => exact silent.finish true
  | some t => exact silent.subscribe sent foreign trivial

/-- Only what is active is renewed. -/
theorem Silent.renew (silent : s.Silent resource before p) {uri : Href} {next : Cont} {t : Subs}
    (sent : s.renew settings p uri next = .ok t) (spares : s.SparesCont resource next) :
    t.Left resource before := by
  unfold Subs.renew at sent
  cases found : s.subscriptions.get? uri with
  | none => simp [found] at sent
  | some r =>
      simp only [found] at sent
      split at sent
      · cases sent
      · rename_i active
        have foreign : s.resourceOf r ≠ resource := (silent.table uri r found).resolve_right active
        split at sent
        · cases sent
        · split at sent
          · obtain rfl := Except.ok.inj sent
            exact silent.wait ⟨foreign, spares⟩
          · obtain rfl := Except.ok.inj sent
            have onward : Onward resource s (s.post (s.resourceOf r)) := .of_object rfl
            exact (silent.post foreign).wait ⟨.inl foreign, onward.cont spares⟩

/-- `_auto_subscribe` skips what is suppressed. -/
theorem Silent.autoLoop (silent : s.Silent resource before p) (desired : List (Href × String)) :
    (s.autoLoop p desired).Left resource before := by
  induction desired with
  | nil => exact silent.finish true
  | cons e rest ih =>
      obtain ⟨other, resourceType⟩ := e
      simp only [Subs.autoLoop]
      split
      · exact ih
      · rename_i unsuppressed
        split
        · exact ih
        · rename_i sent
          refine silent.subscribe sent ?_ trivial
          rintro rfl
          exact unsuppressed silent.suppressed

theorem Silent.renewLoop (silent : s.Silent resource before p) (drops : Bool) (uris : List Href) :
    (Subs.renewLoop settings drops p uris s).Left resource before := by
  induction uris with
  | nil => exact silent.finish true
  | cons uri rest ih =>
      simp only [Subs.renewLoop]
      split
      · rename_i sent
        refine silent.renew sent ?_
        cases drops <;> trivial
      · exact ih

/-- The loop of `reconcile_with_server` over states of other resources. -/
theorem Silent.serverLoop (reestablishMissing : Bool) (served : ServerList) {rest : List SubRef}
    (silent : s.Silent resource before p) (foreign : ∀ r ∈ rest, s.resourceOf r ≠ resource) :
    (Subs.serverLoop reestablishMissing p served rest s).Left resource before := by
  induction rest generalizing s with
  | nil => exact silent.finish true
  | cons r rest ih =>
      have own := foreign r List.mem_cons_self
      have later : ∀ r' ∈ rest, s.resourceOf r' ≠ resource :=
        fun r' listed => foreign r' (List.mem_cons_of_mem _ listed)
      have dropped := ih (silent.pop (s.uriOf r)) later
      simp only [Subs.serverLoop]
      split
      · exact ih silent later
      · split
        · split
          · exact ih silent later
          · rename_i uri _
            split
            · refine ih (silent.rekey (.inl own) _ uri) fun r' listed => ?_
              exact (onward_rekey _ r uri).foreign r' (later r' listed)
            · exact ih silent later
        · split
          · split
            · exact dropped
            · exact ih silent later
          · split
            · exact dropped
            · rename_i sent
              exact (silent.pop (s.uriOf r)).subscribe sent own foreign

theorem Silent.resume (silent : s.Silent resource before p) {ok : Bool} {next : Cont}
    (spares : s.SparesCont resource next) : (s.resume settings p ok next).Left resource before := by
  cases next with
  | done => exact silent.finish ok
  | auto rest => exact silent.autoLoop rest
  | validate uri rest =>
      cases ok with
      | true => exact silent.renewLoop true rest
      | false => exact (silent.pop uri).renewLoop true rest
  | renewals rest => exact silent.renewLoop false rest
  | server r rest served =>
      have later : ∀ r' ∈ rest, s.resourceOf r' ≠ resource :=
        fun r' listed => spares r' (List.mem_cons_of_mem _ listed)
      cases ok with
      | true => exact silent.serverLoop true served later
      | false =>
          exact (silent.restore (.inl (spares r List.mem_cons_self))).serverLoop true served later

/-! ### Reconciling -/

theorem Silent.createAll (silent : s.Silent resource before p) {create : List (Href × String)}
    (absent : resource ∉ create.map Prod.fst) : (s.createAll p create).Left resource before := by
  unfold Subs.createAll
  split
  · exact silent.finish true
  · refine silent.gather (fun child made => ?_) trivial
    obtain ⟨e, listed, rfl⟩ := List.mem_map.mp made
    exact fun same => absent (List.mem_map.mpr ⟨e, listed, same⟩)

theorem Silent.renewKeep (silent : s.Silent resource before p) {keep : List (Href × SubRef)}
    {create : List (Href × String)} {renewKept : Bool}
    (absentKept : renewKept = true → resource ∉ keep.map Prod.fst)
    (absent : resource ∉ create.map Prod.fst) :
    (s.renewKeep p keep create renewKept).Left resource before := by
  unfold Subs.renewKeep
  split
  · rename_i renews
    refine silent.gather (fun child made => ?_) ⟨absentKept renews.2, absent⟩
    obtain ⟨e, -, rfl⟩ := List.mem_map.mp made
    trivial
  · exact silent.createAll absent

/-- The states that `reconcile` finds are active, each under its resource. -/
theorem mem_byResource {key : Href} {r : SubRef} (found : s.byResource.get? key = some r) :
    r ∈ s.activeSubscriptions ∧ s.resourceOf r = key := by
  suffices folded : ∀ (rs : List SubRef) (old : Dict Href SubRef),
      (rs.foldl (fun d r => d.set (s.object r).subscribedResource r) old).get? key = some r →
        old.get? key = some r ∨ (r ∈ rs ∧ s.resourceOf r = key) from
    (folded s.activeSubscriptions Dict.empty found).resolve_left (by simp)
  intro rs
  induction rs with
  | nil => exact fun old found => .inl found
  | cons r' rest ih =>
      intro old found
      obtain earlier | ⟨listed, at_⟩ := ih _ found
      · rw [Dict.get?_set] at earlier
        split at earlier
        · rename_i same
          obtain rfl := Option.some.inj earlier
          exact .inr ⟨List.mem_cons_self, same.symm⟩
        · exact .inl earlier
      · exact .inr ⟨List.mem_cons_of_mem _ listed, at_⟩

/-- What is wanted is what was asked for. -/
theorem mem_keys_wanted {key : Href} (desired : List (Href × String)) (d : Dict Href String)
    (wanted : key ∈ (desired.foldl (fun (d : Dict Href String) e => d.set e.1 e.2) d).keys) :
    key ∈ d.keys ∨ key ∈ desired.map Prod.fst := by
  induction desired generalizing d with
  | nil => exact .inl wanted
  | cons e rest ih =>
      obtain earlier | later := ih _ wanted
      · rcases (Dict.mem_keys_set _ _ _ _).mp earlier with same | old
        · exact .inr (same ▸ List.mem_cons_self)
        · exact .inl old
      · exact .inr (List.mem_cons_of_mem _ later)

/-- A `reconcile` that does not want the resource. -/
theorem Silent.reconcile (silent : s.Silent resource before p) {desired : List (Href × String)}
    (unwanted : resource ∉ desired.map Prod.fst) (renewKept : Bool) :
    (s.reconcile p desired renewKept).Left resource before := by
  have unkept : ∀ e ∈ s.byResource.entries, e.1 ≠ resource := by
    rintro ⟨key, r⟩ listed rfl
    obtain ⟨active, at_⟩ := mem_byResource ((Dict.mem_entries_iff _ _ _).mp listed)
    obtain ⟨⟨uri, stored⟩, active⟩ := mem_activeSubscriptions active
    obtain elsewhere | cancelled := silent.table uri r stored
    · exact elsewhere at_
    · simp [cancelled] at active
  have absentKept : ∀ f, resource ∉ (s.byResource.entries.filter f).map Prod.fst := by
    intro f member
    obtain ⟨e, listed, same⟩ := List.mem_map.mp member
    exact unkept e (List.mem_filter.mp listed).1 same
  have absent : ∀ f, resource ∉ ((desired.foldl (fun (d : Dict Href String) e => d.set e.1 e.2)
      Dict.empty).entries.filter f).map Prod.fst := by
    intro f member
    obtain ⟨e, listed, same⟩ := List.mem_map.mp member
    have wanted := mem_keys_wanted desired Dict.empty
      (List.mem_map.mpr ⟨e, (List.mem_filter.mp listed).1, same⟩)
    exact wanted.elim (by simp [Dict.keys, Dict.empty]) unwanted
  simp only [Subs.reconcile]
  split
  · exact (silent.popAll _).renewKeep (fun _ => absentKept _) (absent _)
  · refine (silent.popAll _).gather (fun child made => ?_) ⟨fun _ => absentKept _, absent _⟩
    obtain ⟨uri, -, rfl⟩ := List.mem_map.mp made
    trivial

theorem Silent.gathered (silent : s.Silent resource before p) (tasks : List Nat) {phase : Phase}
    (spares : SparesPhase resource phase) : (s.gathered p tasks phase).Left resource before := by
  cases phase with
  | cancels uris keep create renewKept => exact (silent.popAll uris).renewKeep spares.1 spares.2
  | renews keep create =>
      refine (silent.popAll _).createAll fun member => ?_
      rw [List.map_append, List.mem_append] at member
      obtain wanted | again := member
      · exact spares.2 wanted
      · obtain ⟨e, listed, same⟩ := List.mem_map.mp again
        obtain ⟨e', failed, rfl⟩ := List.mem_map.mp listed
        obtain ⟨pair, zipped, rfl⟩ := List.mem_map.mp failed
        have member := (List.of_mem_zip (List.mem_filter.mp zipped).1).1
        exact spares.1 (List.mem_map.mpr ⟨pair.1, member, same⟩)
  | creates => exact silent.finish true
  | cancelAll =>
      have cleared : ({ s with subscriptions := Dict.empty } : Subs).Silent resource before p :=
        silent.onward (.of_object rfl) rfl rfl rfl fun uri r stored => by cases stored
      exact cleared.finish true

/-! ### Steps -/

theorem Silent.begin_ (silent : s.Silent resource before p) {c : SubCall}
    (leaves : SubLabel.Leaves resource (.call c)) :
    (s.begin_ settings p c).Left resource before := by
  cases c with
  | subscribe other resourceType => exact silent.subscribe_getD leaves resourceType
  | cancel uri =>
      simp only [Subs.begin_]
      split
      · exact (silent.pop uri).finish true
      · exact silent.wait trivial
  | cancelAll =>
      simp only [Subs.begin_]
      split
      · exact silent.finish true
      · refine silent.gather (fun child made => ?_) trivial
        obtain ⟨uri, -, rfl⟩ := List.mem_map.mp made
        trivial
  | renewals uris => exact silent.renewLoop false uris
  | validateRestored => exact silent.renewLoop true _
  | reconcile desired renewKept => exact silent.reconcile leaves renewKept
  | reconcileWithServer reestablishMissing => exact silent.wait trivial
  | autoSubscribe desired => exact silent.autoLoop desired

theorem Silent.startChild (silent : s.Silent resource before p) {child : Child}
    (spares : s.Spares resource (.created child)) :
    (s.startChild settings p child).Left resource before := by
  cases child with
  | cancelOne uri =>
      simp only [Subs.startChild]
      split
      · exact silent.finish true
      · exact silent.wait trivial
  | renew uri =>
      simp only [Subs.startChild]
      split
      · rename_i sent
        exact silent.renew sent trivial
      · exact silent.finish _
  | subscribe other resourceType => exact silent.subscribe_getD spares resourceType

theorem Silent.answer (silent : s.Silent resource before p) {w : Wait} {a : SubAnswer} {t : Subs}
    (spares : s.SparesWait resource w) (answered : s.answer settings p w a = some t) :
    t.Left resource before := by
  cases w with
  | subscribing other resourceType next =>
      obtain ⟨foreign, spares⟩ := spares
      cases a with
      | created location =>
          simp only [Subs.answer] at answered
          split at answered
          · obtain rfl := Option.some.inj answered
            exact (silent.insert foreign _ _ _).resume ((onward_insert foreign _ _ _).cont spares)
          · split at answered
            · obtain rfl := Option.some.inj answered
              exact (silent.insert foreign _ _ _).resume ((onward_insert foreign _ _ _).cont spares)
            · obtain rfl := Option.some.inj answered
              exact silent.resume spares
      | gone | failed =>
          obtain rfl := Option.some.inj answered
          exact silent.resume spares
      | ok | listed => cases answered
  | deleting uri pops =>
      have popped : (if pops = true then s.pop uri else s).Silent resource before p := by
        split
        · exact silent.pop uri
        · exact silent
      cases a with
      | ok | gone | failed =>
          obtain rfl := Option.some.inj answered
          exact popped.finish _
      | created | listed => cases answered
  | putting uri r next =>
      obtain ⟨foreign, spares⟩ := spares
      cases a with
      | ok | failed =>
          obtain rfl := Option.some.inj answered
          exact silent.resume spares
      | gone =>
          obtain rfl := Option.some.inj answered
          have onward : Onward resource s (s.post (s.resourceOf r)) := .of_object rfl
          exact (silent.post foreign).wait ⟨.inl foreign, onward.cont spares⟩
      | created | listed => cases answered
  | posting uri r next =>
      obtain ⟨mute, spares⟩ := spares
      cases a with
      | created location =>
          simp only [Subs.answer] at answered
          split at answered
          · obtain rfl := Option.some.inj answered
            split
            · exact (silent.rekey mute _ _).resume ((onward_rekey _ r _).cont spares)
            · exact silent.resume spares
          · obtain rfl := Option.some.inj answered
            exact silent.resume spares
      | gone | failed =>
          obtain rfl := Option.some.inj answered
          exact silent.resume spares
      | ok | listed => cases answered
  | listing reestablishMissing =>
      cases a with
      | listed served =>
          obtain rfl := Option.some.inj answered
          refine silent.serverLoop reestablishMissing served fun r listed => ?_
          obtain ⟨⟨uri, stored⟩, active⟩ := mem_activeSubscriptions listed
          exact (silent.table uri r stored).resolve_right (by simp [active])
      | gone | failed =>
          obtain rfl := Option.some.inj answered
          exact silent.finish true
      | created | ok => cases answered
  | gathering tasks phase => cases a <;> cases answered

/-- A step that asks for no subscription of the resource. -/
theorem Left.step {l : SubLabel} {t : Subs} (left : s.Left resource before)
    (leaves : l.Leaves resource) (stepped : subStep settings l s = some t) :
    t.Left resource before := by
  have spares : ∀ p task, s.tasks p = some task → s.Spares resource task :=
    fun p task holds => (left (p + 1)).tasks p task (by omega) holds
  cases l with
  | call c =>
      obtain rfl := Option.some.inj stepped
      have silent : ({ s with nextTask := s.nextTask + 1 } : Subs).Silent resource before s.nextTask :=
        (left s.nextTask).onward (.of_object rfl) rfl rfl rfl (left s.nextTask).table
      exact silent.begin_ leaves
  | start p =>
      simp only [subStep] at stepped
      split at stepped
      · rename_i made
        obtain rfl := Option.some.inj stepped
        exact (left p).startChild (spares p _ made)
      · cases stepped
  | answer p a =>
      simp only [subStep] at stepped
      split at stepped
      · rename_i waits
        exact (left p).answer (spares p _ waits) stepped
      · cases stepped
  | gathered p =>
      simp only [subStep] at stepped
      split at stepped
      · rename_i waits
        split at stepped
        · obtain rfl := Option.some.inj stepped
          exact (left p).gathered _ (spares p _ waits)
        · cases stepped
      · cases stepped
  | kill p =>
      simp only [subStep] at stepped
      split at stepped
      · obtain rfl := Option.some.inj stepped
        exact (left p).finish false
      · obtain rfl := Option.some.inj stepped
        exact (left p).finish false
      · cases stepped
  | markCancelled uri =>
      obtain rfl := Option.some.inj stepped
      exact fun p => (left p).markCancelled uri
  | cancelledByServer uri other =>
      simp only [subStep] at stepped
      split at stepped
      · obtain rfl := Option.some.inj stepped
        intro p
        have marked := (left p).markCancelled uri
        have onward : Onward resource (s.markCancelled uri)
            { s.markCancelled uri with suppressed := other :: s.suppressed } := .of_object rfl
        refine ⟨List.mem_cons_of_mem _ (left p).suppressed, marked.table, ?_, marked.posted⟩
        exact fun q task apart holds => onward.spares (marked.tasks q task apart holds)
      · obtain rfl := Option.some.inj stepped
        exact left
  | clearSuppression => exact leaves.elim

/-- No subscription of the resource is active, and no call is at it. -/
def Unused (s : Subs) (resource : Href) : Prop :=
  (∀ uri r, s.subscriptions.get? uri = some r → s.Mute resource r) ∧
    ∀ p task, s.tasks p = some task → s.Spares resource task

end Subs

/-- The server cancels the subscription of a resource, which leaves no other
subscription of it active and no call at it. As long as no rediscovery wants the
resource and the suppression is not cleared, no Subscription of it is POSTed again,
whatever calls are made and however they are interleaved and answered. -/
theorem cancelled_stays_cancelled {settings : SubSettings} {s t u : Subs} {uri resource : Href}
    (heard : s.shouldProcess uri resource = true)
    (cancelled : (subscriptionManager settings).step (.cancelledByServer uri resource) s = some t)
    (unused : t.Unused resource)
    (later : (subscriptionManager settings).Run (fun _ l _ => l.Leaves resource) t u) :
    ∃ more, u.posted = t.posted ++ more ∧ resource ∉ more := by
  have suppressed : resource ∈ t.suppressed := by
    simp only [subStep, heard, if_true, Option.some.injEq] at cancelled
    rw [← cancelled]
    exact List.mem_cons_self
  have first : t.Left resource t.posted := fun p =>
    ⟨suppressed, unused.1, fun q task _ holds => unused.2 q task holds, [], by simp, by simp⟩
  have left : u.Left resource t.posted := by
    refine Machine.Run.keeps (P := fun (v : Subs) => v.Left resource t.posted)
      (fun l v w stepped leaves kept => ?_) later first
    exact Subs.Left.step kept leaves stepped
  exact (left 0).posted

/-! ### A rediscovery that still wants the resource -/

/-- A subscription that the server has cancelled. -/
def serverCancelled : List SubLabel :=
  [.call (.subscribe "/derp/1/derc" "DERControlList"), .answer 0 (.created (some "/sub/1")),
    .cancelledByServer "/sub/1" "/derp/1/derc"]

/-- `_auto_subscribe` and a renewal, which pass the resource over. -/
def passingOver : List SubLabel :=
  [.call (.autoSubscribe [("/derp/1/derc", "DERControlList")]), .call (.renewals ["/sub/1"])]

theorem serverCancelled_unused : (afterCalls serverCancelled).Unused "/derp/1/derc" := by
  refine ⟨fun uri r stored => ?_, fun p task holds => ?_⟩
  · have listed : r ∈ (afterCalls serverCancelled).subscriptions.values :=
      (Dict.mem_values_iff _ _).mpr ⟨uri, stored⟩
    obtain rfl : r = 0 := by simpa using (show r ∈ [0] from listed)
    exact .inr rfl
  · obtain _ | p := p
    · obtain rfl := Option.some.inj holds
      trivial
    · cases holds

/-- They POST no Subscription. -/
theorem passingOver_posts :
    (afterCalls (serverCancelled ++ passingOver)).posted = ["/derp/1/derc"] ∧
      ∃ more, (afterCalls (serverCancelled ++ passingOver)).posted =
        (afterCalls serverCancelled).posted ++ more ∧ "/derp/1/derc" ∉ more := by
  refine ⟨rfl, @cancelled_stays_cancelled plainSettings (afterCalls (serverCancelled.take 2)) _ _
    "/sub/1" _ rfl rfl serverCancelled_unused ?_⟩
  exact .step (.call (.renewals ["/sub/1"])) (.step
    (.call (.autoSubscribe [("/derp/1/derc", "DERControlList")])) (.refl _) rfl trivial) rfl trivial

/-- A rediscovery wants the resource. -/
def wantedAgain : List SubLabel :=
  serverCancelled ++ [.call (.reconcile [("/derp/1/derc", "DERControlList")] false), .start 2]

/-- The server has cancelled the subscription, none of the resource is active, no call
is at it, and the suppression is still set; a second Subscription is POSTed. -/
theorem wantedAgain_posted :
    (subscriptionManager plainSettings).Run Machine.Free {} (afterCalls serverCancelled) ∧
      (afterCalls serverCancelled).Unused "/derp/1/derc" ∧
      (subscriptionManager plainSettings).Run (fun _ l _ => l ≠ .clearSuppression)
        (afterCalls serverCancelled) (afterCalls wantedAgain) ∧
      (afterCalls serverCancelled).posted = ["/derp/1/derc"] ∧
      (afterCalls wantedAgain).posted = ["/derp/1/derc", "/derp/1/derc"] := by
  refine ⟨Machine.run_of_exec serverCancelled rfl, serverCancelled_unused, ?_, rfl, rfl⟩
  exact .step (.start 2) (.step (.call (.reconcile [("/derp/1/derc", "DERControlList")] false))
    (.refl _) rfl (by simp)) rfl (by simp)

end Py20305
