import Py20305.Subscription.Manager

/-!
One active subscription per resource.

A call that waits for a POST or a renewal is at work on a resource: it looked at
the table before it waits and changes the table after. Two calls at work on one
resource can leave two active subscriptions of it (`twice_twoActive`), and a list
of the server's that moves a subscription under renewal leaves it under a key that
is not its path. Where no two calls are ever at work on one resource, and no list
moves a subscription another call is at work on, the table stays in order
(`oneActive_of_apart`).
-/

namespace Py20305

/-! ### What a call is at work on -/

/-- The states a call still has to see to. -/
def Cont.pending : Cont → List SubRef
  | .server _ rest _ => rest
  | _ => []

/-- The call is not `reconcile_with_server`. -/
def Cont.Plain : Cont → Prop
  | .server .. => False
  | _ => True

namespace Subs

variable (s : Subs)

/-- The resources a waiting call is at work on. -/
def worksOn : Wait → List Href
  | .subscribing resource _ next => resource :: next.pending.map s.resourceOf
  | .putting _ r _ | .posting _ r _ => [s.resourceOf r]
  | _ => []

/-- No call but `p` is at work on the resource. -/
def Clear (p : Nat) (resource : Href) : Prop :=
  ∀ q w, q ≠ p → s.tasks q = some (.waiting w) → resource ∉ s.worksOn w

/-- No two calls are at work on one resource. -/
def Apart : Prop :=
  ∀ p w resource, s.tasks p = some (.waiting w) → resource ∈ s.worksOn w → s.Clear p resource

/-- Of the states `rest`, the server's list moves none that another call than `p` is
at work on. -/
def Spared (p : Nat) (served : ServerList) (rest : List SubRef) : Prop :=
  ∀ r ∈ rest, ∀ uri, served.uriOf (s.resourceOf r) = some uri →
    uri = s.uriOf r ∨ s.Clear p (s.resourceOf r)

/-- The server's list moves no subscription that another call is at work on. -/
def Undisturbed : SubLabel → Prop
  | .answer p (.listed served) =>
      s.Spared p served s.activeSubscriptions
  | _ => True

/-! ### The table in order -/

/-- Each key is the path of the state under it. -/
def Keyed : Prop := ∀ uri r, s.subscriptions.get? uri = some r → s.uriOf r = uri

/-- No other state than `r` is the active one of its resource. -/
def Rightful (r : SubRef) : Prop :=
  ∀ uri r', s.subscriptions.get? uri = some r' → s.isActive r' = true →
    s.resourceOf r' = s.resourceOf r → r' = r

/-- The resource has no active subscription. -/
def Vacant (resource : Href) : Prop :=
  ∀ uri r, s.subscriptions.get? uri = some r → s.isActive r = true → s.resourceOf r ≠ resource

/-- No resource has two active subscriptions. -/
def OneActive : Prop :=
  ∀ uri uri' r r', s.subscriptions.get? uri = some r → s.subscriptions.get? uri' = some r' →
    s.isActive r = true → s.isActive r' = true → s.resourceOf r = s.resourceOf r' → uri = uri'

/-- The states of a loop are of distinct resources and each the only one of its. -/
structure Queue (rest : List SubRef) : Prop where
  nodup : (rest.map s.resourceOf).Nodup
  known : ∀ r ∈ rest, r < s.next
  rightful : ∀ r ∈ rest, s.Rightful r

/-- What a waiting call relies on. -/
def Holds : Wait → Prop
  | .subscribing resource _ next =>
      s.Vacant resource ∧ s.Queue next.pending ∧ resource ∉ next.pending.map s.resourceOf ∧
        ∀ r rest served, next = .server r rest served → r < s.next ∧ s.resourceOf r = resource
  | .putting uri r next | .posting uri r next =>
      r < s.next ∧ s.uriOf r = uri ∧ s.Rightful r ∧ next.Plain
  | _ => True

/-- The table is in order, and every waiting call but `p` can rely on it. -/
structure Sound (p : Nat) : Prop where
  keyed : s.Keyed
  known : ∀ uri r, s.subscriptions.get? uri = some r → r < s.next
  single : ∀ uri r, s.subscriptions.get? uri = some r → s.isActive r = true → s.Rightful r
  holds : ∀ q w, q ≠ p → s.tasks q = some (.waiting w) → s.Holds w

/-- The table is in order, and every waiting call can rely on it. -/
def Settled : Prop := ∀ p, s.Sound p

variable {s}

theorem Sound.oneActive {p : Nat} (sound : s.Sound p) : s.OneActive := by
  intro uri uri' r r' stored stored' active active' same
  obtain rfl := sound.single uri' r' stored' active' uri r stored active same
  rw [← sound.keyed uri r stored, ← sound.keyed uri' r stored']

theorem findActive_eq_none {resource : Href} (unfound : s.findActive resource = none) :
    s.Vacant resource := by
  intro uri r stored active same
  have absent := List.find?_eq_none.mp unfound r
    (List.mem_filter.mpr ⟨(Dict.mem_values_iff _ _).mpr ⟨uri, stored⟩, active⟩)
  exact absent (decide_eq_true same)

/-! ### Changes of the table -/

/-- From `s` to `t` only subscriptions of the resource `touched` were moved or added. -/
structure Within (touched : Option Href) (s t : Subs) : Prop where
  next : s.next ≤ t.next
  resource : ∀ r < s.next, t.resourceOf r = s.resourceOf r
  uri : ∀ r < s.next, some (s.resourceOf r) ≠ touched → t.uriOf r = s.uriOf r
  stored : ∀ uri r, t.subscriptions.get? uri = some r → t.isActive r = true →
    some (t.resourceOf r) ≠ touched →
      s.isActive r = true ∧ t.resourceOf r = s.resourceOf r ∧
        ∃ uri', s.subscriptions.get? uri' = some r

namespace Within

variable {touched : Option Href} {t : Subs}

theorem rightful (within : Within touched s t) {r : SubRef} (known : r < s.next)
    (other : some (s.resourceOf r) ≠ touched) (rightful : s.Rightful r) : t.Rightful r := by
  intro uri r' stored active same
  rw [within.resource r known] at same
  obtain ⟨active', kept, uri', stored'⟩ := within.stored uri r' stored active (by rwa [same])
  exact rightful uri' r' stored' active' (kept.symm.trans same)

theorem vacant (within : Within touched s t) {resource : Href} (other : some resource ≠ touched)
    (vacant : s.Vacant resource) : t.Vacant resource := by
  intro uri r stored active same
  obtain ⟨active', kept, uri', stored'⟩ := within.stored uri r stored active (by rwa [same])
  exact vacant uri' r stored' active' (kept.symm.trans same)

theorem map_resourceOf (within : Within touched s t) {rest : List SubRef}
    (known : ∀ r ∈ rest, r < s.next) : rest.map t.resourceOf = rest.map s.resourceOf :=
  List.map_congr_left fun r listed => within.resource r (known r listed)

theorem queue (within : Within touched s t) {rest : List SubRef} (queue : s.Queue rest)
    (other : ∀ r ∈ rest, some (s.resourceOf r) ≠ touched) : t.Queue rest where
  nodup := within.map_resourceOf queue.known ▸ queue.nodup
  known := fun r listed => (queue.known r listed).trans_le within.next
  rightful := fun r listed =>
    within.rightful (queue.known r listed) (other r listed) (queue.rightful r listed)

/-- What a call is at work on stays the same. -/
theorem worksOn (within : Within touched s t) {w : Wait} (holds : s.Holds w) :
    t.worksOn w = s.worksOn w := by
  cases w with
  | subscribing resource resourceType next =>
      exact congrArg (resource :: ·) (within.map_resourceOf holds.2.1.known)
  | putting uri r next => exact congrArg (fun x => [x]) (within.resource r holds.1)
  | posting uri r next => exact congrArg (fun x => [x]) (within.resource r holds.1)
  | deleting uri pops => rfl
  | listing reestablishMissing => rfl
  | gathering tasks phase => rfl

/-- A call can still rely on what it relies on if it is at work on other resources. -/
theorem holds (within : Within touched s t) {w : Wait} (holds : s.Holds w)
    (other : ∀ resource ∈ s.worksOn w, some resource ≠ touched) : t.Holds w := by
  cases w with
  | subscribing resource resourceType next =>
      obtain ⟨vacant, queue, fresh, own⟩ := holds
      refine ⟨within.vacant (other _ List.mem_cons_self) vacant, within.queue queue ?_, ?_, ?_⟩
      · exact fun r listed => other _ (List.mem_cons_of_mem _ (List.mem_map_of_mem listed))
      · rwa [within.map_resourceOf queue.known]
      · intro r rest served same
        obtain ⟨known, at_⟩ := own r rest served same
        exact ⟨known.trans_le within.next, (within.resource r known).trans at_⟩
  | putting uri r next =>
      obtain ⟨known, path, rightful, plain⟩ := holds
      have other := other _ List.mem_cons_self
      exact ⟨known.trans_le within.next, (within.uri r known other).trans path,
        within.rightful known other rightful, plain⟩
  | posting uri r next =>
      obtain ⟨known, path, rightful, plain⟩ := holds
      have other := other _ List.mem_cons_self
      exact ⟨known.trans_le within.next, (within.uri r known other).trans path,
        within.rightful known other rightful, plain⟩
  | deleting uri pops => trivial
  | listing reestablishMissing => trivial
  | gathering tasks phase => trivial

end Within

/-- What `p` does to the resource no other call is at work on keeps the rest sound. -/
theorem Sound.within {p : Nat} {touched : Option Href} {t : Subs} (sound : s.Sound p)
    (within : Within touched s t) (tasks : t.tasks = s.tasks)
    (clear : ∀ resource, touched = some resource → s.Clear p resource)
    (keyed : t.Keyed) (known : ∀ uri r, t.subscriptions.get? uri = some r → r < t.next)
    (single : ∀ uri r, t.subscriptions.get? uri = some r → t.isActive r = true → t.Rightful r) :
    t.Sound p := by
  refine ⟨keyed, known, single, fun q w other waits => ?_⟩
  rw [tasks] at waits
  refine within.holds (sound.holds q w other waits) fun resource works same => ?_
  exact clear resource same.symm q w other waits works

/-- A resource stays clear. -/
theorem Clear.within {p : Nat} {touched : Option Href} {t : Subs} {resource : Href}
    (clear : s.Clear p resource) (sound : s.Sound p) (within : Within touched s t)
    (tasks : t.tasks = s.tasks) : t.Clear p resource := by
  intro q w other waits works
  rw [tasks] at waits
  rw [within.worksOn (sound.holds q w other waits)] at works
  exact clear q w other waits works

/-! ### The operations on the table -/

variable {p : Nat}

/-- Entries go, and some become cancelled. -/
theorem Sound.shrink {t : Subs} (sound : s.Sound p) (tasks : t.tasks = s.tasks)
    (next : t.next = s.next) (resource : ∀ r, t.resourceOf r = s.resourceOf r)
    (path : ∀ r, t.uriOf r = s.uriOf r) (active : ∀ r, t.isActive r = true → s.isActive r = true)
    (stored : ∀ uri r, t.subscriptions.get? uri = some r → s.subscriptions.get? uri = some r) :
    Within none s t ∧ t.Sound p := by
  have within : Within none s t := by
    refine ⟨next.ge, fun r _ => resource r, fun r _ _ => path r, fun uri r left alive _ => ?_⟩
    exact ⟨active r alive, resource r, uri, stored uri r left⟩
  refine ⟨within, sound.within within tasks (fun _ none_ => by cases none_) ?_ ?_ ?_⟩
  · exact fun uri r left => (path r).trans (sound.keyed uri r (stored uri r left))
  · exact fun uri r left => next ▸ sound.known uri r (stored uri r left)
  · intro uri r left alive
    have before := stored uri r left
    exact within.rightful (sound.known uri r before) (by simp)
      (sound.single uri r before (active r alive))

theorem get?_pop {uri uri' : Href} {r : SubRef}
    (stored : (s.pop uri).subscriptions.get? uri' = some r) :
    s.subscriptions.get? uri' = some r := by
  simp only [pop, Dict.get?_erase] at stored
  split at stored
  · cases stored
  · exact stored

theorem Sound.pop (sound : s.Sound p) (uri : Href) :
    Within none s (s.pop uri) ∧ (s.pop uri).Sound p :=
  sound.shrink rfl rfl (fun _ => rfl) (fun _ => rfl) (fun _ alive => alive)
    (fun _ _ stored => get?_pop stored)

theorem Sound.popAll (sound : s.Sound p) (uris : List Href) : (s.popAll uris).Sound p := by
  induction uris generalizing s with
  | nil => exact sound
  | cons uri rest ih => exact ih (sound.pop uri).2

theorem Sound.clear (sound : s.Sound p) : ({ s with subscriptions := Dict.empty } : Subs).Sound p :=
  (sound.shrink (t := { s with subscriptions := Dict.empty }) rfl rfl (fun _ => rfl) (fun _ => rfl)
    (fun _ alive => alive) (fun _ _ stored => by cases stored)).2

theorem Sound.markCancelled (sound : s.Sound p) (uri : Href) : (s.markCancelled uri).Sound p := by
  unfold Subs.markCancelled
  split
  · exact sound
  · rename_i r _
    refine (sound.shrink (t := { s with object := Function.update s.object r _ }) rfl rfl ?_ ?_ ?_
      fun _ _ stored => stored).2
    · intro r'
      by_cases same : r' = r <;> simp [resourceOf, Function.update, same]
    · intro r'
      by_cases same : r' = r <;> simp [uriOf, Function.update, same]
    · intro r' alive
      by_cases same : r' = r
      · subst same
        simp [isActive] at alive
      · simpa [isActive, Function.update, same] using alive

/-- A new subscription of a resource that has none. -/
theorem Sound.insert (sound : s.Sound p) {resource : Href} (vacant : s.Vacant resource)
    (clear : s.Clear p resource) (uri : Href) (resourceType : String) (unmanaged : Bool) :
    Within (some resource) s (s.insert uri resource resourceType unmanaged) ∧
      (s.insert uri resource resourceType unmanaged).Sound p := by
  set t := s.insert uri resource resourceType unmanaged with made
  have old : ∀ r, r ≠ s.next → t.object r = s.object r := fun r other => by
    simp [made, Subs.insert, Function.update, other]
  have new : t.uriOf s.next = uri ∧ t.resourceOf s.next = resource := by
    simp [made, Subs.insert, uriOf, resourceOf]
  have split : ∀ uri' r, t.subscriptions.get? uri' = some r →
      (uri' = uri ∧ r = s.next) ∨ s.subscriptions.get? uri' = some r ∧ r < s.next := by
    intro uri' r stored
    simp only [made, Subs.insert, Dict.get?_set] at stored
    split at stored
    · exact .inl ⟨‹_›, (Option.some.inj stored).symm⟩
    · exact .inr ⟨stored, sound.known uri' r stored⟩
  have within : Within (some resource) s t := by
    refine ⟨Nat.le_succ _, ?_, ?_, ?_⟩
    · exact fun r known => congrArg _ (old r known.ne)
    · exact fun r known _ => congrArg _ (old r known.ne)
    · intro uri' r stored alive other
      obtain ⟨-, rfl⟩ | ⟨before, known⟩ := split uri' r stored
      · exact absurd (congrArg some new.2) other
      · exact ⟨by rwa [isActive, ← old r known.ne], congrArg _ (old r known.ne), uri', before⟩
  refine ⟨within, sound.within within rfl (fun _ same => ?_) ?_ ?_ ?_⟩
  · rwa [← Option.some.inj same]
  · intro uri' r stored
    obtain ⟨rfl, rfl⟩ | ⟨before, known⟩ := split uri' r stored
    · exact new.1
    · exact (congrArg _ (old r known.ne)).trans (sound.keyed uri' r before)
  · intro uri' r stored
    obtain ⟨-, rfl⟩ | ⟨-, known⟩ := split uri' r stored
    · exact Nat.lt_succ_self _
    · exact known.trans (Nat.lt_succ_self _)
  · intro uri' r stored alive
    have activeBefore : ∀ r' < s.next, t.isActive r' = true → s.isActive r' = true :=
      fun r' known alive => by rwa [isActive, ← old r' known.ne]
    obtain ⟨-, rfl⟩ | ⟨before, known⟩ := split uri' r stored
    · intro uri'' r' stored' alive' same
      obtain ⟨-, rfl⟩ | ⟨before', known'⟩ := split uri'' r' stored'
      · rfl
      · exact absurd ((within.resource r' known').symm.trans (same.trans new.2))
          (vacant uri'' r' before' (activeBefore r' known' alive'))
    · refine within.rightful known (fun same => ?_)
        (sound.single uri' r before (activeBefore r known alive))
      exact vacant uri' r before (activeBefore r known alive) (Option.some.inj same)

/-- A state that is the only one of its resource is stored under its path. -/
theorem Sound.place (sound : s.Sound p) {r : SubRef} (known : r < s.next) (rightful : s.Rightful r)
    (clear : s.Clear p (s.resourceOf r)) {t : Subs} (tasks : t.tasks = s.tasks)
    (next : t.next = s.next) (others : ∀ r', r' ≠ r → t.object r' = s.object r')
    (resource : t.resourceOf r = s.resourceOf r)
    (stored : ∀ uri r', t.subscriptions.get? uri = some r' →
      (uri = t.uriOf r ∧ r' = r) ∨ r' ≠ r ∧ s.subscriptions.get? uri = some r') :
    Within (some (s.resourceOf r)) s t ∧ t.Sound p := by
  have resources : ∀ r', t.resourceOf r' = s.resourceOf r' := fun r' => by
    by_cases same : r' = r
    · rw [same, resource]
    · exact congrArg _ (others r' same)
  have within : Within (some (s.resourceOf r)) s t := by
    refine ⟨next.ge, fun r' _ => resources r', fun r' _ other => ?_, ?_⟩
    · exact congrArg _ (others r' fun same => other (by rw [same]))
    · intro uri r' left alive other
      obtain ⟨-, rfl⟩ | ⟨distinct, before⟩ := stored uri r' left
      · exact absurd (congrArg some resource) other
      · exact ⟨by rwa [isActive, ← others r' distinct], resources r', uri, before⟩
  have only : t.Rightful r := by
    intro uri r' left alive same
    obtain ⟨-, rfl⟩ | ⟨distinct, before⟩ := stored uri r' left
    · rfl
    · rw [resources, resources] at same
      exact rightful uri r' before (by rwa [isActive, ← others r' distinct]) same
  refine ⟨within, sound.within within tasks (fun _ same => ?_) ?_ ?_ ?_⟩
  · rwa [← Option.some.inj same]
  · intro uri r' left
    obtain ⟨rfl, rfl⟩ | ⟨distinct, before⟩ := stored uri r' left
    · rfl
    · exact (congrArg _ (others r' distinct)).trans (sound.keyed uri r' before)
  · intro uri r' left
    obtain ⟨-, rfl⟩ | ⟨-, before⟩ := stored uri r' left
    · exact next ▸ known
    · exact next ▸ sound.known uri r' before
  · intro uri r' left alive
    obtain ⟨-, rfl⟩ | ⟨distinct, before⟩ := stored uri r' left
    · exact only
    · have active : s.isActive r' = true := by rwa [isActive, ← others r' distinct]
      refine within.rightful (sound.known uri r' before) (fun same => ?_)
        (sound.single uri r' before active)
      exact distinct (rightful uri r' before active (Option.some.inj same))

/-- A state gets another path. -/
theorem Sound.rekey (sound : s.Sound p) {r : SubRef} (known : r < s.next) (rightful : s.Rightful r)
    (clear : s.Clear p (s.resourceOf r)) (uri : Href) :
    Within (some (s.resourceOf r)) s (s.rekey (s.uriOf r) r uri) ∧
      (s.rekey (s.uriOf r) r uri).Sound p := by
  refine sound.place known rightful clear rfl rfl (fun r' other => ?_) ?_ fun uri' r' stored => ?_
  · simp [Subs.rekey, Function.update, other]
  · simp [Subs.rekey, resourceOf]
  · simp only [Subs.rekey, Dict.get?_set, Dict.get?_erase] at stored
    split at stored
    · rename_i at_
      exact .inl ⟨by simp [Subs.rekey, uriOf, at_], (Option.some.inj stored).symm⟩
    · split at stored
      · cases stored
      · rename_i moved
        refine .inr ⟨?_, stored⟩
        rintro rfl
        exact moved (sound.keyed uri' r' stored).symm

/-- A state is put back. -/
theorem Sound.restore (sound : s.Sound p) {r : SubRef} (known : r < s.next)
    (rightful : s.Rightful r) (clear : s.Clear p (s.resourceOf r)) :
    Within (some (s.resourceOf r)) s (s.restore r) ∧ (s.restore r).Sound p := by
  refine sound.place known rightful clear rfl rfl (fun _ _ => rfl) rfl fun uri r' stored => ?_
  simp only [Subs.restore, Dict.get?_set] at stored
  split at stored
  · exact .inl ⟨‹_›, (Option.some.inj stored).symm⟩
  · rename_i elsewhere
    refine .inr ⟨?_, stored⟩
    rintro rfl
    exact elsewhere (sound.keyed uri r' stored).symm

/-! ### Tasks -/

/-- The table stays as it is, and every call that waits can rely on it. -/
theorem Sound.retask (sound : s.Sound p) {q : Nat} {t : Subs} (object : t.object = s.object)
    (next : t.next = s.next) (subscriptions : t.subscriptions = s.subscriptions)
    (holds : ∀ q' w, q' ≠ q → t.tasks q' = some (.waiting w) → s.Holds w) : t.Sound q := by
  obtain ⟨object', next', subscriptions', suppressed, tasks, nextTask, posted⟩ := t
  obtain rfl : object' = s.object := object
  obtain rfl : next' = s.next := next
  obtain rfl : subscriptions' = s.subscriptions := subscriptions
  refine ⟨sound.keyed, sound.known, sound.single, fun q' w other waits => ?_⟩
  have within : Within none s
      ⟨s.object, s.next, s.subscriptions, suppressed, tasks, nextTask, posted⟩ :=
    ⟨le_rfl, fun _ _ => rfl, fun _ _ _ => rfl, fun uri _ left alive _ => ⟨alive, rfl, uri, left⟩⟩
  exact within.holds (holds q' w other waits) (by simp)

/-- A call that waits can rely on the table. -/
theorem Sound.wait (sound : s.Sound p) {w : Wait} (holds : s.Holds w) : (s.wait p w).Settled := by
  intro q
  refine sound.retask rfl rfl rfl fun q' w' _ waits => ?_
  by_cases same : q' = p
  · simp only [Subs.wait, put, same, Function.update_self, Option.some.injEq, SubTask.waiting.injEq]
      at waits
    exact waits ▸ holds
  · simp only [Subs.wait, put, Function.update_of_ne same] at waits
    exact sound.holds q' w' same waits

/-- The Subscriptions POSTed so far do not matter. -/
theorem Sound.send (sound : s.Sound p) {w : Wait} (holds : s.Holds w) (resource : Href) :
    ((s.post resource).wait p w).Settled :=
  fun q => (sound.wait holds q).retask rfl rfl rfl (sound.wait holds q).holds

theorem Sound.finish (sound : s.Sound p) (ok : Bool) : (s.finish p ok).Settled := by
  intro q
  refine sound.retask rfl rfl rfl fun q' w _ waits => ?_
  by_cases same : q' = p
  · simp [Subs.finish, put, same] at waits
  · simp only [Subs.finish, put, Function.update_of_ne same] at waits
    exact sound.holds q' w same waits

theorem Sound.gather (sound : s.Sound p) (children : List Child) (phase : Phase) :
    (s.gather p children phase).Settled := by
  suffices made : ∀ (t : Subs), t.Sound p → (children.foldl (fun (acc : Subs) child =>
      { acc.put acc.nextTask (.created child) with nextTask := acc.nextTask + 1 }) t).Sound p from
    (made s sound).wait trivial
  intro t sound
  induction children generalizing t with
  | nil => exact sound
  | cons child rest ih =>
      refine ih _ (sound.retask rfl rfl rfl fun q w other waits => ?_)
      by_cases same : q = t.nextTask
      · simp [put, same] at waits
      · simp only [put, Function.update_of_ne same] at waits
        exact sound.holds q w other waits

/-! ### Calls -/

theorem Queue.nil : s.Queue [] := ⟨List.nodup_nil, by simp, by simp⟩

/-- A `subscribe` that goes out can rely on the table. -/
theorem Sound.subscribe (sound : s.Sound p) {resource : Href} {resourceType : String} {next : Cont}
    {t : Subs} (sent : s.subscribe p resource resourceType next = some t)
    (queue : s.Queue next.pending) (fresh : resource ∉ next.pending.map s.resourceOf)
    (own : ∀ r rest served, next = .server r rest served → r < s.next ∧ s.resourceOf r = resource) :
    t.Settled := by
  simp only [Subs.subscribe] at sent
  split at sent
  · cases sent
  · rename_i unfound
    obtain rfl := Option.some.inj sent
    refine sound.send ?_ resource
    exact ⟨findActive_eq_none unfound, queue, fresh, own⟩

/-- A `subscribe` that is not part of `reconcile_with_server`. -/
theorem Sound.subscribe_getD (sound : s.Sound p) (resource : Href) (resourceType : String) :
    ((s.subscribe p resource resourceType .done).getD (s.finish p true)).Settled := by
  cases sent : s.subscribe p resource resourceType .done with
  | none => exact sound.finish true
  | some t => exact sound.subscribe sent Queue.nil (by simp [Cont.pending]) (by simp)

variable {settings : SubSettings}

/-- A `renew` that goes out can rely on the table. -/
theorem Sound.renew (sound : s.Sound p) {uri : Href} {next : Cont} {t : Subs}
    (sent : s.renew settings p uri next = .ok t) (plain : next.Plain) : t.Settled := by
  unfold Subs.renew at sent
  cases found : s.subscriptions.get? uri with
  | none => simp [found] at sent
  | some r =>
      simp only [found] at sent
      split at sent
      · cases sent
      · rename_i active
        have rightful := sound.single uri r found (by simpa using active)
        have known := sound.known uri r found
        have path := sound.keyed uri r found
        split at sent
        · cases sent
        · split at sent
          · obtain rfl := Except.ok.inj sent
            exact sound.wait ⟨known, path, rightful, plain⟩
          · obtain rfl := Except.ok.inj sent
            refine sound.send ?_ _
            exact ⟨known, path, rightful, plain⟩

theorem Sound.autoLoop (sound : s.Sound p) (desired : List (Href × String)) :
    (s.autoLoop p desired).Settled := by
  induction desired with
  | nil => exact sound.finish true
  | cons e rest ih =>
      obtain ⟨resource, resourceType⟩ := e
      simp only [Subs.autoLoop]
      split
      · exact ih
      · split
        · exact ih
        · rename_i sent
          exact sound.subscribe sent Queue.nil (by simp [Cont.pending]) (by simp)

theorem Sound.renewLoop (sound : s.Sound p) (drops : Bool) (uris : List Href) :
    (Subs.renewLoop settings drops p uris s).Settled := by
  induction uris with
  | nil => exact sound.finish true
  | cons uri rest ih =>
      simp only [Subs.renewLoop]
      split
      · rename_i sent
        refine sound.renew sent ?_
        cases drops <;> trivial
      · exact ih

theorem Spared.within {served : ServerList} {rest : List SubRef} {touched : Option Href} {t : Subs}
    (spared : s.Spared p served rest) (sound : s.Sound p) (queue : s.Queue rest)
    (within : Within touched s t) (tasks : t.tasks = s.tasks)
    (other : ∀ r ∈ rest, some (s.resourceOf r) ≠ touched) : t.Spared p served rest := by
  intro r listed uri moved
  have known := queue.known r listed
  rw [within.resource r known] at moved ⊢
  rw [within.uri r known (other r listed)]
  exact (spared r listed uri moved).imp_right fun clear => clear.within sound within tasks

/-- The loop of `reconcile_with_server`. -/
theorem Sound.serverLoop (reestablishMissing : Bool) (served : ServerList) {rest : List SubRef}
    (sound : s.Sound p) (queue : s.Queue rest) (spared : s.Spared p served rest) :
    (Subs.serverLoop reestablishMissing p served rest s).Settled := by
  induction rest generalizing s with
  | nil => exact sound.finish true
  | cons r rest ih =>
      obtain ⟨fresh, distinct⟩ := List.nodup_cons.mp queue.nodup
      have known := queue.known r List.mem_cons_self
      have later : s.Queue rest :=
        ⟨distinct, fun r' listed => queue.known r' (List.mem_cons_of_mem _ listed),
          fun r' listed => queue.rightful r' (List.mem_cons_of_mem _ listed)⟩
      have sparedLater : s.Spared p served rest :=
        fun r' listed => spared r' (List.mem_cons_of_mem _ listed)
      have popped := sound.pop (s.uriOf r)
      have dropped :
          (Subs.serverLoop reestablishMissing p served rest (s.pop (s.uriOf r))).Settled :=
        ih popped.2 (popped.1.queue later (by simp))
          (sparedLater.within sound later popped.1 rfl (by simp))
      simp only [Subs.serverLoop]
      split
      · exact ih sound later sparedLater
      · split
        · split
          · exact ih sound later sparedLater
          · rename_i uri listed
            split
            · rename_i moved
              -- Adopted: the state has to itself what the list moves.
              have clear := (spared r List.mem_cons_self uri listed).resolve_left moved
              have moved := sound.rekey known (queue.rightful r List.mem_cons_self) clear uri
              have other : ∀ r' ∈ rest, some (s.resourceOf r') ≠ some (s.resourceOf r) :=
                fun r' member same => fresh (Option.some.inj same ▸ List.mem_map_of_mem member)
              exact ih moved.2 (moved.1.queue later other)
                (sparedLater.within sound later moved.1 rfl other)
            · exact ih sound later sparedLater
        · split
          · split
            · exact dropped
            · exact ih sound later sparedLater
          · split
            · exact dropped
            · rename_i sent
              refine popped.2.subscribe sent (popped.1.queue later (by simp)) fresh ?_
              intro r' rest' served' same
              cases same
              exact ⟨known, rfl⟩

/-- What the loop a call goes on with finds. -/
def Ready (s : Subs) (p : Nat) (ok : Bool) : Cont → Prop
  | .server r rest _ =>
      s.Queue rest ∧ (∀ r' ∈ rest, s.Clear p (s.resourceOf r')) ∧
        (ok = false → r < s.next ∧ s.resourceOf r ∉ rest.map s.resourceOf ∧
          s.Vacant (s.resourceOf r) ∧ s.Clear p (s.resourceOf r))
  | _ => True

theorem Ready.plain {ok : Bool} {next : Cont} (plain : next.Plain) : s.Ready p ok next := by
  cases next with
  | done | auto | validate | renewals => trivial
  | server => cases plain

theorem Sound.resume (sound : s.Sound p) {ok : Bool} {next : Cont} (ready : s.Ready p ok next) :
    (s.resume settings p ok next).Settled := by
  cases next with
  | done => exact sound.finish ok
  | auto rest => exact sound.autoLoop rest
  | validate uri rest =>
      cases ok with
      | true => exact sound.renewLoop true rest
      | false => exact (sound.pop uri).2.renewLoop true rest
  | renewals rest => exact sound.renewLoop false rest
  | server r rest served =>
      obtain ⟨queue, clear, failed⟩ := ready
      have spared : s.Spared p served rest := fun r' listed _ _ => .inr (clear r' listed)
      cases ok with
      | true => exact sound.serverLoop true served queue spared
      | false =>
          obtain ⟨known, fresh, vacant, own⟩ := failed rfl
          have rightful : s.Rightful r :=
            fun uri r' stored active same => absurd same (vacant uri r' stored active)
          have restored := sound.restore known rightful own
          have other : ∀ r' ∈ rest, some (s.resourceOf r') ≠ some (s.resourceOf r) :=
            fun r' member same => fresh (Option.some.inj same ▸ List.mem_map_of_mem member)
          exact restored.2.serverLoop true served (restored.1.queue queue other)
            (spared.within sound queue restored.1 rfl other)

/-! ### Steps -/

theorem Sound.createAll (sound : s.Sound p) (create : List (Href × String)) :
    (s.createAll p create).Settled := by
  unfold Subs.createAll
  split
  · exact sound.finish true
  · exact sound.gather _ _

theorem Sound.renewKeep (sound : s.Sound p) (keep : List (Href × SubRef))
    (create : List (Href × String)) (renewKept : Bool) :
    (s.renewKeep p keep create renewKept).Settled := by
  unfold Subs.renewKeep
  split
  · exact sound.gather _ _
  · exact sound.createAll create

theorem Sound.reconcile (sound : s.Sound p) (desired : List (Href × String)) (renewKept : Bool) :
    (s.reconcile p desired renewKept).Settled := by
  simp only [Subs.reconcile]
  split
  · exact (sound.popAll _).renewKeep _ _ _
  · exact (sound.popAll _).gather _ _

theorem Sound.gathered (sound : s.Sound p) (tasks : List Nat) (phase : Phase) :
    (s.gathered p tasks phase).Settled := by
  cases phase with
  | cancels uris keep create renewKept => exact (sound.popAll uris).renewKeep keep create renewKept
  | renews keep create => exact (sound.popAll _).createAll _
  | creates => exact sound.finish true
  | cancelAll => exact sound.clear.finish true

theorem Sound.begin_ (sound : s.Sound p) (c : SubCall) : (s.begin_ settings p c).Settled := by
  cases c with
  | subscribe resource resourceType => exact sound.subscribe_getD resource resourceType
  | cancel uri =>
      simp only [Subs.begin_]
      split
      · exact (sound.pop uri).2.finish true
      · exact sound.wait trivial
  | cancelAll =>
      simp only [Subs.begin_]
      split
      · exact sound.finish true
      · exact sound.gather _ _
  | renewals uris => exact sound.renewLoop false uris
  | validateRestored => exact sound.renewLoop true _
  | reconcile desired renewKept => exact sound.reconcile desired renewKept
  | reconcileWithServer reestablishMissing => exact sound.wait trivial
  | autoSubscribe desired => exact sound.autoLoop desired

theorem Sound.startChild (sound : s.Sound p) (child : Child) :
    (s.startChild settings p child).Settled := by
  cases child with
  | cancelOne uri =>
      simp only [Subs.startChild]
      split
      · exact sound.finish true
      · exact sound.wait trivial
  | renew uri =>
      simp only [Subs.startChild]
      split
      · rename_i sent
        exact sound.renew sent trivial
      · exact sound.finish _
  | subscribe resource resourceType => exact sound.subscribe_getD resource resourceType

/-- The states that are active make up a loop. -/
theorem Sound.queue (sound : s.Sound p) : s.Queue s.activeSubscriptions := by
  refine ⟨?_, fun r listed => ?_, fun r listed => ?_⟩
  · have keys : s.subscriptions.values.map s.uriOf = s.subscriptions.keys := by
      simp only [Dict.values, Dict.keys, List.map_map]
      refine List.map_congr_left fun e member => ?_
      exact sound.keyed e.1 e.2 ((Dict.mem_entries_iff _ _ _).mp member)
    have distinct : s.subscriptions.values.Nodup :=
      List.Nodup.of_map s.uriOf (keys ▸ s.subscriptions.nodup)
    refine List.Nodup.map_on (fun r listed r' listed' same => ?_) (distinct.filter _)
    obtain ⟨⟨uri, stored⟩, active⟩ := mem_activeSubscriptions listed
    obtain ⟨⟨uri', stored'⟩, active'⟩ := mem_activeSubscriptions listed'
    exact sound.single uri' r' stored' active' uri r stored active same
  · obtain ⟨⟨uri, stored⟩, -⟩ := mem_activeSubscriptions listed
    exact sound.known uri r stored
  · obtain ⟨⟨uri, stored⟩, active⟩ := mem_activeSubscriptions listed
    exact sound.single uri r stored active

/-- A `subscribe` has returned with a new subscription. -/
theorem Sound.created (sound : s.Sound p) {resource : Href} {resourceType : String} {next : Cont}
    (holds : s.Holds (.subscribing resource resourceType next))
    (clear : ∀ r ∈ s.worksOn (.subscribing resource resourceType next), s.Clear p r)
    (uri : Href) (unmanaged : Bool) :
    ((s.insert uri resource resourceType unmanaged).resume settings p true next).Settled := by
  obtain ⟨vacant, queue, fresh, -⟩ := holds
  obtain ⟨within, inserted⟩ :=
    sound.insert vacant (clear _ List.mem_cons_self) uri resourceType unmanaged
  refine inserted.resume ?_
  cases next with
  | done | auto | validate | renewals => trivial
  | server r rest served =>
      refine ⟨within.queue queue fun r' listed same => ?_, fun r' listed => ?_, by simp⟩
      · exact fresh (Option.some.inj same ▸ List.mem_map_of_mem listed)
      · rw [within.resource r' (queue.known r' listed)]
        exact (clear _ (List.mem_cons_of_mem _ (List.mem_map_of_mem listed))).within sound within rfl

/-- A `subscribe` has failed. -/
theorem Sound.failed (sound : s.Sound p) {resource : Href} {resourceType : String} {next : Cont}
    (holds : s.Holds (.subscribing resource resourceType next))
    (clear : ∀ r ∈ s.worksOn (.subscribing resource resourceType next), s.Clear p r) :
    (s.resume settings p false next).Settled := by
  obtain ⟨vacant, queue, fresh, own⟩ := holds
  refine sound.resume ?_
  cases next with
  | done | auto | validate | renewals => trivial
  | server r rest served =>
      obtain ⟨known, rfl⟩ := own r rest served rfl
      refine ⟨queue, fun r' listed => ?_, fun _ => ⟨known, fresh, vacant, ?_⟩⟩
      · exact clear _ (List.mem_cons_of_mem _ (List.mem_map_of_mem listed))
      · exact clear _ List.mem_cons_self

/-- The POST of a renewal is answered with a location. -/
theorem Sound.renewed (sound : s.Sound p) {uri : Href} {r : SubRef} {next : Cont}
    (holds : s.Holds (.posting uri r next)) (clear : s.Clear p (s.resourceOf r)) (uri' : Href) :
    ((if uri' ≠ uri then s.rekey uri r uri' else s).resume settings p true next).Settled := by
  obtain ⟨known, rfl, rightful, plain⟩ := holds
  split
  · exact (sound.rekey known rightful clear uri').2.resume (.plain plain)
  · exact sound.resume (.plain plain)

/-- A request is answered. -/
theorem Settled.answer (settled : s.Settled) (apart : s.Apart) {w : Wait} {a : SubAnswer} {t : Subs}
    (waits : s.tasks p = some (.waiting w)) (undisturbed : s.Undisturbed (.answer p a))
    (answered : s.answer settings p w a = some t) : t.Settled := by
  have sound := settled p
  have holds : s.Holds w := (settled (p + 1)).holds p w (by omega) waits
  have clear : ∀ resource ∈ s.worksOn w, s.Clear p resource :=
    fun resource works => apart p w resource waits works
  cases w with
  | subscribing resource resourceType next =>
      cases a with
      | created location =>
          simp only [Subs.answer] at answered
          split at answered
          · obtain rfl := Option.some.inj answered
            exact sound.created holds clear _ false
          · split at answered
            · obtain rfl := Option.some.inj answered
              exact sound.created holds clear _ true
            · obtain rfl := Option.some.inj answered
              exact sound.failed holds clear
      | gone =>
          obtain rfl := Option.some.inj answered
          exact sound.failed holds clear
      | failed =>
          obtain rfl := Option.some.inj answered
          exact sound.failed holds clear
      | ok | listed => cases answered
  | deleting uri pops =>
      have popped : (if pops = true then s.pop uri else s).Sound p := by
        split
        · exact (sound.pop uri).2
        · exact sound
      cases a with
      | ok | gone | failed =>
          obtain rfl := Option.some.inj answered
          exact popped.finish _
      | created | listed => cases answered
  | putting uri r next =>
      cases a with
      | ok | failed =>
          obtain rfl := Option.some.inj answered
          exact sound.resume (.plain holds.2.2.2)
      | gone =>
          obtain rfl := Option.some.inj answered
          exact sound.send (w := .posting uri r next) holds _
      | created | listed => cases answered
  | posting uri r next =>
      have own := clear _ List.mem_cons_self
      cases a with
      | created location =>
          simp only [Subs.answer] at answered
          split at answered
          · obtain rfl := Option.some.inj answered
            exact sound.renewed holds own _
          · obtain rfl := Option.some.inj answered
            exact sound.resume (.plain holds.2.2.2)
      | gone | failed =>
          obtain rfl := Option.some.inj answered
          exact sound.resume (.plain holds.2.2.2)
      | ok | listed => cases answered
  | listing reestablishMissing =>
      cases a with
      | listed served =>
          obtain rfl := Option.some.inj answered
          exact sound.serverLoop reestablishMissing served sound.queue undisturbed
      | gone | failed =>
          obtain rfl := Option.some.inj answered
          exact sound.finish true
      | created | ok => cases answered
  | gathering tasks phase => cases a <;> cases answered

end Subs

/-- A step of calls that keep apart leaves the table in order. -/
theorem settled_step {settings : SubSettings} {s t : Subs} (l : SubLabel)
    (stepped : subStep settings l s = some t) (apart : s.Apart) (undisturbed : s.Undisturbed l)
    (settled : s.Settled) : t.Settled := by
  cases l with
  | call c =>
      obtain rfl := Option.some.inj stepped
      have sound : ({ s with nextTask := s.nextTask + 1 } : Subs).Sound s.nextTask :=
        (settled s.nextTask).retask rfl rfl rfl (settled s.nextTask).holds
      exact sound.begin_ c
  | start p =>
      simp only [subStep] at stepped
      split at stepped
      · obtain rfl := Option.some.inj stepped
        exact (settled p).startChild _
      · cases stepped
  | answer p a =>
      simp only [subStep] at stepped
      split at stepped
      · rename_i waits
        exact settled.answer apart waits undisturbed stepped
      · cases stepped
  | gathered p =>
      simp only [subStep] at stepped
      split at stepped
      · split at stepped
        · obtain rfl := Option.some.inj stepped
          exact (settled p).gathered _ _
        · cases stepped
      · cases stepped
  | kill p =>
      simp only [subStep] at stepped
      split at stepped
      · obtain rfl := Option.some.inj stepped
        exact (settled p).finish false
      · obtain rfl := Option.some.inj stepped
        exact (settled p).finish false
      · cases stepped
  | markCancelled uri =>
      obtain rfl := Option.some.inj stepped
      exact fun p => (settled p).markCancelled uri
  | cancelledByServer uri resource =>
      simp only [subStep] at stepped
      split at stepped
      · obtain rfl := Option.some.inj stepped
        intro p
        have marked := (settled p).markCancelled uri
        exact marked.retask rfl rfl rfl marked.holds
      · obtain rfl := Option.some.inj stepped
        exact settled
  | clearSuppression =>
      obtain rfl := Option.some.inj stepped
      exact fun p => (settled p).retask rfl rfl rfl (settled p).holds

/-- Calls keep apart: no two are at work on one resource, and no list of the
server's moves a subscription that another call is at work on. -/
def KeepApart (s : Subs) (l : SubLabel) (_ : Subs) : Prop := s.Apart ∧ s.Undisturbed l

/-- However calls that keep apart are interleaved and answered, each key of the
table is the path of the state under it, and no resource has two active
subscriptions. -/
theorem oneActive_of_apart {settings : SubSettings} {s : Subs}
    (run : (subscriptionManager settings).Run KeepApart {} s) : s.Keyed ∧ s.OneActive := by
  have settled : s.Settled := by
    refine Machine.Run.keeps (fun l t u stepped met kept => ?_) run fun p => ?_
    · exact settled_step l stepped met.1 met.2 kept
    · refine ⟨?_, ?_, ?_, fun _ _ _ waits => by cases waits⟩ <;> intro _ _ stored <;> cases stored
  exact ⟨(settled 0).keyed, (settled 0).oneActive⟩

/-! ### Two calls -/

/-- Each resource that is worked on has an owner. -/
theorem Subs.apart_of_owner {s : Subs} (owner : Href → Nat)
    (owned : ∀ p w, s.tasks p = some (.waiting w) → ∀ resource ∈ s.worksOn w, owner resource = p) :
    s.Apart := by
  intro p w resource waits works q w' other waits' works'
  exact other ((owned q w' waits' resource works').symm.trans (owned p w waits resource works))

/-- Two resources are subscribed to at a time. -/
def twoResources : List SubLabel :=
  [.call (.subscribe "/derp/1/derc" "DERControlList"), .call (.subscribe "/edev/1/fsa" "FSAList"),
    .answer 0 (.created (some "/sub/1")), .answer 1 (.created (some "/sub/2"))]

/-- The first call is at work on the one, the second on the other. -/
theorem twoResources_apart {n : Nat} (before : n < 4) :
    (afterCalls (twoResources.take n)).Apart := by
  refine Subs.apart_of_owner (fun resource => if resource = "/derp/1/derc" then 0 else 1) ?_
  intro p w waits
  obtain _ | _ | _ | _ | n := n <;> obtain _ | _ | p := p <;>
    first | omega | (cases waits <;> decide)

/-- Both are subscribed to, each once. -/
theorem twoResources_oneActive :
    ((afterCalls twoResources).Keyed ∧ (afterCalls twoResources).OneActive) ∧
      (afterCalls twoResources).activeSubscriptions.map (afterCalls twoResources).resourceOf =
        ["/derp/1/derc", "/edev/1/fsa"] := by
  have met {n : Nat} (before : n < 4) := twoResources_apart before
  have called : (subscriptionManager plainSettings).Run KeepApart {}
      (afterCalls (twoResources.take 2)) :=
    .step (.call (.subscribe "/edev/1/fsa" "FSAList")) (.step
      (.call (.subscribe "/derp/1/derc" "DERControlList")) (.refl _) rfl
      ⟨met (n := 0) (by omega), trivial⟩) rfl ⟨met (n := 1) (by omega), trivial⟩
  have run : (subscriptionManager plainSettings).Run KeepApart {} (afterCalls twoResources) :=
    .step (.answer 1 (.created (some "/sub/2"))) (.step (.answer 0 (.created (some "/sub/1"))) called
      rfl ⟨met (n := 2) (by omega), trivial⟩) rfl ⟨met (n := 3) (by omega), trivial⟩
  exact ⟨oneActive_of_apart run, by decide +kernel⟩

/-- Two calls subscribe to one resource: both look at the table before either has
stored its subscription. -/
def twice : List SubLabel :=
  [.call (.subscribe "/derp/1/derc" "DERControlList"),
    .call (.subscribe "/derp/1/derc" "DERControlList"),
    .answer 0 (.created (some "/sub/1")), .answer 1 (.created (some "/sub/2"))]

/-- The server's list moves a subscription while it is renewed. -/
def movedInRenewal : List SubLabel :=
  [.call (.subscribe "/derp/1/derc" "DERControlList"), .answer 0 (.created (some "/sub/1")),
    .call (.renewals ["/sub/1"]), .call (.reconcileWithServer true),
    .answer 2 (.listed [("/derp/1/derc", some "/sub/2")]), .answer 1 (.created (some "/sub/3"))]

/-- The resource has two active subscriptions; and the renewed one is also stored
under a key that is not its path. -/
theorem twice_twoActive :
    (subscriptionManager plainSettings).Run Machine.Free {} (afterCalls twice) ∧
      ¬ (afterCalls twice).OneActive ∧
      (subscriptionManager plainSettings).Run Machine.Free {} (afterCalls movedInRenewal) ∧
      ¬ (afterCalls movedInRenewal).Keyed := by
  refine ⟨Machine.run_of_exec twice rfl, fun one => ?_, Machine.run_of_exec movedInRenewal rfl,
    fun keyed => ?_⟩
  · have same := one "/sub/1" "/sub/2" 0 1 rfl rfl rfl rfl rfl
    exact absurd same (by decide)
  · have path := keyed "/sub/2" 0 rfl
    exact absurd path (by decide)

end Py20305
