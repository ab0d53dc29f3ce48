import Py20305.Lib.Moves
import Py20305.Subscription.Manager

/-!
Adopting the paths the server gives its subscriptions (`reconcile_with_server`).

The loop re-keys one entry at a time, in the order of the table. Where the server
has renumbered or swapped the paths, an entry can be put in the place of one that is
still to be re-keyed, and is then deleted with it: `adopted_iff` says that the
subscriptions all stay exactly if that does not happen.
-/

namespace Py20305

namespace Subs

/-- The active subscriptions this client manages, in the order of the table. -/
def managed (s : Subs) : List SubRef := s.activeSubscriptions.filter fun r => !(s.object r).unmanaged

/-- The server's path for the resource of a subscription. -/
def serverUri (s : Subs) (served : ServerList) (r : SubRef) : Option Href :=
  served.uriOf (s.resourceOf r)

/-- The managed subscriptions are keyed by their own, pairwise distinct paths, and the server
lists every resource of theirs, with pairwise distinct paths. -/
structure Adoptable (s : Subs) (served : ServerList) : Prop where
  keyed : ∀ r ∈ s.managed, s.subscriptions.get? (s.uriOf r) = some r
  uris : (s.managed.map s.uriOf).Nodup
  listed : ∀ r ∈ s.managed, (s.serverUri served r).isSome
  hrefs : (s.managed.map (s.serverUri served)).Nodup

/-- Every managed subscription of `s` is in the table of `t` once, under its own path, which
is the server's, and nothing else about it has changed. -/
def Adopted (s : Subs) (served : ServerList) (t : Subs) : Prop :=
  ∀ r ∈ s.managed, s.serverUri served r = some (t.uriOf r) ∧
    (∀ uri, t.subscriptions.get? uri = some r ↔ uri = t.uriOf r) ∧
    t.object r = { s.object r with subscriptionUri := t.uriOf r }

/-- No subscription gets the path of one that comes later in the table. -/
def AdoptsInOrder (s : Subs) (served : ServerList) : Prop :=
  s.managed.Pairwise fun r later => s.serverUri served r ≠ some (s.uriOf later)

instance (s : Subs) (served : ServerList) : Decidable (s.AdoptsInOrder served) := by
  unfold AdoptsInOrder; infer_instance

/-- What the loop makes of a managed subscription. -/
def adoption (s : Subs) (served : ServerList) (r : SubRef) : Dict.Move Href SubRef where
  value := r
  old := s.uriOf r
  new := (s.serverUri served r).getD ""

end Subs

/-- The server has the resource if it gives a path for it. -/
theorem ServerList.mem_resources {served : ServerList} {resource : Href}
    (given : (served.uriOf resource).isSome) : resource ∈ served.resources := by
  obtain ⟨uri, given⟩ := Option.isSome_iff_exists.mp given
  obtain ⟨e, entry, -⟩ := List.mem_filterMap.mp (List.mem_of_getLast? given)
  obtain ⟨listed, own⟩ := List.mem_filter.mp entry
  simp only [decide_eq_true_eq] at own
  obtain ⟨rfl, named⟩ := own
  exact List.mem_filter.mpr ⟨List.mem_map_of_mem listed, by simpa using named⟩

namespace Subs

variable {s t : Subs} {served : ServerList} {reestablishMissing : Bool} {p : Nat}

theorem Adoptable.nodup (adoptable : s.Adoptable served) : s.managed.Nodup :=
  adoptable.uris.of_map

/-- One round of the loop, at a managed subscription the server lists. -/
theorem serverLoop_cons {r : SubRef} (mine : (t.object r).unmanaged = false)
    (given : (t.serverUri served r).isSome) (rest : List SubRef) :
    serverLoop reestablishMissing p served (r :: rest) t =
      serverLoop reestablishMissing p served rest
        (if (t.adoption served r).new = t.uriOf r then t
          else t.rekey (t.uriOf r) r (t.adoption served r).new) := by
  have listed := ServerList.mem_resources given
  obtain ⟨uri, found⟩ := Option.isSome_iff_exists.mp given
  have found' : served.uriOf (t.object r).subscribedResource = some uri := found
  have new : (t.adoption served r).new = uri := by rw [adoption, found, Option.getD_some]
  rw [serverLoop, new]
  simp only [mine, Bool.false_eq_true, if_false, found']
  refine (if_pos listed).trans (congrArg _ ?_)
  exact ite_not (uri = t.uriOf r) _ _

/-- Where the loop stands: the table after the moves made so far, the paths of the
subscriptions gone through, and the others as they were. -/
structure Adopting (s : Subs) (served : ServerList) (done : List SubRef) (t : Subs) : Prop where
  table : t.subscriptions = s.subscriptions.moveAll (done.map (s.adoption served))
  moved : ∀ r ∈ done,
    t.object r = { s.object r with subscriptionUri := (s.adoption served r).new }
  unmoved : ∀ r ∉ done, t.object r = s.object r

/-- The loop over the rest of the active subscriptions. -/
theorem Adopting.run {done rest : List SubRef}
    (listed : ∀ r ∈ rest, (s.object r).unmanaged = false → (s.serverUri served r).isSome)
    (nodup : (done ++ rest.filter fun r => !(s.object r).unmanaged).Nodup)
    (adopting : Adopting s served done t) :
    ∃ t', Adopting s served (done ++ rest.filter fun r => !(s.object r).unmanaged) t' ∧
      serverLoop reestablishMissing p served rest t = t'.finish p true := by
  induction rest generalizing done t with
  | nil => exact ⟨t, ⟨by simpa using adopting.table, by simpa using adopting.moved,
      by simpa using adopting.unmoved⟩, rfl⟩
  | cons r rest ih =>
      have listed_rest : ∀ q ∈ rest, (s.object q).unmanaged = false →
          (s.serverUri served q).isSome := fun q member => listed q (List.mem_cons_of_mem r member)
      by_cases theirs : (s.object r).unmanaged = true
      · have same : (t.object r).unmanaged = true := by
          by_cases gone_through : r ∈ done
          · rw [adopting.moved r gone_through]
            exact theirs
          · rw [adopting.unmoved r gone_through]
            exact theirs
        rw [List.filter_cons_of_neg (by simpa using theirs)] at nodup ⊢
        rw [serverLoop, if_pos same]
        exact ih listed_rest nodup ⟨adopting.table, adopting.moved, adopting.unmoved⟩
      · have mine : (s.object r).unmanaged = false := by simpa using theirs
        have given := listed r List.mem_cons_self mine
        rw [List.filter_cons_of_pos (by simpa using theirs)] at nodup ⊢
        have fresh : r ∉ done := fun gone_through =>
          (List.nodup_append.mp nodup).2.2 r gone_through r List.mem_cons_self rfl
        have same := adopting.unmoved r fresh
        have uri_same : t.uriOf r = s.uriOf r := by rw [uriOf, same, uriOf]
        have given_same : t.serverUri served r = s.serverUri served r := by
          rw [serverUri, resourceOf, same, serverUri, resourceOf]
        have move_same : t.adoption served r = s.adoption served r := by
          rw [adoption, adoption, uri_same, given_same]
        rw [serverLoop_cons (by rw [same]; exact mine) (by rw [given_same]; exact given), move_same,
          uri_same]
        have regroup : done ++ r :: rest.filter (fun r => !(s.object r).unmanaged) =
            (done ++ [r]) ++ rest.filter (fun r => !(s.object r).unmanaged) := by simp
        rw [regroup] at nodup ⊢
        refine ih listed_rest nodup ?_
        have table : s.subscriptions.moveAll ((done ++ [r]).map (s.adoption served)) =
            t.subscriptions.move (s.adoption served r) := by
          rw [adopting.table, List.map_append, Dict.moveAll, Dict.moveAll, List.foldl_append]
          rfl
        constructor
        · rw [table, Dict.move]
          by_cases stays : (s.adoption served r).new = s.uriOf r
          · rw [if_pos stays, if_pos (show (s.adoption served r).new = (s.adoption served r).old
              from stays)]
          · rw [if_neg stays, if_neg (show ¬ (s.adoption served r).new = (s.adoption served r).old
              from stays)]
            rfl
        · intro q member
          by_cases own : q = r
          · subst own
            split
            · rename_i stays
              rw [same, stays]
              rfl
            · simp [rekey, same]
          · have before : q ∈ done := by simpa [own] using member
            rw [← adopting.moved q before]
            split
            · rfl
            · simp [rekey, own]
        · intro q absent
          have own : q ≠ r := by
            rintro rfl
            exact absent (by simp)
          rw [← adopting.unmoved q fun before => absent (List.mem_append_left _ before)]
          split
          · rfl
          · simp [rekey, own]

/-- A managed subscription is stored once. -/
theorem stored_once (nodup : s.managed.Nodup) {r : SubRef} (member : r ∈ s.managed)
    {uri uri' : Href} (here : s.subscriptions.get? uri = some r)
    (there : s.subscriptions.get? uri' = some r) : uri = uri' := by
  have entries : s.managed = (s.subscriptions.entries.filter fun e =>
      s.isActive e.2 && !(s.object e.2).unmanaged).map Prod.snd := by
    rw [managed, activeSubscriptions, List.filter_filter, Dict.values, List.filter_map]
    congr 1
    exact List.filter_congr fun e _ => Bool.and_comm _ _
  obtain ⟨active, mine⟩ := List.mem_filter.mp member
  have both : (s.isActive r && !(s.object r).unmanaged) = true := by
    rw [(mem_activeSubscriptions active).2, mine]
    rfl
  rw [entries] at nodup
  have same := List.inj_on_of_nodup_map nodup
    (List.mem_filter.mpr ⟨(Dict.mem_entries_iff _ _ _).mpr here, both⟩)
    (List.mem_filter.mpr ⟨(Dict.mem_entries_iff _ _ _).mpr there, both⟩) rfl
  exact congrArg Prod.fst same

theorem Adoptable.given (adoptable : s.Adoptable served) {r : SubRef} (member : r ∈ s.managed) :
    s.serverUri served r = some (s.adoption served r).new := by
  obtain ⟨uri, found⟩ := Option.isSome_iff_exists.mp (adoptable.listed r member)
  rw [adoption, found, Option.getD_some]

/-- The managed subscriptions can be moved to the server's paths. -/
theorem Adoptable.movable (adoptable : s.Adoptable served) :
    Dict.Movable s.subscriptions (s.managed.map (s.adoption served)) := by
  refine ⟨fun m listed uri => ?_, ?_, ?_⟩
  · obtain ⟨r, member, rfl⟩ := List.mem_map.mp listed
    refine ⟨fun here => ?_, ?_⟩
    · exact stored_once adoptable.nodup member here (adoptable.keyed r member)
    · rintro rfl
      exact adoptable.keyed r member
  · rw [List.map_map]
    exact adoptable.uris
  · have hrefs := adoptable.hrefs
    rw [List.map_congr_left fun r member => adoptable.given member,
      ← Function.comp_def some, ← List.map_map] at hrefs
    rw [List.map_map]
    exact hrefs.of_map

/-- The moves are in order where no subscription gets the path of a later one. -/
theorem Adoptable.inOrder_iff (adoptable : s.Adoptable served) :
    Dict.InOrder (s.managed.map (s.adoption served)) ↔ s.AdoptsInOrder served := by
  have same : ∀ r ∈ s.managed, ∀ later : SubRef,
      ((s.adoption served r).new ≠ (s.adoption served later).old ↔
        s.serverUri served r ≠ some (s.uriOf later)) := by
    intro r member later
    rw [adoptable.given member, ne_eq, ne_eq, Option.some.injEq]
    rfl
  rw [Dict.InOrder, List.pairwise_map, AdoptsInOrder]
  constructor
  · exact List.Pairwise.imp_of_mem fun {r later} member _ => (same r member later).mp
  · exact List.Pairwise.imp_of_mem fun {r later} member _ => (same r member later).mpr

/-- When `reconcile_with_server` has its list, it adopts the server's paths without a
request of its own. The subscriptions are all still there, each under its own path, exactly
if none got the path of one that comes later in the table. -/
theorem adopted_iff (settings : SubSettings) {s : Subs} {p : Nat} {reestablishMissing : Bool}
    (waiting : s.tasks p = some (.waiting (.listing reestablishMissing))) {served : ServerList}
    (adoptable : s.Adoptable served) :
    ∃ t, subStep settings (.answer p (.listed served)) s = some t ∧
      t.tasks p = some (.finished true) ∧ (s.Adopted served t ↔ s.AdoptsInOrder served) := by
  have listed : ∀ r ∈ s.activeSubscriptions, (s.object r).unmanaged = false →
      (s.serverUri served r).isSome := fun r member mine =>
    adoptable.listed r (List.mem_filter.mpr ⟨member, by rw [mine]; rfl⟩)
  have start : Adopting s served [] s :=
    ⟨rfl, fun r before => absurd before List.not_mem_nil, fun r _ => rfl⟩
  obtain ⟨t, adopting, looped⟩ : ∃ t, Adopting s served s.managed t ∧
      serverLoop reestablishMissing p served s.activeSubscriptions s = t.finish p true :=
    start.run listed adoptable.nodup
  refine ⟨t.finish p true, ?_, by simp [finish, put], ?_⟩
  · simp only [subStep, waiting, answer, looped]
  · have arrives := Dict.arrived_iff adoptable.movable
    rw [adoptable.inOrder_iff, ← adopting.table] at arrives
    rw [← arrives]
    have uri : ∀ r ∈ s.managed, (t.finish p true).uriOf r = (s.adoption served r).new := by
      intro r member
      change (t.object r).subscriptionUri = _
      rw [adopting.moved r member]
    constructor
    · intro adopted m move
      obtain ⟨r, member, rfl⟩ := List.mem_map.mp move
      rw [← uri r member]
      exact (adopted r member).2.1
    · intro arrived r member
      rw [uri r member]
      exact ⟨adoptable.given member, arrived _ (List.mem_map_of_mem member),
        adopting.moved r member⟩

/-! ### Two subscriptions -/

/-- The subscriptions `/sub/1` of `/a` and `/sub/2` of `/b`, and a
`reconcile_with_server` that waits for its list. -/
def twoListing : Subs :=
  afterCalls
    [.call (.subscribe "/a" "DERControlList"), .answer 0 (.created (some "/sub/1")),
      .call (.subscribe "/b" "DERProgramList"), .answer 1 (.created (some "/sub/2")),
      .call (.reconcileWithServer false)]

/-- The server lists the two under the given paths. -/
def servedAs (a b : Href) : ServerList := [("/a", some a), ("/b", some b)]

theorem twoListing_adoptable {a b : Href} (apart : a ≠ b) (given : a ≠ "" ∧ b ≠ "") :
    twoListing.Adoptable (servedAs a b) := by
  have both : twoListing.managed = [0, 1] := by decide +kernel
  have first : twoListing.serverUri (servedAs a b) 0 = some a := by
    have own : twoListing.resourceOf 0 = "/a" := by decide +kernel
    simp [serverUri, own, ServerList.uriOf, servedAs, extractHref, given.1]
  have second : twoListing.serverUri (servedAs a b) 1 = some b := by
    have own : twoListing.resourceOf 1 = "/b" := by decide +kernel
    simp [serverUri, own, ServerList.uriOf, servedAs, extractHref, given.2]
  constructor
  · decide +kernel
  · decide +kernel
  · simp [both, first, second]
  · simp [both, first, second, apart]

/-- Renumbered downwards each path is free when it is taken; renumbered upwards the first
subscription gets the path of the second. -/
theorem twoListing_adopted :
    (∃ t, subStep plainSettings (.answer 2 (.listed (servedAs "/sub/0" "/sub/1"))) twoListing =
        some t ∧ t.tasks 2 = some (.finished true) ∧
      twoListing.Adopted (servedAs "/sub/0" "/sub/1") t) ∧
    ∃ t, subStep plainSettings (.answer 2 (.listed (servedAs "/sub/2" "/sub/3"))) twoListing =
        some t ∧ t.tasks 2 = some (.finished true) ∧
      ¬ twoListing.Adopted (servedAs "/sub/2" "/sub/3") t := by
  have waiting : twoListing.tasks 2 = some (.waiting (.listing false)) := rfl
  obtain ⟨t, stepped, finished, down⟩ := adopted_iff plainSettings waiting
    (twoListing_adoptable (a := "/sub/0") (b := "/sub/1") (by decide) (by decide))
  obtain ⟨u, stepped', finished', up⟩ := adopted_iff plainSettings waiting
    (twoListing_adoptable (a := "/sub/2") (b := "/sub/3") (by decide) (by decide))
  exact ⟨⟨t, stepped, finished, down.mpr (by decide +kernel)⟩,
    u, stepped', finished', fun adopted => absurd (up.mp adopted) (by decide +kernel)⟩

/-- Where the server has swapped the two paths, the first subscription is put in the place of
the second and deleted with it. -/
theorem swapped_lost :
    (subscriptionManager plainSettings).Run Machine.Free {} twoListing ∧
      twoListing.Adoptable (servedAs "/sub/2" "/sub/1") ∧
      ∃ t, subStep plainSettings (.answer 2 (.listed (servedAs "/sub/2" "/sub/1"))) twoListing =
          some t ∧ ¬ twoListing.Adopted (servedAs "/sub/2" "/sub/1") t ∧
        t.subscriptions.entries = [("/sub/1", 1)] := by
  refine ⟨Machine.run_of_exec
    [.call (.subscribe "/a" "DERControlList"), .answer 0 (.created (some "/sub/1")),
      .call (.subscribe "/b" "DERProgramList"), .answer 1 (.created (some "/sub/2")),
      .call (.reconcileWithServer false)] rfl, twoListing_adoptable (by decide) (by decide), _, rfl,
    fun adopted => ?_, by decide +kernel⟩
  have listed : (0 : SubRef) ∈ twoListing.managed := by decide +kernel
  have kept := ((adopted 0 listed).2.1 _).mpr rfl
  revert kept
  decide +kernel

end Subs

end Py20305
