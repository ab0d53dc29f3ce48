import Mathlib
import Py20305.Subscription.Manager

/-!
The checkpoint of the subscription manager (`to_checkpoint`,
`restore_from_checkpoint`) and what is answered from the table before and after a
restart.

A table comes back as it was exactly if it is keyed by its paths and holds no
subscription of a list (`checkpoint_roundTrips_iff`): the writer leaves out
`is_list_subscription`, and the reader takes it for false.
-/

namespace Py20305

/-- `SubscriptionState` in full, with the fields no step of the table looks at. The
time stamps are of any type with a zero. -/
structure StoredSubscription (Time : Type) extends SubscriptionState where
  notificationUri : String
  createdAt : Time
  subListHref : Option Href

/-- The table: `_subscriptions`, by value. -/
abbrev SubTable (Time : Type) := Dict Href (StoredSubscription Time)

section Checkpoint

variable {Time : Type}

/-! ### The data -/

/-- One entry of a checkpoint; a key that is not there is `none`. -/
structure CheckpointEntry (Time : Type) where
  subscriptionUri : Option Href := none
  subscribedResource : Option Href := none
  notificationUri : Option String := none
  resourceType : Option String := none
  status : Option SubStatus := none
  createdAt : Option Time := none
  isListSubscription : Option Bool := none
  unmanaged : Option Bool := none
  subListHref : Option (Option Href) := none

/-- A checkpoint. -/
structure CheckpointData (Time : Type) where
  subscriptions : Option (List (CheckpointEntry Time)) := none

/-- What `to_checkpoint` writes for one subscription. -/
def checkpointEntry (s : StoredSubscription Time) : CheckpointEntry Time where
  subscriptionUri := some s.subscriptionUri
  subscribedResource := some s.subscribedResource
  notificationUri := some s.notificationUri
  resourceType := some s.resourceType
  status := some s.status
  createdAt := some s.createdAt
  unmanaged := some s.unmanaged
  subListHref := some s.subListHref

/-- `to_checkpoint`. -/
def SubTable.toCheckpoint (table : SubTable Time) : CheckpointData Time where
  subscriptions := some (table.values.map checkpointEntry)

/-- `entry[key]`: a key that is not there raises a `KeyError` that names it. -/
def required {α : Type} (key : String) (value : Option α) : Except String α :=
  value.elim (.error key) .ok

section Restore

variable [Zero Time]

/-- One entry of `restore_from_checkpoint`. -/
def restoreEntry (entry : CheckpointEntry Time) : Except String (StoredSubscription Time) := do
  let subscriptionUri ← required "subscription_uri" entry.subscriptionUri
  let subscribedResource ← required "subscribed_resource" entry.subscribedResource
  let notificationUri ← required "notification_uri" entry.notificationUri
  let resourceType ← required "resource_type" entry.resourceType
  .ok
    { subscriptionUri := subscriptionUri
      subscribedResource := subscribedResource
      notificationUri := notificationUri
      resourceType := resourceType
      status := entry.status.getD .active
      createdAt := entry.createdAt.getD 0
      isListSubscription := entry.isListSubscription.getD false
      unmanaged := entry.unmanaged.getD false
      subListHref := entry.subListHref.getD none }

/-- The loop of `restore_from_checkpoint`: the table so far, and the key that was missing,
if one was. -/
def restoreEntries : List (CheckpointEntry Time) → SubTable Time → SubTable Time × Option String
  | [], table => (table, none)
  | entry :: rest, table =>
      match restoreEntry entry with
      | .error key => (table, some key)
      | .ok state => restoreEntries rest (table.set state.subscriptionUri state)

/-- `restore_from_checkpoint`: whatever the table was is cleared. -/
def restoreFromCheckpoint (data : CheckpointData Time) : SubTable Time × Option String :=
  restoreEntries (data.subscriptions.getD []) Dict.empty

end Restore

/-! ### What is answered from a table -/

/-- `should_process_notification`. -/
def SubTable.shouldProcess (table : SubTable Time) (uri resource : Href) : Bool :=
  match table.get? uri with
  | none => true
  | some state => state.isListSubscription || resource = state.subscribedResource

/-- `resource_type_for`. -/
def SubTable.resourceTypeFor (table : SubTable Time) (uri : Href) : Option String :=
  (table.get? uri).map (·.resourceType)

/-- The `Subscription` a renewal sends. -/
structure SubscriptionBody where
  subscribedResource : Href
  encoding : Nat
  level : String
  limit : Nat
  notificationUri : String
  deriving DecidableEq

/-- The parameters `renew` may override. -/
structure RenewalParameters where
  encoding : Option Nat := none
  level : Option String := none
  limit : Option Nat := none

/-- What `renew` does first: return at once, or send a request. After a PUT that finds
nothing it POSTs the same body to the list. -/
inductive Renewal where
  | refused
  | stamped
  | put (uri : Href) (list : Href) (body : SubscriptionBody)
  | post (list : Href) (body : SubscriptionBody)
  deriving DecidableEq

/-- `uri.rsplit("/", 1)[0]`. -/
def parentPath (uri : Href) : Href :=
  if '/' ∈ uri.toList then
    String.ofList ((uri.toList.reverse.dropWhile (· ≠ '/')).drop 1).reverse
  else uri

/-- `renew`, up to its request. -/
def SubTable.renewal (table : SubTable Time) (settings : SubSettings) (uri : Href)
    (parameters : RenewalParameters) : Renewal :=
  match table.get? uri with
  | none => .refused
  | some state =>
      if state.status ≠ .active then .refused
      else if state.unmanaged then .stamped
      else
        let body : SubscriptionBody :=
          { subscribedResource := state.subscribedResource
            encoding := parameters.encoding.getD 0
            level := parameters.level.getD "+S1"
            limit := parameters.limit.getD 1
            notificationUri := state.notificationUri }
        -- A checkpoint written before the list was recorded has none.
        let list := (extractHref state.subListHref).getD (parentPath uri)
        if settings.put then .put uri list body else .post list body

/-- Every question is answered alike from both tables. -/
def SubTable.AnswersLike (table other : SubTable Time) : Prop :=
  (∀ uri resource, other.shouldProcess uri resource = table.shouldProcess uri resource) ∧
    (∀ uri, other.resourceTypeFor uri = table.resourceTypeFor uri) ∧
    ∀ settings uri parameters,
      other.renewal settings uri parameters = table.renewal settings uri parameters

/-- Restoring the checkpoint of the table raises nothing, gives the table back, and leaves
every answer as it was. -/
def SubTable.RoundTrips [Zero Time] (table : SubTable Time) : Prop :=
  restoreFromCheckpoint table.toCheckpoint = (table, none) ∧
    table.AnswersLike (restoreFromCheckpoint table.toCheckpoint).1

/-! ### The machine's table -/

/-- The table holds what the manager's objects hold. -/
def SubTable.Of (table : SubTable Time) (s : Subs) : Prop :=
  ∀ uri, (table.get? uri).map (·.toSubscriptionState) = (s.subscriptions.get? uri).map s.object

theorem SubTable.Of.shouldProcess {table : SubTable Time} {s : Subs} (of : table.Of s)
    (uri resource : Href) : table.shouldProcess uri resource = s.shouldProcess uri resource := by
  have same := of uri
  unfold SubTable.shouldProcess Subs.shouldProcess
  cases stored : s.subscriptions.get? uri with
  | none =>
      rw [stored, Option.map_none, Option.map_eq_none_iff] at same
      rw [same]
  | some r =>
      rw [stored, Option.map_some, Option.map_eq_some_iff] at same
      obtain ⟨state, found, alike⟩ := same
      rw [found]
      simp only [← alike]

/-- A renewal of the manager returns at once where the table's does, and with the same
result; else it waits for the request the table's sends first. -/
theorem SubTable.Of.renewal {table : SubTable Time} {s : Subs} (of : table.Of s)
    (settings : SubSettings) (p : Nat) (uri : Href) (next : Cont) (parameters : RenewalParameters) :
    match table.renewal settings uri parameters with
    | .refused => s.renew settings p uri next = .error false
    | .stamped => s.renew settings p uri next = .error true
    | .put at_ _ body => ∃ r, s.renew settings p uri next = .ok (s.wait p (.putting at_ r next)) ∧
        body.subscribedResource = s.resourceOf r
    | .post _ body => ∃ r, s.renew settings p uri next =
        .ok ((s.post body.subscribedResource).wait p (.posting uri r next)) := by
  have same := of uri
  unfold SubTable.renewal Subs.renew
  cases stored : s.subscriptions.get? uri with
  | none =>
      rw [stored, Option.map_none, Option.map_eq_none_iff] at same
      simp only [same]
  | some r =>
      rw [stored, Option.map_some, Option.map_eq_some_iff] at same
      obtain ⟨state, found, alike⟩ := same
      have status : state.status = (s.object r).status := congrArg SubscriptionState.status alike
      have unmanaged : state.unmanaged = (s.object r).unmanaged :=
        congrArg SubscriptionState.unmanaged alike
      have resource : state.subscribedResource = (s.object r).subscribedResource :=
        congrArg SubscriptionState.subscribedResource alike
      simp only [found, status, unmanaged, resource, Subs.isActive]
      by_cases active : (s.object r).status = .active
      · by_cases theirs : (s.object r).unmanaged = true
        · simp [active, theirs]
        · by_cases put : settings.put = true
          · simp only [active, theirs, put]
            exact ⟨r, rfl, rfl⟩
          · simp only [active, theirs, put]
            exact ⟨r, rfl⟩
      · simp [active]

/-! ### Round trips -/

section RoundTrip

variable [Zero Time]

/-- The subscription as it comes back: as one that is not of a list. -/
def StoredSubscription.restored (s : StoredSubscription Time) : StoredSubscription Time :=
  { s with isListSubscription := false }

omit [Zero Time] in
theorem StoredSubscription.restored_eq {s : StoredSubscription Time}
    (plain : s.isListSubscription = false) : s.restored = s := by
  unfold restored
  rw [← plain]

/-- An entry that was written is read again. -/
theorem restoreEntry_checkpointEntry (s : StoredSubscription Time) :
    restoreEntry (checkpointEntry s) = .ok s.restored := rfl

/-- Reading what was written raises nothing. -/
theorem restoreEntries_written (states : List (StoredSubscription Time)) (table : SubTable Time) :
    restoreEntries (states.map checkpointEntry) table =
      (states.foldl (fun table s => table.set s.subscriptionUri s.restored) table, none) := by
  induction states generalizing table with
  | nil => rfl
  | cons s rest ih =>
      rw [List.map_cons, restoreEntries, restoreEntry_checkpointEntry]
      exact ih _

/-- Every subscription that comes back is under its own path and not of a list. -/
theorem restored_plain (table : SubTable Time) {uri : Href} {s : StoredSubscription Time}
    (found : (restoreFromCheckpoint table.toCheckpoint).1.get? uri = some s) :
    s.subscriptionUri = uri ∧ s.isListSubscription = false := by
  have plain : ∀ (states : List (StoredSubscription Time)) (t : SubTable Time),
      (∀ uri s, t.get? uri = some s → s.subscriptionUri = uri ∧ s.isListSubscription = false) →
      ∀ uri s, (states.foldl (fun t s => t.set s.subscriptionUri s.restored) t).get? uri = some s →
        s.subscriptionUri = uri ∧ s.isListSubscription = false := by
    intro states
    induction states with
    | nil => exact fun _ held => held
    | cons first rest ih =>
        intro t held
        refine ih _ fun uri s found => ?_
        rw [Dict.get?_set] at found
        split at found
        · rename_i own
          cases found
          exact ⟨own.symm, rfl⟩
        · exact held uri s found
  rw [restoreFromCheckpoint, SubTable.toCheckpoint, Option.getD_some, restoreEntries_written] at found
  exact plain _ Dict.empty (by simp) uri s found

/-- A table keyed by its paths comes back in its order, with every subscription as one that
is not of a list. -/
theorem restore_keyed {table : SubTable Time}
    (keyed : ∀ uri s, table.get? uri = some s → s.subscriptionUri = uri) :
    restoreFromCheckpoint table.toCheckpoint =
      (table.mapValues StoredSubscription.restored, none) := by
  have own : ∀ e ∈ table.entries, e.2.subscriptionUri = e.1 := fun e listed =>
    keyed e.1 e.2 ((Dict.mem_entries_iff _ _ _).mp listed)
  have rewritten : (table.values.foldl (fun t s => t.set s.subscriptionUri s.restored)
      (Dict.empty : SubTable Time)) = table.mapValues StoredSubscription.restored := by
    rw [← Dict.foldl_set_entries (table.mapValues StoredSubscription.restored), Dict.values,
      Dict.mapValues, List.foldl_map, List.foldl_map]
    refine List.foldl_ext _ _ _ fun t e listed => ?_
    rw [own e listed]
  rw [restoreFromCheckpoint, SubTable.toCheckpoint, Option.getD_some, restoreEntries_written,
    rewritten]

/-- The checkpoint of a table round trips, with every answer, exactly if the table is keyed by
its paths and no subscription in it is of a list. -/
theorem checkpoint_roundTrips_iff (table : SubTable Time) :
    table.RoundTrips ↔ ∀ uri s, table.get? uri = some s →
      s.subscriptionUri = uri ∧ s.isListSubscription = false := by
  constructor
  · rintro ⟨same, -⟩ uri s found
    refine restored_plain table ?_
    rw [same]
    exact found
  · intro plain
    have kept : table.mapValues StoredSubscription.restored = table := by
      refine Dict.eq_of_entries ?_
      rw [Dict.mapValues]
      conv_rhs => rw [← List.map_id table.entries]
      refine List.map_congr_left fun e listed => ?_
      have flat := (plain e.1 e.2 ((Dict.mem_entries_iff _ _ _).mp listed)).2
      rw [StoredSubscription.restored_eq flat, id_eq]
    have same : restoreFromCheckpoint table.toCheckpoint = (table, none) := by
      rw [restore_keyed fun uri s found => (plain uri s found).1, kept]
    refine ⟨same, ?_⟩
    rw [same]
    exact ⟨fun _ _ => rfl, fun _ => rfl, fun _ _ _ => rfl⟩

/-- After a restart, a notification of a keyed table's subscription is taken otherwise exactly
if the subscription is of a list and the notification is of another resource than its own. -/
theorem shouldProcess_restored_iff {table : SubTable Time}
    (keyed : ∀ uri s, table.get? uri = some s → s.subscriptionUri = uri) (uri resource : Href) :
    (restoreFromCheckpoint table.toCheckpoint).1.shouldProcess uri resource =
        table.shouldProcess uri resource ↔
      ∀ s, table.get? uri = some s → s.isListSubscription = true →
        resource = s.subscribedResource := by
  rw [restore_keyed keyed]
  simp only [SubTable.shouldProcess, Dict.get?_mapValues]
  cases found : table.get? uri with
  | none => simp
  | some s => by_cases list : s.isListSubscription = true <;> simp [StoredSubscription.restored, list]

end RoundTrip

/-! ### A subscription of a list -/

/-- A table with one subscription, of the given type. -/
def oneStored (resourceType : String) : SubTable Int :=
  Dict.empty.set "/sub/1"
    { subscriptionUri := "/sub/1"
      subscribedResource := "/derp/1/derc"
      resourceType := resourceType
      isListSubscription := "List".toList.isSuffixOf resourceType.toList
      notificationUri := "https://client/ntfy"
      createdAt := 0
      subListHref := some "/edev/1/sub" }

/-- The table a manager has after subscribing to a DERControlList, and its checkpoint: a
notification of a control of the list was processed before the restart, not after. -/
theorem listSubscription_lost :
    (oneStored "DERControlList").Of (afterCalls [.call (.subscribe "/derp/1/derc" "DERControlList"),
        .answer 0 (.created (some "/sub/1"))]) ∧
      ¬ (oneStored "DERControlList").RoundTrips ∧
      (oneStored "DERControlList").shouldProcess "/sub/1" "/derp/1/derc/5" = true ∧
      (restoreFromCheckpoint (oneStored "DERControlList").toCheckpoint).1.shouldProcess "/sub/1"
        "/derp/1/derc/5" = false := by
  refine ⟨fun uri => ?_, fun trips => ?_, by decide +kernel, by decide +kernel⟩
  · have table : (afterCalls [.call (.subscribe "/derp/1/derc" "DERControlList"),
        .answer 0 (.created (some "/sub/1"))]).subscriptions = Dict.empty.set "/sub/1" 0 := rfl
    rw [table, oneStored, Dict.get?_set, Dict.get?_set]
    split
    · rfl
    · rfl
  · have same := congrArg (·.1.shouldProcess "/sub/1" "/derp/1/derc/5") trips.1
    revert same
    decide +kernel

end Checkpoint

end Py20305
