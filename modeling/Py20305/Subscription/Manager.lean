import Py20305.Lib.Dict
import Py20305.Lib.Machine
import Py20305.Sep.Resources

/-!
The subscription manager (`subscription/manager.py`) and the calls the client
makes of it (`_auto_subscribe`, `_handle_notification`).

A call runs from one await to the next; where it waits is a `Wait`, what it does
once the subscription or renewal it waits for has returned is a `Cont`. The tasks
of an `asyncio.gather` are tasks of their own. Subscription states are objects
with an identity (`SubRef`): calls hold on to them across their awaits while the
table drops or re-keys them.

Left out: the path a Subscription is POSTed to, time stamps, stored
notifications and the counts that are returned.
-/

namespace Py20305

inductive SubStatus where
  | active | cancelled
  deriving DecidableEq, Repr

/-- `SubscriptionState`. -/
structure SubscriptionState where
  subscriptionUri : Href
  subscribedResource : Href
  resourceType : String
  status : SubStatus := .active
  isListSubscription : Bool := false
  unmanaged : Bool := false

/-- The identity of a state object. -/
abbrev SubRef := Nat

/-- `RenewalMethod`, and whether a subscription without a location is taken. -/
structure SubSettings where
  put : Bool
  missingLocationFallback : Bool

/-! ### Calls -/

/-- What the server lists: a subscribed resource, and the subscription's path. -/
def ServerList := List (Href × Option Href)

namespace ServerList

/-- The resources the server has a subscription for. -/
def resources (served : ServerList) : List Href :=
  (List.map Prod.fst served).filter fun resource => resource ≠ ""

/-- The path it gives for a resource; of several the last one. -/
def uriOf (served : ServerList) (resource : Href) : Option Href :=
  ((List.filter (fun e => e.1 = resource ∧ resource ≠ "") served).filterMap
    fun e => extractHref e.2).getLast?

end ServerList

/-- What a call goes on with after a `subscribe` or a `renew` it awaits. -/
inductive Cont where
  /-- It was called for its own sake. -/
  | done
  /-- The loop of `_auto_subscribe`. -/
  | auto (rest : List (Href × String))
  /-- The loop of `reconcile_with_server`, at `state`. -/
  | server (state : SubRef) (rest : List SubRef) (served : ServerList)
  /-- The loop of `validate_restored_subscriptions`, at `uri`. -/
  | validate (uri : Href) (rest : List Href)
  /-- The loop of `renew_all`, or of one round of the renewal task. -/
  | renewals (rest : List Href)

/-- Where `reconcile` or `cancel_all` stands when it waits for its tasks. -/
inductive Phase where
  | cancels (uris : List Href) (keep : List (Href × SubRef)) (create : List (Href × String))
      (renewKept : Bool)
  | renews (keep : List (Href × SubRef)) (create : List (Href × String))
  | creates
  | cancelAll

/-- What a call waits for. -/
inductive Wait where
  /-- The POST of a new subscription. -/
  | subscribing (resource : Href) (resourceType : String) (next : Cont)
  /-- The DELETE of `cancel`, which pops the subscription, or of `_cancel_one`. -/
  | deleting (uri : Href) (pops : Bool)
  /-- The PUT of a renewal. -/
  | putting (uri : Href) (state : SubRef) (next : Cont)
  /-- The POST of a renewal. -/
  | posting (uri : Href) (state : SubRef) (next : Cont)
  /-- The GET of `reconcile_with_server`. -/
  | listing (reestablishMissing : Bool)
  /-- The tasks of a gather. -/
  | gathering (tasks : List Nat) (phase : Phase)

/-- What a gather makes tasks of. -/
inductive Child where
  | cancelOne (uri : Href)
  | renew (uri : Href)
  | subscribe (resource : Href) (resourceType : String)

inductive SubTask where
  | created (child : Child)
  | waiting (wait : Wait)
  | finished (ok : Bool)

/-- The manager, the calls in progress and the Subscriptions POSTed so far. -/
structure Subs where
  object : SubRef → SubscriptionState := fun _ => ⟨"", "", "", .cancelled, false, false⟩
  next : SubRef := 0
  subscriptions : Dict Href SubRef := Dict.empty
  suppressed : List Href := []
  tasks : Nat → Option SubTask := fun _ => none
  nextTask : Nat := 0
  posted : List Href := []

namespace Subs

variable (s : Subs)

/-! ### The table -/

def resourceOf (r : SubRef) : Href := (s.object r).subscribedResource

def uriOf (r : SubRef) : Href := (s.object r).subscriptionUri

/-- The entry is active. -/
def isActive (r : SubRef) : Bool := (s.object r).status = .active

/-- `active_subscriptions`. -/
def activeSubscriptions : List SubRef := s.subscriptions.values.filter s.isActive

variable {s} in
theorem mem_activeSubscriptions {r : SubRef} (listed : r ∈ s.activeSubscriptions) :
    (∃ uri, s.subscriptions.get? uri = some r) ∧ s.isActive r = true :=
  ⟨(Dict.mem_values_iff _ _).mp (List.mem_filter.mp listed).1, (List.mem_filter.mp listed).2⟩

/-- `_find_active_for_resource`. -/
def findActive (resource : Href) : Option SubRef :=
  s.activeSubscriptions.find? fun r => (s.object r).subscribedResource = resource

/-- `self._subscriptions.pop(uri, None)`. -/
def pop (uri : Href) : Subs := { s with subscriptions := s.subscriptions.erase uri }

/-- Pop several. -/
def popAll (uris : List Href) : Subs := uris.foldl pop s

/-- `self._subscriptions[state.subscription_uri] = state`. -/
def restore (r : SubRef) : Subs :=
  { s with subscriptions := s.subscriptions.set (s.object r).subscriptionUri r }

/-- Give the state another path, under which it is stored from now on. -/
def rekey (old : Href) (r : SubRef) (uri : Href) : Subs :=
  { s with
    object := Function.update s.object r { s.object r with subscriptionUri := uri }
    subscriptions := (s.subscriptions.erase old).set uri r }

/-- Store a new state. -/
def insert (uri resource : Href) (resourceType : String) (unmanaged : Bool) : Subs :=
  { s with
    object := Function.update s.object s.next
      { subscriptionUri := uri, subscribedResource := resource, resourceType := resourceType
        isListSubscription := "List".toList.isSuffixOf resourceType.toList, unmanaged := unmanaged }
    next := s.next + 1
    subscriptions := s.subscriptions.set uri s.next }

/-- `mark_cancelled`. -/
def markCancelled (uri : Href) : Subs :=
  match s.subscriptions.get? uri with
  | none => s
  | some r =>
      { s with object := Function.update s.object r { s.object r with status := .cancelled } }

/-- `should_process_notification`. -/
def shouldProcess (uri resource : Href) : Bool :=
  match s.subscriptions.get? uri with
  | none => true
  | some r => (s.object r).isListSubscription || resource = (s.object r).subscribedResource

/-- A Subscription for the resource goes out. -/
def post (resource : Href) : Subs := { s with posted := s.posted ++ [resource] }

/-! ### Tasks -/

def put (p : Nat) (task : SubTask) : Subs :=
  { s with tasks := Function.update s.tasks p (some task) }

def wait (p : Nat) (w : Wait) : Subs := s.put p (.waiting w)

def finish (p : Nat) (ok : Bool) : Subs := s.put p (.finished ok)

/-- Make the tasks of a gather and wait for them. -/
def gather (p : Nat) (children : List Child) (phase : Phase) : Subs :=
  let made := children.foldl (fun (acc : Subs) child =>
    { acc.put acc.nextTask (.created child) with nextTask := acc.nextTask + 1 }) s
  made.wait p (.gathering ((List.range children.length).map (s.nextTask + ·)) phase)

/-! ### Subscribing and renewing -/

/-- `subscribe`, up to its POST: `none` if the resource is subscribed to. -/
def subscribe (p : Nat) (resource : Href) (resourceType : String) (next : Cont) : Option Subs :=
  match s.findActive resource with
  | some _ => none
  | none => some ((s.post resource).wait p (.subscribing resource resourceType next))

/-- `renew`, up to its request, or what it returns at once. -/
def renew (settings : SubSettings) (p : Nat) (uri : Href) (next : Cont) : Except Bool Subs :=
  match s.subscriptions.get? uri with
  | none => .error false
  | some r =>
      if s.isActive r = false then .error false
      else if (s.object r).unmanaged then .error true
      else if settings.put then .ok (s.wait p (.putting uri r next))
      else .ok ((s.post (s.object r).subscribedResource).wait p (.posting uri r next))

/-- The loop of `_auto_subscribe`. -/
def autoLoop (p : Nat) : List (Href × String) → Subs
  | [] => s.finish p true
  | (resource, resourceType) :: rest =>
      if resource ∈ s.suppressed then autoLoop p rest
      else
        match s.subscribe p resource resourceType (.auto rest) with
        | none => autoLoop p rest
        | some s' => s'

/-- The loops that renew one subscription after the other; with `drops`, one that
fails is popped. -/
def renewLoop (settings : SubSettings) (drops : Bool) (p : Nat) : List Href → Subs → Subs
  | [], s => s.finish p true
  | uri :: rest, s =>
      match s.renew settings p uri (if drops then .validate uri rest else .renewals rest) with
      | .ok s' => s'
      | .error _ => renewLoop settings drops p rest s

/-- The loop of `reconcile_with_server` over the states that were active. -/
def serverLoop (reestablishMissing : Bool) (p : Nat) (served : ServerList) :
    List SubRef → Subs → Subs
  | [], s => s.finish p true
  | r :: rest, s =>
      let state := s.object r
      if state.unmanaged then serverLoop reestablishMissing p served rest s
      else if state.subscribedResource ∈ served.resources then
        match served.uriOf state.subscribedResource with
        | none => serverLoop reestablishMissing p served rest s
        | some uri =>
            serverLoop reestablishMissing p served rest
              (if uri ≠ state.subscriptionUri then s.rekey state.subscriptionUri r uri else s)
      else if reestablishMissing = false then
        serverLoop reestablishMissing p served rest
          (if served.resources ≠ [] then s.pop state.subscriptionUri else s)
      else
        match (s.pop state.subscriptionUri).subscribe p state.subscribedResource state.resourceType
          (.server r rest served) with
        | none => serverLoop reestablishMissing p served rest (s.pop state.subscriptionUri)
        | some s' => s'

/-- A `subscribe` or `renew` has returned. -/
def resume (settings : SubSettings) (p : Nat) (ok : Bool) : Cont → Subs
  | .done => s.finish p ok
  | .auto rest => s.autoLoop p rest
  | .server r rest served => serverLoop true p served rest (if ok then s else s.restore r)
  | .validate uri rest => renewLoop settings true p rest (if ok then s else s.pop uri)
  | .renewals rest => renewLoop settings false p rest s

/-! ### Reconciling with what is wanted -/

/-- The end of `reconcile`: create what is missing. -/
def createAll (p : Nat) (create : List (Href × String)) : Subs :=
  if create = [] then s.finish p true
  else s.gather p (create.map fun e => .subscribe e.1 e.2) .creates

/-- `reconcile` once the stale subscriptions are cancelled. -/
def renewKeep (p : Nat) (keep : List (Href × SubRef)) (create : List (Href × String))
    (renewKept : Bool) : Subs :=
  if keep ≠ [] ∧ renewKept = true then
    s.gather p (keep.map fun e => .renew (s.object e.2).subscriptionUri) (.renews keep create)
  else s.createAll p create

/-- The active states by resource; of two for one resource the later one. -/
def byResource : Dict Href SubRef :=
  s.activeSubscriptions.foldl (fun old r => old.set (s.object r).subscribedResource r) Dict.empty

/-- `reconcile`. -/
def reconcile (p : Nat) (desired : List (Href × String)) (renewKept : Bool) : Subs :=
  let old := s.byResource
  let wanted := desired.foldl (fun (d : Dict Href String) e => d.set e.1 e.2) Dict.empty
  let kept : Href × SubRef → Bool := fun e => wanted.get? e.1 = some (s.object e.2).resourceType
  let keep := old.entries.filter kept
  let create := wanted.entries.filter fun e =>
    (old.get? e.1).map (fun r => (s.object r).resourceType) ≠ some e.2
  let uris := (old.entries.filter fun e => !kept e).map fun e => (s.object e.2).subscriptionUri
  -- Stale cancelled entries are cleaned up on the way.
  let cleaned := s.popAll ((s.subscriptions.values.filter fun r => !s.isActive r).map
    fun r => (s.object r).subscriptionUri)
  if uris = [] then cleaned.renewKeep p keep create renewKept
  else cleaned.gather p (uris.map .cancelOne) (.cancels uris keep create renewKept)

/-- The result of a task. -/
def succeeded (q : Nat) : Bool :=
  match s.tasks q with
  | some (.finished ok) => ok
  | _ => false

/-- `reconcile` or `cancel_all` goes on once its tasks are through. -/
def gathered (p : Nat) (tasks : List Nat) : Phase → Subs
  | .cancels uris keep create renewKept => (s.popAll uris).renewKeep p keep create renewKept
  | .renews keep create =>
      let failed := ((keep.zip tasks).filter fun e => !s.succeeded e.2).map Prod.fst
      (s.popAll (failed.map fun e => (s.object e.2).subscriptionUri)).createAll p
        (create ++ failed.map fun e => (e.1, (s.object e.2).resourceType))
  | .creates => s.finish p true
  | .cancelAll => { s with subscriptions := Dict.empty }.finish p true

end Subs

/-! ### The machine -/

/-- The calls. -/
inductive SubCall where
  | subscribe (resource : Href) (resourceType : String)
  | cancel (uri : Href)
  | cancelAll
  | renewals (uris : List Href)
  | validateRestored
  | reconcile (desired : List (Href × String)) (renewKept : Bool)
  | reconcileWithServer (reestablishMissing : Bool)
  | autoSubscribe (desired : List (Href × String))

/-- What a request is answered with: a new subscription with its location, success,
404 or 405, any other failure, or the server's list. -/
inductive SubAnswer where
  | created (location : Option Href)
  | ok
  | gone
  | failed
  | listed (served : ServerList)

inductive SubLabel where
  | call (c : SubCall)
  | start (p : Nat)
  | answer (p : Nat) (a : SubAnswer)
  | gathered (p : Nat)
  | kill (p : Nat)
  | markCancelled (uri : Href)
  | cancelledByServer (uri resource : Href)
  | clearSuppression

namespace Subs

variable (settings : SubSettings) (s : Subs)

/-- The first part of a call, in task `p`. -/
def begin_ (p : Nat) : SubCall → Subs
  | .subscribe resource resourceType =>
      (s.subscribe p resource resourceType .done).getD (s.finish p true)
  | .cancel uri =>
      if (s.subscriptions.get? uri).any fun r => (s.object r).unmanaged then
        (s.pop uri).finish p true
      else s.wait p (.deleting uri true)
  | .cancelAll =>
      if s.subscriptions.keys = [] then s.finish p true
      else s.gather p (s.subscriptions.keys.map .cancelOne) .cancelAll
  | .renewals uris => renewLoop settings false p uris s
  | .validateRestored => renewLoop settings true p s.subscriptions.keys s
  | .reconcile desired renewKept => s.reconcile p desired renewKept
  | .reconcileWithServer reestablishMissing => s.wait p (.listing reestablishMissing)
  | .autoSubscribe desired => s.autoLoop p desired

/-- The first part of a task of a gather. -/
def startChild (p : Nat) : Child → Subs
  | .cancelOne uri =>
      if (s.subscriptions.get? uri).any fun r => (s.object r).unmanaged then s.finish p true
      else s.wait p (.deleting uri false)
  | .renew uri =>
      match s.renew settings p uri .done with
      | .ok s' => s'
      | .error ok => s.finish p ok
  | .subscribe resource resourceType =>
      (s.subscribe p resource resourceType .done).getD (s.finish p true)

/-- A request is answered. -/
def answer (p : Nat) : Wait → SubAnswer → Option Subs
  | .subscribing resource resourceType next, .created location =>
      match extractHref location with
      | some uri => some ((s.insert uri resource resourceType false).resume settings p true next)
      | none =>
          if settings.missingLocationFallback then
            some ((s.insert ("_synthetic:" ++ resource) resource resourceType true).resume settings p
              true next)
          else some (s.resume settings p false next)
  | .subscribing _ _ next, .gone | .subscribing _ _ next, .failed =>
      some (s.resume settings p false next)
  | .deleting uri pops, .ok => some ((if pops then s.pop uri else s).finish p true)
  | .deleting uri pops, .gone | .deleting uri pops, .failed =>
      some ((if pops then s.pop uri else s).finish p false)
  | .putting _ _ next, .ok => some (s.resume settings p true next)
  | .putting uri r next, .gone =>
      some ((s.post (s.object r).subscribedResource).wait p (.posting uri r next))
  | .putting _ _ next, .failed => some (s.resume settings p false next)
  | .posting uri r next, .created location =>
      match extractHref location with
      | some uri' =>
          some ((if uri' ≠ uri then s.rekey uri r uri' else s).resume settings p true next)
      | none => some (s.resume settings p true next)
  | .posting _ _ next, .gone | .posting _ _ next, .failed => some (s.resume settings p false next)
  | .listing reestablishMissing, .listed served =>
      some (serverLoop reestablishMissing p served s.activeSubscriptions s)
  | .listing _, .failed | .listing _, .gone => some (s.finish p true)
  | _, _ => none

end Subs

/-- One step. -/
def subStep (settings : SubSettings) : SubLabel → Subs → Option Subs
  | .call c, s => some ({ s with nextTask := s.nextTask + 1 }.begin_ settings s.nextTask c)
  | .start p, s =>
      match s.tasks p with
      | some (.created child) => some (s.startChild settings p child)
      | _ => none
  | .answer p a, s =>
      match s.tasks p with
      | some (.waiting w) => s.answer settings p w a
      | _ => none
  | .gathered p, s =>
      match s.tasks p with
      | some (.waiting (.gathering tasks phase)) =>
          if tasks.all fun q => (s.tasks q).any fun | .finished _ => true | _ => false then
            some (s.gathered p tasks phase)
          else none
      | _ => none
  | .kill p, s =>
      match s.tasks p with
      | some (.waiting _) | some (.created _) => some (s.finish p false)
      | _ => none
  | .markCancelled uri, s => some (s.markCancelled uri)
  | .cancelledByServer uri resource, s =>
      if s.shouldProcess uri resource then
        some { s.markCancelled uri with suppressed := resource :: s.suppressed }
      else some s
  | .clearSuppression, s => some { s with suppressed := [] }

/-- The subscription manager. -/
@[reducible] def subscriptionManager (settings : SubSettings) : Machine where
  State := Subs
  Label := SubLabel
  step := subStep settings

/-- POST renewals, and no subscription without a location. -/
def plainSettings : SubSettings := { put := false, missingLocationFallback := false }

/-- The state a new manager is in after these steps. -/
def afterCalls (ls : List SubLabel) : Subs :=
  ((subscriptionManager plainSettings).exec {} ls).getD {}

end Py20305
