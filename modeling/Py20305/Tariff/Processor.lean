import Py20305.Events.Trackers
import Py20305.Lib.Machine

/-!
`TariffProcessor`: the price relays of rate components.

A run of `process_tariffs` visits the profiles in turn. For each it reads the server's
time, and for each rate component it picks the interval in effect, fetches its prices
where it changed, and relays them. A run waits at its acknowledgements (before it picks)
and at its price fetch; between two waits it takes one `Step`. Acknowledgements change
nothing a relay depends on and are left out, so a run may wait as long as it likes before
it picks.
-/

namespace Py20305.Tariff

/-- `TimeTariffInterval1`: an interval as served. -/
structure TimeTariffInterval where
  mrid : Mrid
  start : Int
  duration : Int
  randomizeStart : Option Int
  randomizeDuration : Option Int
  eventStatus : Option EventStatus
  creationTime : Option Int
  /-- Where its prices are. -/
  priceList : Option Href
  deriving DecidableEq

/-- Its window with these offsets. -/
def TimeTariffInterval.window (a : TimeTariffInterval) (offsets : Int × Int) : Int × Int :=
  (a.start + offsets.1, a.start + offsets.1 + a.duration + offsets.2)

/-- `effective_window`, and the cache afterwards. -/
def effectiveWindow (a : TimeTariffInterval) (c : RandomizationCache) (draws : Nat × Nat) :
    (Int × Int) × RandomizationCache :=
  let (offsets, c) := c.offsetsFor a.mrid (a.randomizeStart, a.randomizeDuration) a.start
    a.duration draws
  (a.window offsets, c)

/-- `_is_cancelled`: cancelled, cancelled with randomization, or superseded. -/
def TimeTariffInterval.cancelled (a : TimeTariffInterval) : Bool :=
  match a.eventStatus with
  | none => false
  | some status => status.currentStatus ∈ [2, 3, 4]

/-- The loop of `active_interval`: the best interval so far with its key, and the rest. -/
def pickActive (now : Int) (draws : Mrid → Nat × Nat) :
    List TimeTariffInterval → Option (TimeTariffInterval × Int × Int) → RandomizationCache →
      Option TimeTariffInterval × RandomizationCache
  | [], best, c => (best.map Prod.fst, c)
  | a :: rest, best, c =>
      if a.cancelled then pickActive now draws rest best c
      else
        let (window, c) := effectiveWindow a c (draws a.mrid)
        if window.1 ≤ now ∧ now < window.2 then
          let key := (a.creationTime.getD 0, window.1)
          if best.all fun b => decide (b.2.1 < key.1 ∨ b.2.1 = key.1 ∧ b.2.2 < key.2) then
            pickActive now draws rest (some (a, key)) c
          else pickActive now draws rest best c
        else pickActive now draws rest best c

def activeInterval (intervals : List TimeTariffInterval) (now : Int) (draws : Mrid → Nat × Nat)
    (c : RandomizationCache) : Option TimeTariffInterval × RandomizationCache :=
  pickActive now draws intervals none c

/-- `TariffRateComponentState`. -/
structure RateComponent where
  href : Href
  intervals : List TimeTariffInterval
  deriving DecidableEq

/-- `TariffProfileState`. -/
structure TariffProfile where
  fsa : Option Href
  components : List RateComponent

/-- A priced consumption block: its price, its start value and its block. -/
structure Block where
  price : Option Int
  startValue : Int
  consumptionBlock : Nat
  deriving DecidableEq

/-- `ScheduleNotification`, as far as the relays of prices differ in it. -/
structure Notification where
  mrid : Mrid
  component : Href
  start : Int
  stop : Int
  prices : List Block
  lfdis : List String
  deriving DecidableEq

/-- A relay, with the server time it was made at. -/
structure Relay where
  now : Int
  notification : Notification
  deriving DecidableEq

/-- The profile a run is working on: the time it read, its components that are left, and
the interval whose prices it is fetching for the first of them. -/
structure Work where
  profile : Href
  now : Int
  components : List RateComponent
  fetching : Option TimeTariffInterval

/-- A run of `process_tariffs` under way. -/
structure Run where
  lfdis : List String
  /-- The profiles left, and how many there were. -/
  rest : List Href
  size : Nat
  live : List Href
  work : Option Work

structure World where
  /-- The time by the clock of a function set assignment, or by the global one. -/
  clock : Option Href → Int
  profiles : Dict Href TariffProfile
  devices : List String
  randomization : RandomizationCache
  active : Dict Href (Option Mrid)
  runs : Dict Nat Run
  relays : List Relay
  /-- The intervals whose prices were fetched. -/
  priced : List Mrid
  /-- The offsets each interval was first seen with. -/
  first : Dict Mrid (Int × Int)

/-- The server's time for a profile. -/
def World.time (P : Href) (w : World) : Int :=
  w.clock ((w.profiles.get? P).bind TariffProfile.fsa)

/-- What the cache is pruned by: the earliest of the clocks of all profiles. -/
def World.pruneTime (w : World) : Int :=
  match w.profiles.values.map fun tp => w.clock tp.fsa with
  | [] => w.clock none
  | t :: rest => rest.foldl min t

/-- Note what an interval is seen with, if it is seen for the first time. -/
def noteOne (c : RandomizationCache) (first : Dict Mrid (Int × Int)) (a : TimeTariffInterval) :
    Dict Mrid (Int × Int) :=
  match first.get? a.mrid, c.cache.get? a.mrid with
  | none, some offsets => first.set a.mrid offsets
  | _, _ => first

def noteFirst (c : RandomizationCache) (intervals : List TimeTariffInterval)
    (first : Dict Mrid (Int × Int)) : Dict Mrid (Int × Int) :=
  intervals.foldl (noteOne c) first

/-- Begin a run: prune, and list the devices and the profiles. Without devices it ends. -/
def World.begin (w : World) (i : Nat) : World :=
  let pruned := { w with randomization := w.randomization.prune w.pruneTime }
  if w.devices.isEmpty then pruned
  else
    { pruned with
      runs := w.runs.set i
        { lfdis := w.devices, rest := w.profiles.keys, size := w.profiles.keys.length,
          live := [], work := none } }

/-- Go on to the next profile. A dictionary that changed its size ends the run. -/
def World.nextProfile (w : World) (i : Nat) (run : Run) : World :=
  match run.rest with
  | [] => w
  | href :: rest =>
      if w.profiles.keys.length = run.size then
        match w.profiles.get? href with
        | none => { w with runs := w.runs.erase i }
        | some tp =>
            let work := { profile := href, now := w.clock tp.fsa, components := tp.components,
                          fetching := none }
            let work := if tp.components.isEmpty then none else some work
            { w with runs := w.runs.set i { run with rest := rest, work := work } }
      else { w with runs := w.runs.erase i }

/-- `_active[href] = current`, and `_emit`. -/
def World.relay (w : World) (run : Run) (work : Work) (component : Href)
    (a : TimeTariffInterval) (prices : List Block) (draws : Nat × Nat) : World :=
  let (window, c) := effectiveWindow a w.randomization draws
  { w with
    randomization := c
    active := w.active.set component (some a.mrid)
    relays := w.relays ++
      [{ now := w.time work.profile
         notification :=
          { mrid := a.mrid, component := component, start := window.1, stop := window.2,
            prices := prices, lfdis := run.lfdis } }] }

/-- The prices of an interval were fetched. -/
def World.gotPrices (w : World) (a : TimeTariffInterval) : World :=
  { w with priced := w.priced ++ [a.mrid] }

/-- A run that is done with a component. -/
def Run.left (run : Run) (work : Work) : Run :=
  match work.components with
  | _ :: next :: rest =>
      { run with work := some { work with components := next :: rest, fetching := none } }
  | _ => { run with work := none }

def World.leave (w : World) (i : Nat) (run : Run) (work : Work) : World :=
  { w with runs := w.runs.set i (run.left work) }

/-- The run waits for the prices of an interval. -/
def World.wait (w : World) (i : Nat) (run : Run) (work : Work) (a : TimeTariffInterval) : World :=
  { w with runs := w.runs.set i { run with work := some { work with fetching := some a } } }

/-- The world after a pick: its cache, and the intervals seen for the first time. -/
def World.picked (w : World) (now : Int) (c : RateComponent) (draws : Mrid → Nat × Nat) : World :=
  let cache := (activeInterval c.intervals now draws w.randomization).2
  { w with randomization := cache, first := noteFirst cache c.intervals w.first }

/-- Pick the interval in effect and compare it with the last one relayed
(`_relay_if_changed` up to its fetch). An interval without a price list is relayed with no
prices, without waiting. -/
def World.select (w : World) (i : Nat) (run : Run) (work : Work) (c : RateComponent)
    (draws : Mrid → Nat × Nat) : World :=
  let interval := (activeInterval c.intervals work.now draws w.randomization).1
  let run := { run with live := c.href :: run.live }
  let w := w.picked work.now c draws
  if (interval.map TimeTariffInterval.mrid) = (w.active.get? c.href).getD none then
    w.leave i run work
  else
    match interval with
    | none => { w with active := w.active.set c.href none }.leave i run work
    | some a =>
        match a.priceList with
        | none => ((w.gotPrices a).relay run work c.href a [] (draws a.mrid)).leave i run work
        | some _ => w.wait i run work a

/-- The prices arrived, or the fetch failed. -/
def World.fetched (w : World) (i : Nat) (run : Run) (work : Work) (c : RateComponent)
    (a : TimeTariffInterval) (prices : Option (List Block)) (draws : Nat × Nat) : World :=
  match prices with
  | none => w.leave i run work
  | some blocks => ((w.gotPrices a).relay run work c.href a blocks draws).leave i run work

/-- End a run: forget the components it did not see. -/
def World.finish (w : World) (i : Nat) (run : Run) : World :=
  { w with
    active := w.active.filter fun href _ => decide (href ∈ run.live)
    runs := w.runs.erase i }

inductive Step where
  | begin (i : Nat)
  | profile (i : Nat)
  | select (i : Nat) (draws : Mrid → Nat × Nat)
  | fetched (i : Nat) (prices : Option (List Block)) (draws : Nat × Nat)
  | finish (i : Nat)
  /-- A run is cancelled, or something it waits for raises. -/
  | abort (i : Nat)
  /-- Time passes, and discovery changes the profiles and the devices. -/
  | change (clock : Option Href → Int) (profiles : Dict Href TariffProfile)
      (devices : List String)

def World.step (w : World) : Step → Option World
  | .begin i => if (w.runs.get? i).isSome then none else some (w.begin i)
  | .profile i =>
      match w.runs.get? i with
      | some run =>
          if run.work.isSome || run.rest.isEmpty then none else some (w.nextProfile i run)
      | none => none
  | .select i draws =>
      match w.runs.get? i with
      | some run =>
          match run.work with
          | some work =>
              match work.components, work.fetching with
              | c :: _, none => some (w.select i run work c draws)
              | _, _ => none
          | none => none
      | none => none
  | .fetched i prices draws =>
      match w.runs.get? i with
      | some run =>
          match run.work with
          | some work =>
              match work.components, work.fetching with
              | c :: _, some a => some (w.fetched i run work c a prices draws)
              | _, _ => none
          | none => none
      | none => none
  | .finish i =>
      match w.runs.get? i with
      | some run =>
          if run.work.isNone && run.rest.isEmpty then some (w.finish i run) else none
      | none => none
  | .abort i =>
      match w.runs.get? i with
      | some _ => some { w with runs := w.runs.erase i }
      | none => none
  | .change clock profiles devices =>
      some { w with clock := clock, profiles := profiles, devices := devices }

@[reducible] def processor : Machine where
  State := World
  Label := Step
  step l w := w.step l

/-- A processor that has not run yet. -/
structure World.Fresh (w : World) : Prop where
  randomization : w.randomization = {}
  active : w.active = Dict.empty
  runs : w.runs = Dict.empty
  relays : w.relays = []
  priced : w.priced = []
  first : w.first = Dict.empty

end Py20305.Tariff
