import Py20305.Client.Rediscovery

/-!
Rediscovery and the polls.

A pass of `trigger_rediscovery` schedules the polls whether the walk goes through or
raises. It does not where the call is made by one of the polls it cancels: the caller
then gets the `CancelledError` of its own `cancel_all`, and the scheduler stays shut
down (`rearmed_iff`).
-/

namespace Py20305

open Machine

/-- The stages of the walk. -/
def Stage.InWalk : Stage → Prop
  | .cancelling | .renewal | .listening => False
  | _ => True

namespace Client

variable (settings : ClientSettings) (c : Client)

/-- The scheduler is not shut down, and the polls for the current rates are scheduled
on it, by tasks that were not cancelled. -/
def Armed : Prop :=
  c.current.shutdown = false ∧
    ∀ key rate, (key, rate) ∈ c.known.polls settings →
      ∃ task, c.current.polls.get? key = some (rate, task) ∧ task ∉ c.cancelled

/-- The task is not one of the polls still to come. -/
def Old (p : TaskId) : Prop := ∀ n, p = .poll n → n < c.nextPoll

/-- What holds in every state reached. -/
structure WellFormed : Prop where
  tasks : ∀ i, ∀ p ∈ (c.schedulers i).tasks, ∃ n < c.nextPoll, p = .poll n
  cancelled : ∀ p ∈ c.cancelled, ∃ n < c.nextPoll, p = .poll n
  /-- Only the task that holds the lock is in a pass. -/
  passes : ∀ p n stage, c.tasks p = some (.waiting (.rediscovery n) stage) →
    stage = .listening ∨ c.owner = some p

variable {settings c}

/-! ### Scheduling the polls -/

theorem mem_tasks {s : Scheduler} {p : TaskId} :
    p ∈ s.tasks ↔ ∃ key interval, s.polls.get? key = some (interval, p) := by
  simp only [Scheduler.tasks, List.mem_map, Dict.mem_values_iff, Prod.exists]
  constructor
  · rintro ⟨interval, _, ⟨key, found⟩, rfl⟩
    exact ⟨key, interval, found⟩
  · rintro ⟨key, interval, found⟩
    exact ⟨interval, p, ⟨key, found⟩, rfl⟩

/-- No key is scheduled twice. -/
theorem nodup_polls (k : Known) (settings : ClientSettings) :
    ((k.polls settings).map Prod.fst).Nodup := by
  have advertised : ∀ key : PollKey, List.Sublist
      ((((k.rate key).map (key, ·)).toList).map Prod.fst) [key] := fun key => by
    cases k.rate key <;> simp
  have sub : List.Sublist
      (((k.subPollRate settings).map (PollKey.sub, ·)).toList.map Prod.fst) [PollKey.sub] := by
    cases k.subPollRate settings <;> simp
  have tariff : List.Sublist ((if settings.pricingEnabled = true then
      [(PollKey.tariff, ((k.rate .tariff).filter fun rate => rate ≠ 0).getD defaultPollRate)]
      else []).map Prod.fst) [PollKey.tariff] := by
    split <;> simp
  have connectivity : List.Sublist ((if settings.connectionHeartbeatSeconds > 0 then
      [(PollKey.connectivity, settings.connectionHeartbeatSeconds)] else []).map Prod.fst)
      [PollKey.connectivity] := by
    split <;> simp
  have commsLoss : List.Sublist ((if settings.commsLossSeconds > 0 then
      [(PollKey.commsLoss, settings.commsLossEvalSeconds)] else []).map Prod.fst)
      [PollKey.commsLoss] := by
    split <;> simp
  have reconcile : List.Sublist
      ((if settings.reconcileEnabled = true ∧ settings.hasSubscriptionManager = true then
        ((k.subPollRate settings).map (PollKey.sub, ·)).toList else []).map Prod.fst)
      [PollKey.sub] := by
    split
    · exact sub
    · simp
  have listed : ((k.polls settings).map Prod.fst).Sublist
      ([PollKey.dcap] ++ [PollKey.edev] ++ [PollKey.fsa] ++ [PollKey.derp] ++ [PollKey.tariff] ++
        [PollKey.time] ++ [PollKey.connectivity] ++ [PollKey.commsLoss] ++ [PollKey.sub]) := by
    simp only [Known.polls, List.map_append]
    have resources := (((advertised .dcap).append (advertised .edev)).append
      (advertised .fsa)).append (advertised .derp)
    exact ((((resources.append tariff).append (advertised .time)).append connectivity).append
      commsLoss).append reconcile
  exact listed.nodup (by decide)

/-- What scheduling polls of distinct keys does. -/
structure Scheduled (es : List (PollKey × Int)) (c d : Client) : Prop where
  known : d.known = c.known
  owner : d.owner = c.owner
  pending : d.pending = c.pending
  log : d.log = c.log
  tasks : d.tasks = c.tasks
  scheduler : d.scheduler = c.scheduler
  elsewhere : ∀ i, i ≠ c.scheduler → d.schedulers i = c.schedulers i
  shutdown : d.current.shutdown = c.current.shutdown
  nextPoll : c.nextPoll ≤ d.nextPoll
  kept : ∀ key, key ∉ es.map Prod.fst → d.current.polls.get? key = c.current.polls.get? key
  set : ∀ key rate, (key, rate) ∈ es → ∃ n, c.nextPoll ≤ n ∧ n < d.nextPoll ∧
    d.current.polls.get? key = some (rate, .poll n)
  grows : ∀ p ∈ c.cancelled, p ∈ d.cancelled
  cancelled : ∀ p ∈ d.cancelled, p ∈ c.cancelled ∨
    ∃ key ∈ es.map Prod.fst, ∃ interval, c.current.polls.get? key = some (interval, p)

theorem current_schedule (key : PollKey) (interval : Int) :
    (c.schedule key interval).current =
      { c.current with polls := c.current.polls.set key (interval, .poll c.nextPoll) } := by
  simp [schedule, current, setCurrent]

theorem scheduled_foldl (es : List (PollKey × Int)) (distinct : (es.map Prod.fst).Nodup)
    (c : Client) : Scheduled es c (es.foldl (fun acc e => acc.schedule e.1 e.2) c) := by
  induction es generalizing c with
  | nil =>
      refine ⟨rfl, rfl, rfl, rfl, rfl, rfl, fun _ _ => rfl, rfl, le_rfl, fun _ _ => rfl, ?_,
        fun _ gone => gone, fun _ gone => .inl gone⟩
      intro _ _ listed
      cases listed
  | cons e rest ih =>
      obtain ⟨key, interval⟩ := e
      obtain ⟨fresh, distinct⟩ := List.nodup_cons.mp distinct
      have later := ih distinct (c.schedule key interval)
      have current := current_schedule (c := c) key interval
      refine ⟨later.known, later.owner, later.pending, later.log, later.tasks, later.scheduler,
        fun i other => ?_, ?_, ?_, ?_, ?_, ?_, ?_⟩
      · rw [List.foldl_cons, later.elsewhere i other]
        exact Function.update_of_ne other _ _
      · rw [List.foldl_cons, later.shutdown, current]
      · exact (Nat.le_succ _).trans later.nextPoll
      · intro key' absent
        simp only [List.map_cons, List.mem_cons, not_or] at absent
        rw [List.foldl_cons, later.kept key' absent.2, current, Dict.get?_set_ne _ _ absent.1]
      · intro key' rate listed
        obtain same | listed := List.mem_cons.mp listed
        · obtain ⟨rfl, rfl⟩ := Prod.mk.inj same
          refine ⟨c.nextPoll, le_rfl, later.nextPoll, ?_⟩
          rw [List.foldl_cons, later.kept key' fresh, current, Dict.get?_set_self]
        · obtain ⟨n, started, before, found⟩ := later.set key' rate listed
          exact ⟨n, (Nat.le_succ _).trans started, before, found⟩
      · exact fun p gone => later.grows p (List.mem_append_right _ gone)
      · intro p gone
        obtain earlier | ⟨key', listed, interval', found⟩ := later.cancelled p gone
        · obtain replaced | earlier := List.mem_append.mp earlier
          · refine .inr ⟨key, List.mem_cons_self, ?_⟩
            rw [Option.mem_toList, Option.map_eq_some_iff] at replaced
            obtain ⟨⟨interval', _⟩, found, rfl⟩ := replaced
            exact ⟨interval', found⟩
          · exact .inl earlier
        · refine .inr ⟨key', List.mem_cons_of_mem _ listed, interval', ?_⟩
          have other : key' ≠ key := fun same => fresh (same ▸ listed)
          rwa [current, Dict.get?_set_ne _ _ other] at found

theorem scheduled_startPolls (settings : ClientSettings) (c : Client) :
    Scheduled (c.known.polls settings) c (c.startPolls settings) :=
  scheduled_foldl _ (nodup_polls _ _) c

/-- Scheduling the polls on a scheduler that is not shut down arms it. -/
theorem WellFormed.armed_startPolls (formed : c.WellFormed) (up : c.current.shutdown = false) :
    (c.startPolls settings).Armed settings := by
  have scheduled := scheduled_startPolls settings c
  refine ⟨scheduled.shutdown.trans up, fun key rate listed => ?_⟩
  rw [scheduled.known] at listed
  obtain ⟨n, started, -, found⟩ := scheduled.set key rate listed
  refine ⟨.poll n, found, fun gone => ?_⟩
  have old : ∃ m < c.nextPoll, TaskId.poll n = .poll m := by
    obtain earlier | ⟨key', -, interval, stored⟩ := scheduled.cancelled _ gone
    · exact formed.cancelled _ earlier
    · exact formed.tasks c.scheduler _ (mem_tasks.mpr ⟨key', interval, stored⟩)
  obtain ⟨m, before, same⟩ := old
  obtain rfl := TaskId.poll.inj same
  omega

theorem Armed.of_core {d : Client} (armed : c.Armed settings)
    (schedulers : d.schedulers = c.schedulers) (scheduler : d.scheduler = c.scheduler)
    (known : d.known = c.known) (cancelled : d.cancelled = c.cancelled) : d.Armed settings := by
  unfold Armed current
  rw [schedulers, scheduler, known, cancelled]
  exact armed

/-- What is scheduled next. -/
theorem Scheduled.mem_tasks {es : List (PollKey × Int)} {d : Client} (scheduled : Scheduled es c d)
    {p : TaskId} (listed : p ∈ d.current.tasks) :
    p ∈ c.current.tasks ∨ ∃ n, c.nextPoll ≤ n ∧ n < d.nextPoll ∧ p = .poll n := by
  obtain ⟨key, interval, found⟩ := Client.mem_tasks.mp listed
  by_cases made : key ∈ es.map Prod.fst
  · obtain ⟨⟨_, rate⟩, member, rfl⟩ := List.mem_map.mp made
    obtain ⟨n, started, before, set⟩ := scheduled.set _ rate member
    rw [found] at set
    exact .inr ⟨n, started, before, (Prod.mk.inj (Option.some.inj set)).2⟩
  · rw [scheduled.kept key made] at found
    exact .inl (Client.mem_tasks.mpr ⟨key, interval, found⟩)

theorem WellFormed.scheduled {es : List (PollKey × Int)} {d : Client} (formed : c.WellFormed)
    (scheduled : Scheduled es c d) : d.WellFormed := by
  have later : ∀ p, (∃ n < c.nextPoll, p = TaskId.poll n) → ∃ n < d.nextPoll, p = .poll n :=
    fun p ⟨n, before, same⟩ => ⟨n, before.trans_le scheduled.nextPoll, same⟩
  refine ⟨fun i p listed => ?_, fun p gone => ?_, ?_⟩
  · by_cases here : i = c.scheduler
    · have atCurrent : p ∈ d.current.tasks := by rwa [current, scheduled.scheduler, ← here]
      obtain old | ⟨n, -, before, same⟩ := scheduled.mem_tasks atCurrent
      · exact later p (formed.tasks _ p old)
      · exact ⟨n, before, same⟩
    · rw [scheduled.elsewhere i here] at listed
      exact later p (formed.tasks i p listed)
  · obtain earlier | ⟨key, -, interval, stored⟩ := scheduled.cancelled p gone
    · exact later p (formed.cancelled p earlier)
    · exact later p (formed.tasks c.scheduler p (Client.mem_tasks.mpr ⟨key, interval, stored⟩))
  · rw [scheduled.tasks, scheduled.owner]
    exact formed.passes

/-! ### Every state is well formed -/

/-- The rest of the state does not matter. -/
theorem WellFormed.of_core {d : Client} (formed : c.WellFormed)
    (schedulers : d.schedulers = c.schedulers) (nextPoll : d.nextPoll = c.nextPoll)
    (cancelled : d.cancelled = c.cancelled) (tasks : d.tasks = c.tasks)
    (owner : d.owner = c.owner) : d.WellFormed := by
  refine ⟨?_, ?_, ?_⟩
  · rw [schedulers, nextPoll]
    exact formed.tasks
  · rw [cancelled, nextPoll]
    exact formed.cancelled
  · rw [tasks, owner]
    exact formed.passes

theorem WellFormed.wait (formed : c.WellFormed) {p : TaskId} {activity : Activity} {stage : Stage}
    (own : ∀ n, activity = .rediscovery n → stage = .listening ∨ c.owner = some p) :
    (c.wait p activity stage).WellFormed := by
  refine ⟨formed.tasks, formed.cancelled, fun q n stage' waits => ?_⟩
  by_cases same : q = p
  · subst same
    simp only [Client.wait, Function.update_self, Option.some.injEq, TaskState.waiting.injEq] at waits
    obtain ⟨rfl, rfl⟩ := waits
    exact own n rfl
  · simp only [Client.wait, Function.update_of_ne same] at waits
    exact formed.passes q n stage' waits

theorem WellFormed.finish (formed : c.WellFormed) (p : TaskId) (how : Ending) :
    (c.finish p how).WellFormed := by
  refine ⟨formed.tasks, formed.cancelled, fun q n stage waits => ?_⟩
  by_cases same : q = p
  · simp [Client.finish, same] at waits
  · simp only [Client.finish, Function.update_of_ne same] at waits
    exact formed.passes q n stage waits

/-- Who holds the lock gives it back. -/
theorem WellFormed.release (formed : c.WellFormed) {p : TaskId} (own : c.owner = some p)
    {state : TaskState} (out : ∀ n stage, state = .waiting (.rediscovery n) stage → stage = .listening) :
    ({ c.release with tasks := Function.update c.tasks p (some state) } : Client).WellFormed := by
  refine ⟨formed.tasks, formed.cancelled, fun q n stage waits => .inl ?_⟩
  by_cases same : q = p
  · simp only [same, Function.update_self, Option.some.injEq] at waits
    exact out n stage waits
  · simp only [Function.update_of_ne same] at waits
    refine (formed.passes q n stage waits).resolve_right fun owns => same ?_
    exact Option.some.inj (owns.symm.trans own)

theorem WellFormed.setCurrent (formed : c.WellFormed) {s : Scheduler}
    (fewer : ∀ p ∈ s.tasks, p ∈ c.current.tasks) : (c.setCurrent s).WellFormed := by
  refine ⟨fun i p listed => ?_, formed.cancelled, formed.passes⟩
  by_cases here : i = c.scheduler
  · simp only [Client.setCurrent, here, Function.update_self] at listed
    exact formed.tasks _ p (fewer p listed)
  · simp only [Client.setCurrent, Function.update_of_ne here] at listed
    exact formed.tasks i p listed

theorem WellFormed.discover (formed : c.WellFormed) {p : TaskId} (own : c.owner = some p)
    (passes : Nat) : (c.discover p passes).WellFormed := by
  have cleared : ({ c with known := { subscribed := c.known.subscribed } } : Client).WellFormed :=
    formed.of_core rfl rfl rfl rfl rfl
  exact cleared.wait fun _ _ => .inr own

theorem WellFormed.rebuild (formed : c.WellFormed) {p : TaskId} (own : c.owner = some p)
    (passes : Nat) : (c.rebuild p passes).WellFormed := by
  have made : ({ c with
      schedulers := Function.update c.schedulers c.nextScheduler {}
      scheduler := c.nextScheduler
      nextScheduler := c.nextScheduler + 1 } : Client).WellFormed := by
    refine ⟨fun i p listed => ?_, formed.cancelled, formed.passes⟩
    by_cases fresh : i = c.nextScheduler
    · simp only [fresh, Function.update_self] at listed
      cases listed
    · simp only [Function.update_of_ne fresh] at listed
      exact formed.tasks i p listed
  simp only [Client.rebuild]
  split
  · refine WellFormed.wait ?_ fun _ _ => .inr own
    exact made.of_core rfl rfl rfl rfl rfl
  · exact made.discover own passes

theorem WellFormed.shutDown (formed : c.WellFormed) :
    ({ c.setCurrent { c.current with shutdown := true } with pending := false } :
      Client).WellFormed := by
  have down : (c.setCurrent { c.current with shutdown := true }).WellFormed :=
    formed.setCurrent fun _ listed => listed
  exact down.of_core rfl rfl rfl rfl rfl

theorem WellFormed.beginPass (formed : c.WellFormed) {p : TaskId} (own : c.owner = some p)
    (passes : Nat) : (c.beginPass p passes).WellFormed := by
  have down := formed.shutDown
  have emptied : ({ c.setCurrent { c.current with shutdown := true } with
      pending := false
      cancelled := c.current.tasks ++ c.cancelled } : Client).WellFormed := by
    refine ⟨down.tasks, fun q gone => ?_, down.passes⟩
    obtain listed | earlier := List.mem_append.mp gone
    · exact formed.tasks _ q listed
    · exact formed.cancelled q earlier
  simp only [Client.beginPass]
  split
  · exact down.rebuild own passes
  · exact emptied.wait fun _ _ => .inr own

theorem WellFormed.finishPass (formed : c.WellFormed) {p : TaskId} (own : c.owner = some p)
    (passes : Nat) : (c.finishPass settings p passes).WellFormed := by
  have scheduled := scheduled_startPolls settings c
  have armed := formed.scheduled scheduled
  have own' : (c.startPolls settings).owner = some p := scheduled.owner.trans own
  simp only [Client.finishPass]
  split
  · exact armed.beginPass own' (passes + 1)
  · have left : ({ c.startPolls settings with pending := false } : Client).WellFormed :=
      armed.of_core rfl rfl rfl rfl rfl
    split
    · exact left.release own' fun n stage same => by cases same; rfl
    · exact left.release own' fun n stage same => by cases same

theorem WellFormed.failPass (formed : c.WellFormed) {p : TaskId} (own : c.owner = some p) :
    (c.failPass settings p).WellFormed := by
  have scheduled := scheduled_startPolls settings c
  exact (formed.scheduled scheduled).release (scheduled.owner.trans own) fun n stage same => by
    cases same

/-! ### What an answer does -/

/-- Only GETs. -/
def Gets (more : List ClientEvent) : Prop := ∀ e ∈ more, ∃ href, e = .get href

theorem Gets.nil : Gets [] := by simp [Gets]

theorem Gets.one (href : Href) : Gets [.get href] := by simp [Gets]

/-- Refreshing waits for a GET or for the processing, or goes straight to the end. -/
theorem refreshControls_cases (settings : ClientSettings) (c : Client) (p : TaskId)
    (activity : Activity) (programs : List KnownProgram) :
    (∃ more stage, Gets more ∧ stage.InWalk ∧ c.refreshControls settings p activity programs =
      { c with log := c.log ++ more }.wait p activity stage) ∨
    c.refreshControls settings p activity programs = c.process settings p activity [] := by
  induction programs with
  | nil =>
      unfold Client.refreshControls
      cases c.toProcess activity with
      | nil => exact .inr rfl
      | cons program rest =>
          refine .inl ⟨[], .processing rest, .nil, trivial, ?_⟩
          rw [List.append_nil]
          rfl
  | cons program rest ih =>
      simp only [Client.refreshControls]
      split
      · exact .inl ⟨_, .dderc program rest, .one _, trivial, rfl⟩
      · unfold Client.getCurves
        split
        · exact .inl ⟨_, .curves program rest, .one _, trivial, rfl⟩
        · unfold Client.getDerc
          split
          · exact .inl ⟨_, .derc program rest, .one _, trivial, rfl⟩
          · exact ih

/-- What an answer does in a pass. -/
inductive Goes (settings : ClientSettings) (c : Client) (p : TaskId) (passes : Nat) :
    Stage → Client → Prop where
  | rebuild : Goes settings c p passes .cancelling
      ((c.setCurrent { c.current with polls := Dict.empty }).rebuild p passes)
  | discover : Goes settings c p passes .renewal (c.discover p passes)
  | walk {stage : Stage} (renewing : Bool) (stage' : Stage) (more : List ClientEvent) :
      stage.InWalk → stage'.InWalk → Gets more → Goes settings c p passes stage
        ({ c with log := c.log ++ more, renewing := renewing }.wait p (.rediscovery passes) stage')
  | go {stage : Stage} (renewing : Bool) (stage' : Stage) :
      stage.InWalk → stage'.InWalk → Goes settings c p passes stage
        ({ c with renewing := renewing }.wait p (.rediscovery passes) stage')
  | done {stage : Stage} : stage.InWalk → Goes settings c p passes stage
      (c.finishPass settings p passes)
  | ended : Goes settings c p passes .listening (c.finish p (.returned true))

theorem goes_refreshControls {p : TaskId} {passes : Nat} {stage : Stage}
    (programs : List KnownProgram) (walks : stage.InWalk) :
    Goes settings c p passes stage (c.refreshControls settings p (.rediscovery passes) programs) := by
  obtain ⟨more, stage', gets, walks', same⟩ | same :=
    refreshControls_cases settings c p (.rediscovery passes) programs
  · rw [same]
    exact .walk c.renewing stage' more walks walks' gets
  · rw [same]
    exact .done walks

theorem goes_of_answered {p : TaskId} {passes : Nat} {stage : Stage} {d : Client}
    (answered : c.answered settings p (.rediscovery passes) stage = some d) :
    Goes settings c p passes stage d := by
  cases stage with
  | cancelling =>
      obtain rfl := Option.some.inj answered
      exact .rebuild
  | renewal =>
      obtain rfl := Option.some.inj answered
      exact .discover
  | discovering =>
      obtain rfl := Option.some.inj answered
      exact .go c.renewing _ trivial (by split <;> trivial)
  | reconciling =>
      obtain rfl := Option.some.inj answered
      exact .go c.known.subscribed .refreshingFsas trivial trivial
  | refreshingFsas =>
      obtain rfl := Option.some.inj answered
      exact .go c.renewing .refreshingPrograms trivial trivial
  | refreshingPrograms =>
      simp only [Client.answered] at answered
      split at answered
      · obtain rfl := Option.some.inj answered
        exact .go c.renewing .subscribing trivial trivial
      · obtain rfl := Option.some.inj answered
        exact goes_refreshControls _ (by trivial)
  | subscribing =>
      obtain rfl := Option.some.inj answered
      exact goes_refreshControls _ (by trivial)
  | dderc program rest =>
      obtain rfl := Option.some.inj answered
      unfold Client.getCurves
      split
      · exact .walk c.renewing (.curves program rest) _ trivial trivial (.one _)
      · unfold Client.getDerc
        split
        · exact .walk c.renewing (.derc program rest) _ trivial trivial (.one _)
        · exact goes_refreshControls rest (by trivial)
  | curves program rest =>
      obtain rfl := Option.some.inj answered
      unfold Client.getDerc
      split
      · exact .walk c.renewing (.derc program rest) _ trivial trivial (.one _)
      · exact goes_refreshControls rest (by trivial)
  | derc program rest =>
      obtain rfl := Option.some.inj answered
      exact goes_refreshControls rest (by trivial)
  | processing rest =>
      obtain rfl := Option.some.inj answered
      cases rest with
      | nil => exact .done trivial
      | cons program rest => exact .go c.renewing (.processing rest) trivial trivial
  | listening =>
      obtain rfl := Option.some.inj answered
      exact .ended

/-- What is done for a notification: GETs go out, or it is through. -/
inductive Serves (c : Client) (p : TaskId) : Client → Prop where
  | get (program : Option Href) (stage : Stage) (more : List ClientEvent) : Gets more →
      Serves c p ({ c with log := c.log ++ more }.wait p (.notification program) stage)
  | wait (program : Option Href) (stage : Stage) :
      Serves c p (c.wait p (.notification program) stage)
  | done (how : Ending) : Serves c p (c.finish p how)

theorem serves_refreshControls (p : TaskId) (program : Option Href) (programs : List KnownProgram) :
    Serves c p (c.refreshControls settings p (.notification program) programs) := by
  obtain ⟨more, stage, gets, -, same⟩ | same :=
    refreshControls_cases settings c p (.notification program) programs
  · rw [same]
    exact .get program stage more gets
  · rw [same]
    exact .done _

theorem serves_of_answered {p : TaskId} {program : Option Href} {stage : Stage} {d : Client}
    (answered : c.answered settings p (.notification program) stage = some d) : Serves c p d := by
  cases stage with
  | cancelling | renewal | discovering | reconciling | refreshingFsas | subscribing | listening =>
      cases answered
  | refreshingPrograms =>
      obtain rfl := Option.some.inj answered
      exact serves_refreshControls p program _
  | dderc prog rest =>
      obtain rfl := Option.some.inj answered
      unfold Client.getCurves
      split
      · exact .get program (.curves prog rest) _ (.one _)
      · unfold Client.getDerc
        split
        · exact .get program (.derc prog rest) _ (.one _)
        · exact serves_refreshControls p program rest
  | curves prog rest =>
      obtain rfl := Option.some.inj answered
      unfold Client.getDerc
      split
      · exact .get program (.derc prog rest) _ (.one _)
      · exact serves_refreshControls p program rest
  | derc prog rest =>
      obtain rfl := Option.some.inj answered
      exact serves_refreshControls p program rest
  | processing rest =>
      obtain rfl := Option.some.inj answered
      cases rest with
      | nil => exact .done _
      | cons next rest => exact .wait program (.processing rest)

theorem WellFormed.serves {p : TaskId} {d : Client} (formed : c.WellFormed) (serves : Serves c p d) :
    d.WellFormed := by
  cases serves with
  | get program stage more gets =>
      have logged : ({ c with log := c.log ++ more } : Client).WellFormed :=
        formed.of_core rfl rfl rfl rfl rfl
      exact logged.wait fun _ same => by cases same
  | wait program stage => exact formed.wait fun _ same => by cases same
  | done how => exact formed.finish p how

theorem WellFormed.goes {p : TaskId} {passes : Nat} {stage : Stage} {d : Client}
    (formed : c.WellFormed) (waits : c.tasks p = some (.waiting (.rediscovery passes) stage))
    (goes : Goes settings c p passes stage d) : d.WellFormed := by
  have own : stage ≠ .listening → c.owner = some p :=
    fun other => (formed.passes p passes stage waits).resolve_left other
  cases goes with
  | rebuild =>
      have emptied : (c.setCurrent { c.current with polls := Dict.empty }).WellFormed :=
        formed.setCurrent fun q listed => by cases listed
      exact emptied.rebuild (own (by simp)) passes
  | discover => exact formed.discover (own (by simp)) passes
  | walk renewing stage' more walks walks' gets =>
      have logged : ({ c with log := c.log ++ more, renewing := renewing } : Client).WellFormed :=
        formed.of_core rfl rfl rfl rfl rfl
      refine logged.wait fun _ _ => .inr (own ?_)
      rintro rfl
      exact walks
  | go renewing stage' walks walks' =>
      have logged : ({ c with renewing := renewing } : Client).WellFormed :=
        formed.of_core rfl rfl rfl rfl rfl
      refine logged.wait fun _ _ => .inr (own ?_)
      rintro rfl
      exact walks
  | done walks =>
      refine formed.finishPass (own ?_) passes
      rintro rfl
      exact walks
  | ended => exact formed.finish p _

theorem WellFormed.interrupted {p : TaskId} {activity : Activity} {stage : Stage}
    (formed : c.WellFormed) (waits : c.tasks p = some (.waiting activity stage)) :
    (c.interrupted p activity stage).WellFormed := by
  have left : ((if c.owner = some p then c.release else c).finish p .cancelled).WellFormed := by
    split
    · rename_i own
      exact formed.release own fun n stage same => by cases same
    · exact formed.finish p _
  unfold Client.interrupted
  split
  · rename_i passes
    have own := (formed.passes p passes _ waits).resolve_left (by simp)
    have swallowed : ({ c with cancelled := c.cancelled.erase p } : Client).WellFormed :=
      ⟨formed.tasks, fun q gone => formed.cancelled q (List.mem_of_mem_erase gone), formed.passes⟩
    exact swallowed.discover own passes
  · exact left

theorem WellFormed.raised {p : TaskId} {activity : Activity} {stage : Stage} {d : Client}
    (formed : c.WellFormed) (waits : c.tasks p = some (.waiting activity stage))
    (raised : c.raised settings p activity stage = some d) : d.WellFormed := by
  cases activity with
  | notification program =>
      obtain rfl := Option.some.inj raised
      exact formed.finish p _
  | rediscovery passes =>
      have own : stage ≠ .listening → c.owner = some p :=
        fun other => (formed.passes p passes stage waits).resolve_left other
      cases stage with
      | cancelling | renewal => cases raised
      | listening =>
          obtain rfl := Option.some.inj raised
          exact formed.finish p _
      | discovering | reconciling | refreshingFsas | refreshingPrograms | subscribing | dderc |
        curves | derc | processing =>
          obtain rfl := Option.some.inj raised
          exact formed.failPass (own (by simp))

theorem WellFormed.routeNotification (formed : c.WellFormed) (p : TaskId) (resource : Href) :
    (c.routeNotification settings p resource).WellFormed := by
  have heard : ({ c with log := c.log ++ [.received resource] } : Client).WellFormed :=
    formed.of_core rfl rfl rfl rfl rfl
  simp only [Client.routeNotification]
  split
  · exact heard.finish p _
  · split
    · exact heard.serves (serves_refreshControls p _ _)
    · exact heard.wait fun _ same => by cases same

theorem WellFormed.triggerRediscovery (formed : c.WellFormed) (p : TaskId) :
    (c.triggerRediscovery p).WellFormed := by
  unfold Client.triggerRediscovery
  split
  · have asked : ({ c with pending := true } : Client).WellFormed :=
      formed.of_core rfl rfl rfl rfl rfl
    exact asked.finish p _
  · rename_i free
    have locked : ({ c with owner := some p } : Client).WellFormed := by
      refine ⟨formed.tasks, formed.cancelled, fun q n stage waits => .inl ?_⟩
      refine (formed.passes q n stage waits).resolve_right fun owns => free ?_
      rw [owns]
      rfl
    exact locked.beginPass rfl 1

end Client

open Client

/-- A step leaves the state well formed. -/
theorem wellFormed_step {settings : ClientSettings} {c d : Client} (l : ClientLabel)
    (stepped : clientStep settings l c = some d) (formed : c.WellFormed) : d.WellFormed := by
  cases l with
  | run =>
      obtain rfl := Option.some.inj stepped
      exact formed.scheduled (scheduled_startPolls settings c)
  | call p =>
      simp only [clientStep] at stepped
      split at stepped
      · obtain rfl := Option.some.inj stepped
        exact formed.triggerRediscovery p
      · cases stepped
  | duplicate =>
      obtain rfl := Option.some.inj stepped
      split
      · exact formed.of_core rfl rfl rfl rfl rfl
      · exact formed
  | notify n resource =>
      simp only [clientStep] at stepped
      split at stepped
      · obtain rfl := Option.some.inj stepped
        exact formed.routeNotification _ resource
      · cases stepped
  | answer p =>
      simp only [clientStep] at stepped
      split at stepped
      · rename_i activity stage waits
        split at stepped
        · obtain rfl := Option.some.inj stepped
          exact formed.interrupted waits
        · cases activity with
          | rediscovery passes => exact formed.goes waits (goes_of_answered stepped)
          | notification program => exact formed.serves (serves_of_answered stepped)
      · cases stepped
  | fail p =>
      simp only [clientStep] at stepped
      split at stepped
      · rename_i activity stage waits
        split at stepped
        · cases stepped
        · exact formed.raised waits stepped
      · cases stepped
  | update known =>
      obtain rfl := Option.some.inj stepped
      exact formed.of_core rfl rfl rfl rfl rfl

theorem wellFormed_of_run {settings : ClientSettings} {c : Client}
    (run : (client settings).Run Free {} c) : c.WellFormed := by
  refine Run.keeps (P := fun (c : Client) => c.WellFormed)
    (fun l _ _ stepped _ formed => wellFormed_step l stepped formed) run ?_
  refine ⟨fun _ _ listed => ?_, fun _ gone => ?_, fun _ _ _ waits => ?_⟩
  · cases listed
  · cases gone
  · cases waits

/-! ### While a call holds the lock -/

namespace Client

variable {settings : ClientSettings} {c d : Client} {p : TaskId}

/-- What a step of another task does, while `p` holds the lock. -/
structure Aside (p : TaskId) (l : ClientLabel) (c d : Client) : Prop where
  owner : d.owner = c.owner
  task : d.tasks p = c.tasks p
  pending : c.pending = true → d.pending = true
  log : ∃ more, d.log = c.log ++ more ∧ ∀ resource, .received resource ∈ more →
    ∃ n, l = .notify n resource
  polls : (d.schedulers = c.schedulers ∧ d.scheduler = c.scheduler ∧ d.nextPoll = c.nextPoll ∧
    d.cancelled = c.cancelled) ∨ ∃ es, Scheduled es c d

/-- The task is in a pass and holds the lock. -/
structure InPass (c : Client) (p : TaskId) (passes : Nat) (stage : Stage) : Prop where
  formed : c.WellFormed
  owner : c.owner = some p
  waits : c.tasks p = some (.waiting (.rediscovery passes) stage)
  busy : stage ≠ .listening

theorem ne_of_canCall {q : TaskId} {activity : Activity} {stage : Stage}
    (waits : c.tasks p = some (.waiting activity stage)) (can : c.canCall q = true) : q ≠ p := by
  rintro rfl
  simp [canCall, waits] at can

/-- Another task is done or waits for something else. -/
theorem Aside.of_task {q : TaskId} {l : ClientLabel} {state : TaskState} {more : List ClientEvent}
    (other : q ≠ p) (heard : ∀ resource, .received resource ∈ more → ∃ n, l = .notify n resource) :
    Aside p l c { c with
      log := c.log ++ more
      tasks := Function.update c.tasks q (some state) } :=
  ⟨rfl, Function.update_of_ne other.symm _ _, fun asked => asked, ⟨more, rfl, heard⟩,
    .inl ⟨rfl, rfl, rfl, rfl⟩⟩

theorem Aside.finish {q : TaskId} (l : ClientLabel) (other : q ≠ p) (how : Ending) :
    Aside p l c (c.finish q how) :=
  ⟨rfl, Function.update_of_ne other.symm _ _, fun asked => asked, ⟨[], by simp [Client.finish], by simp⟩,
    .inl ⟨rfl, rfl, rfl, rfl⟩⟩

theorem Aside.serves {q : TaskId} (l : ClientLabel) (other : q ≠ p) (serves : Serves c q d) :
    Aside p l c d := by
  cases serves with
  | get program stage more gets =>
      refine .of_task other fun resource listed => ?_
      obtain ⟨href, same⟩ := gets _ listed
      cases same
  | wait program stage =>
      exact ⟨rfl, Function.update_of_ne other.symm _ _, fun asked => asked,
        ⟨[], by simp [Client.wait], by simp⟩, .inl ⟨rfl, rfl, rfl, rfl⟩⟩
  | done how => exact .finish l other how

/-- The step is the task's own, or leaves it alone. -/
theorem InPass.own_or_aside {passes : Nat} {stage : Stage} {l : ClientLabel}
    (pass : c.InPass p passes stage) (stepped : clientStep settings l c = some d) :
    (l = .answer p ∧ p ∈ c.cancelled ∧ d = c.interrupted p (.rediscovery passes) stage) ∨
    (l = .answer p ∧ p ∉ c.cancelled ∧
      c.answered settings p (.rediscovery passes) stage = some d) ∨
    (l = .fail p ∧ p ∉ c.cancelled ∧ c.raised settings p (.rediscovery passes) stage = some d) ∨
    Aside p l c d := by
  have locked : c.owner.isSome = true := by
    rw [pass.owner]
    rfl
  -- Another task's rediscovery is through, but for the listener.
  have listens : ∀ q n stage', q ≠ p → c.tasks q = some (.waiting (.rediscovery n) stage') →
      stage' = .listening := by
    intro q n stage' other waits
    refine (pass.formed.passes q n stage' waits).resolve_right fun owns => other ?_
    exact Option.some.inj (owns.symm.trans pass.owner)
  cases l with
  | run =>
      obtain rfl := Option.some.inj stepped
      have scheduled := scheduled_startPolls settings c
      refine .inr (.inr (.inr ⟨scheduled.owner, congrFun scheduled.tasks p, ?_, ?_, .inr ⟨_, scheduled⟩⟩))
      · rw [scheduled.pending]
        exact fun asked => asked
      · exact ⟨[], by rw [scheduled.log, List.append_nil], by simp⟩
  | call q =>
      simp only [clientStep] at stepped
      split at stepped
      · rename_i can
        have other := ne_of_canCall pass.waits can
        simp only [triggerRediscovery, locked, if_true, Option.some.injEq] at stepped
        subst stepped
        exact .inr (.inr (.inr ⟨rfl, Function.update_of_ne other.symm _ _, fun _ => rfl,
          ⟨[], by simp [Client.finish], by simp⟩, .inl ⟨rfl, rfl, rfl, rfl⟩⟩))
      · cases stepped
  | duplicate =>
      simp only [clientStep, locked, if_true, Option.some.injEq] at stepped
      subst stepped
      exact .inr (.inr (.inr ⟨rfl, rfl, fun _ => rfl, ⟨[], by simp, by simp⟩,
        .inl ⟨rfl, rfl, rfl, rfl⟩⟩))
  | notify n resource =>
      simp only [clientStep] at stepped
      split at stepped
      · rename_i can
        simp only [routeNotification, locked, if_true, Option.some.injEq] at stepped
        subst stepped
        refine .inr (.inr (.inr (.of_task (ne_of_canCall pass.waits can) fun other listed => ?_)))
        simp only [List.mem_singleton, ClientEvent.received.injEq] at listed
        exact ⟨n, by rw [listed]⟩
      · cases stepped
  | answer q =>
      simp only [clientStep] at stepped
      split at stepped
      · rename_i activity stage' waits
        by_cases same : q = p
        · subst same
          rw [pass.waits] at waits
          obtain ⟨rfl, rfl⟩ := TaskState.waiting.inj (Option.some.inj waits)
          split at stepped
          · rename_i gone
            exact .inl ⟨rfl, gone, (Option.some.inj stepped).symm⟩
          · rename_i kept
            exact .inr (.inl ⟨rfl, kept, stepped⟩)
        · refine .inr (.inr (.inr ?_))
          have unowned : c.owner ≠ some q := fun owns => same (Option.some.inj (owns.symm.trans pass.owner))
          split at stepped
          · obtain rfl := Option.some.inj stepped
            unfold Client.interrupted
            split
            · cases listens q _ _ same waits
            · rw [if_neg unowned]
              exact .finish _ same _
          · cases activity with
            | notification program => exact .serves _ same (serves_of_answered stepped)
            | rediscovery m =>
                obtain rfl := listens q m stage' same waits
                obtain rfl := Option.some.inj stepped
                exact .finish _ same _
      · cases stepped
  | fail q =>
      simp only [clientStep] at stepped
      split at stepped
      · rename_i activity stage' waits
        split at stepped
        · cases stepped
        · rename_i kept
          by_cases same : q = p
          · subst same
            rw [pass.waits] at waits
            obtain ⟨rfl, rfl⟩ := TaskState.waiting.inj (Option.some.inj waits)
            exact .inr (.inr (.inl ⟨rfl, kept, stepped⟩))
          · refine .inr (.inr (.inr ?_))
            cases activity with
            | notification program =>
                obtain rfl := Option.some.inj stepped
                exact .finish _ same _
            | rediscovery m =>
                obtain rfl := listens q m stage' same waits
                obtain rfl := Option.some.inj stepped
                exact .finish _ same _
      · cases stepped
  | update known =>
      obtain rfl := Option.some.inj stepped
      exact .inr (.inr (.inr ⟨rfl, rfl, fun asked => asked, ⟨[], by simp, by simp⟩,
        .inl ⟨rfl, rfl, rfl, rfl⟩⟩))

/-- The task is in a pass, and none of the polls that are cancelled is the task. -/
structure Rebuilding (c : Client) (p : TaskId) (passes : Nat) (stage : Stage) : Prop
    extends InPass c p passes stage where
  spared : p ∉ c.cancelled
  apart : p ∉ c.current.tasks
  old : c.Old p
  up : stage = .cancelling ∨ c.current.shutdown = false

theorem Rebuilding.aside {passes : Nat} {stage : Stage} {l : ClientLabel}
    (rebuilding : c.Rebuilding p passes stage) (formed : d.WellFormed) (aside : Aside p l c d) :
    d.Rebuilding p passes stage := by
  refine ⟨⟨formed, aside.owner.trans rebuilding.owner, aside.task.trans rebuilding.waits,
    rebuilding.busy⟩, ?_, ?_, ?_, ?_⟩
  all_goals
    obtain ⟨schedulers, scheduler, nextPoll, cancelled⟩ | ⟨es, scheduled⟩ := aside.polls
  · rw [cancelled]
    exact rebuilding.spared
  · intro gone
    obtain earlier | ⟨key, -, interval, stored⟩ := scheduled.cancelled p gone
    · exact rebuilding.spared earlier
    · exact rebuilding.apart (mem_tasks.mpr ⟨key, interval, stored⟩)
  · rw [current, schedulers, scheduler]
    exact rebuilding.apart
  · intro listed
    obtain earlier | ⟨n, started, -, same⟩ := scheduled.mem_tasks listed
    · exact rebuilding.apart earlier
    · have := rebuilding.old n same
      omega
  · intro n same
    rw [nextPoll]
    exact rebuilding.old n same
  · exact fun n same => (rebuilding.old n same).trans_le scheduled.nextPoll
  · rw [current, schedulers, scheduler]
    exact rebuilding.up
  · rw [scheduled.shutdown]
    exact rebuilding.up

theorem rebuilding_discover (formed : c.WellFormed) (owner : c.owner = some p)
    (spared : p ∉ c.cancelled) (apart : p ∉ c.current.tasks) (old : c.Old p)
    (up : c.current.shutdown = false) (passes : Nat) :
    (c.discover p passes).Rebuilding p passes .discovering :=
  ⟨⟨formed.discover owner passes, owner, Function.update_self .., by simp⟩, spared, apart, old,
    .inr up⟩

/-- A new scheduler has no polls. -/
theorem rebuilding_rebuild (formed : c.WellFormed) (owner : c.owner = some p)
    (spared : p ∉ c.cancelled) (old : c.Old p) (passes : Nat) :
    ∃ stage, (c.rebuild p passes).Rebuilding p passes stage := by
  have formed' := formed.rebuild owner passes
  simp only [Client.rebuild] at formed' ⊢
  split
  · rename_i renewing
    rw [if_pos renewing] at formed'
    refine ⟨.renewal, ⟨formed', owner, Function.update_self .., by simp⟩, spared, ?_, old, .inr ?_⟩
    · simp [Client.wait, current, Scheduler.tasks, Dict.values, Dict.empty]
    · simp [Client.wait, current]
  · rename_i idle
    rw [if_neg idle] at formed'
    refine ⟨.discovering, ⟨formed', owner, Function.update_self .., by simp⟩, spared, ?_, old, .inr ?_⟩
    · simp [Client.discover, Client.wait, current, Scheduler.tasks, Dict.values, Dict.empty]
    · simp [Client.discover, Client.wait, current]

/-- A pass begins, in a task that is none of the polls. -/
theorem rebuilding_beginPass (formed : c.WellFormed) (owner : c.owner = some p)
    (spared : p ∉ c.cancelled) (apart : p ∉ c.current.tasks) (old : c.Old p) (passes : Nat) :
    ∃ stage, (c.beginPass p passes).Rebuilding p passes stage := by
  have formed' := formed.beginPass owner passes
  by_cases none_ : c.current.polls.keys = []
  · simp only [Client.beginPass, none_, if_true]
    exact rebuilding_rebuild formed.shutDown owner spared old passes
  · simp only [Client.beginPass, none_, if_false] at formed' ⊢
    refine ⟨.cancelling, ⟨formed', owner, Function.update_self .., by simp⟩, ?_, ?_, old, .inl rfl⟩
    · exact fun gone => (List.mem_append.mp gone).elim apart spared
    · simpa [Client.wait, setCurrent, current, Scheduler.tasks] using apart

/-- What follows a step of the task's own: it is still in a pass, or the lock is free and
the polls are scheduled. -/
def Onwards (settings : ClientSettings) (p : TaskId) (d : Client) : Prop :=
  (∃ passes stage, d.Rebuilding p passes stage) ∨ d.owner = none ∧ d.Armed settings

theorem Rebuilding.up_of_ne {passes : Nat} {stage : Stage} (rebuilding : c.Rebuilding p passes stage)
    (other : stage ≠ .cancelling) : c.current.shutdown = false := rebuilding.up.resolve_left other

theorem Rebuilding.finishPass {passes : Nat} {stage : Stage}
    (rebuilding : c.Rebuilding p passes stage) (other : stage ≠ .cancelling) :
    Onwards settings p (c.finishPass settings p passes) := by
  have scheduled := scheduled_startPolls settings c
  have armed : (c.startPolls settings).Armed settings :=
    rebuilding.formed.armed_startPolls (rebuilding.up_of_ne other)
  simp only [Client.finishPass]
  generalize c.startPolls settings = e at scheduled armed ⊢
  split
  · -- Another pass: the polls that were just scheduled are cancelled, and they are new.
    have later : e.Rebuilding p passes stage :=
      rebuilding.aside (l := .run) (rebuilding.formed.scheduled scheduled)
        ⟨scheduled.owner, congrFun scheduled.tasks p, fun asked => scheduled.pending.trans asked,
          ⟨[], by rw [scheduled.log, List.append_nil], by simp⟩, .inr ⟨_, scheduled⟩⟩
    obtain ⟨stage', begun⟩ := rebuilding_beginPass later.formed later.owner later.spared later.apart
      later.old (passes + 1)
    exact .inl ⟨_, stage', begun⟩
  · split
    · exact .inr ⟨rfl, armed.of_core rfl rfl rfl rfl⟩
    · exact .inr ⟨rfl, armed.of_core rfl rfl rfl rfl⟩

theorem Rebuilding.goes {passes : Nat} {stage : Stage} (rebuilding : c.Rebuilding p passes stage)
    (goes : Goes settings c p passes stage d) : Onwards settings p d := by
  have formed := rebuilding.formed.goes rebuilding.waits goes
  cases goes with
  | rebuild =>
      have emptied : (c.setCurrent { c.current with polls := Dict.empty }).WellFormed :=
        rebuilding.formed.setCurrent fun q listed => by cases listed
      obtain ⟨stage', begun⟩ :=
        rebuilding_rebuild emptied rebuilding.owner rebuilding.spared rebuilding.old passes
      exact .inl ⟨passes, stage', begun⟩
  | discover =>
      exact .inl ⟨passes, .discovering, rebuilding_discover rebuilding.formed rebuilding.owner
        rebuilding.spared rebuilding.apart rebuilding.old (rebuilding.up_of_ne (by simp)) passes⟩
  | walk renewing stage' more walks walks' gets =>
      refine .inl ⟨passes, stage', ⟨formed, rebuilding.owner, Function.update_self .., ?_⟩,
        rebuilding.spared, rebuilding.apart, rebuilding.old, .inr (rebuilding.up_of_ne ?_)⟩
      · rintro rfl
        exact walks'
      · rintro rfl
        exact walks
  | go renewing stage' walks walks' =>
      refine .inl ⟨passes, stage', ⟨formed, rebuilding.owner, Function.update_self .., ?_⟩,
        rebuilding.spared, rebuilding.apart, rebuilding.old, .inr (rebuilding.up_of_ne ?_)⟩
      · rintro rfl
        exact walks'
      · rintro rfl
        exact walks
  | done walks =>
      refine rebuilding.finishPass ?_
      rintro rfl
      exact walks
  | ended => exact absurd rfl rebuilding.busy

theorem Rebuilding.raised {passes : Nat} {stage : Stage} (rebuilding : c.Rebuilding p passes stage)
    (raised : c.raised settings p (.rediscovery passes) stage = some d) : Onwards settings p d := by
  cases stage with
  | cancelling | renewal => cases raised
  | listening => exact absurd rfl rebuilding.busy
  | discovering | reconciling | refreshingFsas | refreshingPrograms | subscribing | dderc | curves |
    derc | processing =>
      obtain rfl := Option.some.inj raised
      have armed : (c.startPolls settings).Armed settings :=
        rebuilding.formed.armed_startPolls (rebuilding.up_of_ne (by simp))
      simp only [Client.failPass]
      generalize c.startPolls settings = e at armed ⊢
      exact .inr ⟨rfl, armed.of_core rfl rfl rfl rfl⟩

theorem Rebuilding.step {passes : Nat} {stage : Stage} {l : ClientLabel}
    (rebuilding : c.Rebuilding p passes stage) (stepped : clientStep settings l c = some d) :
    Onwards settings p d := by
  obtain ⟨-, gone, -⟩ | ⟨-, -, answered⟩ | ⟨-, -, raised⟩ | aside :=
    rebuilding.toInPass.own_or_aside stepped
  · exact absurd gone rebuilding.spared
  · exact rebuilding.goes (goes_of_answered answered)
  · exact rebuilding.raised raised
  · exact .inl ⟨passes, stage,
      rebuilding.aside (wellFormed_step l stepped rebuilding.formed) aside⟩

/-- The task is one of the polls its own pass has cancelled. -/
structure Doomed (c : Client) (p : TaskId) (passes : Nat) : Prop
    extends InPass c p passes .cancelling where
  gone : p ∈ c.cancelled
  down : c.current.shutdown = true

/-- It gets its `CancelledError`, and leaves the scheduler shut down. -/
theorem Doomed.step {passes : Nat} {l : ClientLabel} (doomed : c.Doomed p passes)
    (stepped : clientStep settings l c = some d) :
    d.Doomed p passes ∨ d.owner = none ∧ ¬ d.Armed settings := by
  have formed := wellFormed_step l stepped doomed.formed
  obtain ⟨-, -, rfl⟩ | ⟨-, kept, -⟩ | ⟨-, kept, -⟩ | aside := doomed.toInPass.own_or_aside stepped
  · refine .inr ?_
    simp only [Client.interrupted, doomed.owner, if_true]
    refine ⟨rfl, fun armed => ?_⟩
    have up : c.current.shutdown = false := armed.1
    rw [doomed.down] at up
    cases up
  · exact absurd doomed.gone kept
  · exact absurd doomed.gone kept
  · refine .inl ⟨⟨formed, aside.owner.trans doomed.owner, aside.task.trans doomed.waits, by simp⟩, ?_, ?_⟩
    all_goals
      obtain ⟨schedulers, scheduler, -, cancelled⟩ | ⟨es, scheduled⟩ := aside.polls
    · rw [cancelled]
      exact doomed.gone
    · exact scheduled.grows p doomed.gone
    · rw [current, schedulers, scheduler]
      exact doomed.down
    · exact scheduled.shutdown.trans doomed.down

/-- A call that finds the lock free begins a pass, in a task that is none of the polls or
one of them. -/
theorem called_cases (passes : Nat) (formed : c.WellFormed) (free : c.owner = none)
    (can : c.canCall p = true) :
    (p ∉ c.current.tasks ∧
      ∃ stage, ({ c with owner := some p }.beginPass p passes).Rebuilding p passes stage) ∨
    (p ∈ c.current.tasks ∧ ({ c with owner := some p }.beginPass p passes).Doomed p passes) := by
  simp only [canCall, Bool.and_eq_true, decide_eq_true_eq] at can
  have locked : ({ c with owner := some p } : Client).WellFormed := by
    refine ⟨formed.tasks, formed.cancelled, fun q n stage waits => .inl ?_⟩
    refine (formed.passes q n stage waits).resolve_right fun owns => ?_
    rw [free] at owns
    cases owns
  by_cases listed : p ∈ c.current.tasks
  · refine .inr ⟨listed, ?_⟩
    have formed' := locked.beginPass rfl passes
    have polled : c.current.polls.keys ≠ [] := by
      intro none_
      obtain ⟨key, interval, found⟩ := mem_tasks.mp listed
      have member := (Dict.mem_keys_iff _ _).mpr ⟨_, found⟩
      rw [none_] at member
      cases member
    have polled' : ({ c with owner := some p } : Client).current.polls.keys ≠ [] := polled
    simp only [Client.beginPass, polled', if_false] at formed' ⊢
    refine ⟨⟨formed', rfl, Function.update_self .., by simp⟩, ?_, ?_⟩
    · exact List.mem_append_left _ listed
    · simp [Client.wait, setCurrent, current]
  · refine .inl ⟨listed, rebuilding_beginPass locked rfl can.1.1 listed ?_ passes⟩
    rintro n rfl
    simpa using can.1.2

end Client

/-- A task calls `trigger_rediscovery` where none is running, and gives the lock back at
last, whatever is answered, raised, notified and called meanwhile and however many passes
that takes: the scheduler is up with the polls for the current rates exactly if the task
is not one of the polls that were scheduled when it made the call. -/
theorem rearmed_iff {settings : ClientSettings} {c₀ c₁ c d : Client} {p : TaskId} {l : ClientLabel}
    (reached : (client settings).Run Free {} c₀) (free : c₀.owner = none)
    (called : (client settings).step (.call p) c₀ = some c₁)
    (run : (client settings).Run (fun _ _ after => after.owner = some p) c₁ c)
    (stepped : (client settings).step l c = some d) (released : d.owner ≠ some p) :
    d.Armed settings ↔ p ∉ c₀.current.tasks := by
  simp only [clientStep] at called
  split at called
  · rename_i can
    simp only [triggerRediscovery, free, Option.isSome_none, Bool.false_eq_true, if_false,
      Option.some.injEq] at called
    subst called
    obtain ⟨unlisted, stage, begun⟩ | ⟨listed, doomed⟩ :=
      called_cases 1 (wellFormed_of_run reached) free can
    · have kept : ∃ passes stage, c.Rebuilding p passes stage := by
        refine Run.keeps (P := fun (c : Client) => ∃ passes stage, c.Rebuilding p passes stage)
          (fun l t u stepped own ⟨passes, stage, rebuilding⟩ => ?_) run ⟨1, stage, begun⟩
        refine (rebuilding.step stepped).resolve_right fun left => ?_
        rw [left.1] at own
        cases own
      obtain ⟨passes, stage, rebuilding⟩ := kept
      obtain ⟨passes', stage', later⟩ | ⟨-, armed⟩ := rebuilding.step stepped
      · exact absurd later.owner released
      · exact ⟨fun _ => unlisted, fun _ => armed⟩
    · have kept : c.Doomed p 1 := by
        refine Run.keeps (P := fun (c : Client) => c.Doomed p 1)
          (fun l t u stepped own doomed => ?_) run doomed
        refine (doomed.step stepped).resolve_right fun left => ?_
        rw [left.1] at own
        cases own
      obtain later | ⟨-, unarmed⟩ := kept.step stepped
      · exact absurd later.owner released
      · exact ⟨fun armed => absurd armed unarmed, fun unlisted => absurd listed unlisted⟩
  · cases called

/-! ### A poll that finds its resource gone -/

/-- A client with a heartbeat. -/
def heartbeat : ClientSettings := { connectionHeartbeatSeconds := 60 }

/-- The state such a client is in after these steps. -/
def afterSteps (ls : List ClientLabel) : Client := ((client heartbeat).exec {} ls).getD {}

/-- A task of its own rediscovers. -/
def rediscovered : List ClientLabel :=
  [.run, .call (.other 0), .answer (.other 0), .answer (.other 0), .answer (.other 0),
    .answer (.other 0)]

/-- It leaves the heartbeat scheduled. -/
theorem rediscovered_armed :
    (afterSteps rediscovered).owner = none ∧ (afterSteps rediscovered).Armed heartbeat := by
  refine ⟨rfl, (@rearmed_iff heartbeat (afterSteps (rediscovered.take 1))
    (afterSteps (rediscovered.take 2)) (afterSteps (rediscovered.take 5)) _ (.other 0)
    (.answer (.other 0)) (run_of_exec [.run] rfl) rfl rfl ?_ rfl (by decide)).mpr (by decide)⟩
  exact .step (.answer (.other 0)) (.step (.answer (.other 0)) (.step (.answer (.other 0)) (.refl _)
    rfl rfl) rfl rfl) rfl rfl

/-- The heartbeat itself does, as a poll that finds its resource gone. -/
def rediscoveredByPoll : List ClientLabel := [.run, .call (.poll 0), .answer (.poll 0)]

/-- Its call has ended with the lock free, and the scheduler is shut down. -/
theorem rediscoveredByPoll_unarmed :
    (client heartbeat).Run Free {} (afterSteps rediscoveredByPoll) ∧
      (afterSteps (rediscoveredByPoll.take 1)).Armed heartbeat ∧
      (afterSteps (rediscoveredByPoll.take 1)).owner = none ∧
      (afterSteps (rediscoveredByPoll.take 2)).owner = some (.poll 0) ∧
      (afterSteps rediscoveredByPoll).owner = none ∧
      (afterSteps rediscoveredByPoll).current.shutdown = true ∧
      ¬ (afterSteps rediscoveredByPoll).Armed heartbeat := by
  refine ⟨run_of_exec rediscoveredByPoll rfl, ⟨rfl, fun key rate listed => ?_⟩, rfl, rfl, rfl, rfl,
    fun armed => by cases armed.1⟩
  obtain ⟨rfl, rfl⟩ : key = .connectivity ∧ rate = 60 := by
    simpa using (show (key, rate) ∈ [(PollKey.connectivity, (60 : Int))] from listed)
  exact ⟨.poll 0, rfl, by decide⟩

end Py20305
