import Py20305.Client.Armed

/-!
Control notifications and rediscovery.

A control notification that comes in while a rediscovery runs is dropped, for the
rediscovery gets the controls of every program before it gives the lock back. It gets
them once in a pass; a notification that comes in after that GET is lost
(`lateNotified_lost`). One that finds the lock free, or comes in before the GET, or
while another pass is still to come, is followed by a GET of its resource
(`notification_refetched`).
-/

namespace Py20305

open Machine

/-! ### What is still to be fetched -/

/-- One of the programs has the resource as its control list or its default. -/
def Linked (programs : List KnownProgram) (resource : Href) : Prop :=
  ∃ program ∈ programs, extractHref program.2.defaultDercontrolLink = some resource ∨
    extractHref program.2.dercontrolListLink = some resource

/-- The GET of the resource is still to come in the pass. -/
def Stage.Before (resource : Href) : Stage → Prop
  | .dderc program rest | .curves program rest =>
      extractHref program.2.dercontrolListLink = some resource ∨ Linked rest resource
  | .derc _ rest => Linked rest resource
  | .processing _ | .listening => False
  | _ => True

/-- It is one of the GETs of a refresh. -/
def Stage.IsFetch : Stage → Prop
  | .dderc .. | .curves .. | .derc .. => True
  | _ => False

/-- The controls are refreshed next. -/
def Stage.EntersRefresh : Stage → Prop
  | .refreshingPrograms | .subscribing => True
  | _ => False

/-- Some notification was followed by no GET. -/
def Unanswered (resource : Href) (log : List ClientEvent) : Prop :=
  ∃ pre post, log = pre ++ .received resource :: post ∧ .get resource ∉ post

theorem unanswered_append {resource : Href} {log more : List ClientEvent}
    (unanswered : Unanswered resource (log ++ more)) :
    .received resource ∈ more ∨ Unanswered resource log ∧ .get resource ∉ more := by
  obtain ⟨pre, post, same, absent⟩ := unanswered
  obtain ⟨_, -, rfl⟩ | ⟨between, rfl, rest⟩ := List.append_eq_append_iff.mp same
  · exact .inl (by simp)
  · cases between with
    | nil =>
        obtain rfl : .received resource :: post = more := rest
        exact .inl List.mem_cons_self
    | cons e between =>
        rw [List.cons_append] at rest
        obtain ⟨rfl, rfl⟩ := List.cons.inj rest
        rw [List.mem_append, not_or] at absent
        exact .inr ⟨⟨pre, between, rfl, absent.1⟩, absent.2⟩

namespace Client

variable {settings : ClientSettings} {c d : Client} {p : TaskId} {activity : Activity}
  {resource : Href}

/-- The task waits on, and either the GET has gone out or it is still to come. -/
def Fetches (c : Client) (p : TaskId) (activity : Activity) (resource : Href) (d : Client) : Prop :=
  ∃ more stage, Gets more ∧ stage.IsFetch ∧
    d = { c with log := c.log ++ more }.wait p activity stage ∧
    (.get resource ∈ more ∨ stage.Before resource)

theorem fetches_getDerc {program : KnownProgram} {rest : List KnownProgram} {next : Client}
    (ahead : extractHref program.2.dercontrolListLink = some resource ∨ Linked rest resource)
    (later : Linked rest resource → Fetches c p activity resource next) :
    Fetches c p activity resource (c.getDerc p activity program rest next) := by
  unfold Client.getDerc
  split
  · rename_i href link
    refine ⟨[.get href], .derc program rest, .one href, trivial, rfl, ahead.imp (fun own => ?_) id⟩
    rw [link] at own
    simp [Option.some.inj own]
  · rename_i link
    rw [link] at ahead
    exact later (ahead.resolve_left (by simp))

theorem fetches_getCurves {program : KnownProgram} {rest : List KnownProgram} {next : Client}
    (ahead : extractHref program.2.dercontrolListLink = some resource ∨ Linked rest resource)
    (later : Linked rest resource → Fetches c p activity resource next) :
    Fetches c p activity resource (c.getCurves p activity program rest next) := by
  unfold Client.getCurves
  split
  · exact ⟨_, .curves program rest, .one _, trivial, rfl, .inr ahead⟩
  · exact fetches_getDerc ahead later

theorem fetches_refreshControls (programs : List KnownProgram) (listed : Linked programs resource) :
    Fetches c p activity resource (c.refreshControls settings p activity programs) := by
  induction programs with
  | nil =>
      obtain ⟨_, member, -⟩ := listed
      cases member
  | cons program rest ih =>
      -- The program is this one, by its default or its controls, or a later one.
      have ahead : extractHref program.2.defaultDercontrolLink = some resource ∨
          extractHref program.2.dercontrolListLink = some resource ∨ Linked rest resource := by
        obtain ⟨found, member, link⟩ := listed
        obtain rfl | member := List.mem_cons.mp member
        · exact link.imp_right .inl
        · exact .inr (.inr ⟨found, member, link⟩)
      simp only [Client.refreshControls]
      split
      · rename_i href link
        refine ⟨[.get href], .dderc program rest, .one href, trivial, rfl, ?_⟩
        refine ahead.imp (fun own => ?_) id
        rw [link] at own
        simp [Option.some.inj own]
      · rename_i link
        rw [link] at ahead
        exact fetches_getCurves (ahead.resolve_left (by simp)) ih

/-! ### The pass that holds the lock -/

/-- The task holds the lock, and its pass has the GET still to come, or another pass has. -/
def Ahead (c : Client) (p : TaskId) (resource : Href) : Prop :=
  c.owner = some p ∧ ∃ passes stage, c.tasks p = some (.waiting (.rediscovery passes) stage) ∧
    (stage.Before resource ∨ c.pending = true ∧ passes < maxRediscoveryPasses)

theorem rebuild_before (c : Client) (p : TaskId) (passes : Nat) (resource : Href) :
    (c.rebuild p passes).owner = c.owner ∧ (c.rebuild p passes).log = c.log ∧
      ∃ stage, (c.rebuild p passes).tasks p = some (.waiting (.rediscovery passes) stage) ∧
        stage.Before resource := by
  simp only [Client.rebuild]
  split
  · exact ⟨rfl, rfl, .renewal, Function.update_self .., trivial⟩
  · exact ⟨rfl, rfl, .discovering, Function.update_self .., trivial⟩

theorem beginPass_before (c : Client) (p : TaskId) (passes : Nat) (resource : Href) :
    (c.beginPass p passes).owner = c.owner ∧ (c.beginPass p passes).log = c.log ∧
      ∃ stage, (c.beginPass p passes).tasks p = some (.waiting (.rediscovery passes) stage) ∧
        stage.Before resource := by
  simp only [Client.beginPass]
  split
  · exact rebuild_before _ p passes resource
  · exact ⟨rfl, rfl, .cancelling, Function.update_self .., trivial⟩

/-- A pass that has the GET still to come goes on: it sends it, or has it still to come. -/
theorem answered_before {passes : Nat} {stage : Stage} (before : stage.Before resource)
    (known : stage.EntersRefresh → Linked c.known.programs resource)
    (answered : c.answered settings p (.rediscovery passes) stage = some d) :
    d.owner = c.owner ∧ ∃ more stage', Gets more ∧ d.log = c.log ++ more ∧
      d.tasks p = some (.waiting (.rediscovery passes) stage') ∧
      (.get resource ∈ more ∨ stage'.Before resource) := by
  have of_fetches : Fetches c p (.rediscovery passes) resource d → d.owner = c.owner ∧
      ∃ more stage', Gets more ∧ d.log = c.log ++ more ∧
        d.tasks p = some (.waiting (.rediscovery passes) stage') ∧
        (.get resource ∈ more ∨ stage'.Before resource) := by
    rintro ⟨more, stage', gets, -, rfl, fetched⟩
    exact ⟨rfl, more, stage', gets, rfl, Function.update_self .., fetched⟩
  cases stage with
  | cancelling =>
      obtain rfl := Option.some.inj answered
      obtain ⟨owner, log, stage', waits, before'⟩ := rebuild_before
        (c.setCurrent { c.current with polls := Dict.empty }) p passes resource
      exact ⟨owner, [], stage', .nil, by rw [log, List.append_nil]; rfl, waits, .inr before'⟩
  | renewal =>
      obtain rfl := Option.some.inj answered
      exact ⟨rfl, [], .discovering, .nil, (List.append_nil _).symm, Function.update_self ..,
        .inr trivial⟩
  | discovering =>
      obtain rfl := Option.some.inj answered
      refine ⟨rfl, [], _, .nil, (List.append_nil _).symm, Function.update_self .., .inr ?_⟩
      split <;> trivial
  | reconciling =>
      obtain rfl := Option.some.inj answered
      exact ⟨rfl, [], .refreshingFsas, .nil, (List.append_nil _).symm, Function.update_self ..,
        .inr trivial⟩
  | refreshingFsas =>
      obtain rfl := Option.some.inj answered
      exact ⟨rfl, [], .refreshingPrograms, .nil, (List.append_nil _).symm, Function.update_self ..,
        .inr trivial⟩
  | refreshingPrograms =>
      simp only [Client.answered] at answered
      split at answered
      · obtain rfl := Option.some.inj answered
        exact ⟨rfl, [], .subscribing, .nil, (List.append_nil _).symm, Function.update_self ..,
          .inr trivial⟩
      · obtain rfl := Option.some.inj answered
        exact of_fetches (fetches_refreshControls _ (known trivial))
  | subscribing =>
      obtain rfl := Option.some.inj answered
      exact of_fetches (fetches_refreshControls _ (known trivial))
  | dderc program rest =>
      obtain rfl := Option.some.inj answered
      exact of_fetches (fetches_getCurves before (fetches_refreshControls rest))
  | curves program rest =>
      obtain rfl := Option.some.inj answered
      exact of_fetches (fetches_getDerc before (fetches_refreshControls rest))
  | derc program rest =>
      obtain rfl := Option.some.inj answered
      exact of_fetches (fetches_refreshControls rest before)
  | processing rest => exact before.elim
  | listening => exact before.elim

/-- A pass only GETs. -/
theorem Goes.log {passes : Nat} {stage : Stage} (goes : Goes settings c p passes stage d) :
    ∃ more, Gets more ∧ d.log = c.log ++ more := by
  cases goes with
  | rebuild =>
      refine ⟨[], .nil, ?_⟩
      rw [(rebuild_before _ p passes "").2.1, List.append_nil]
      rfl
  | discover => exact ⟨[], .nil, (List.append_nil _).symm⟩
  | walk renewing stage' more walks walks' gets => exact ⟨more, gets, rfl⟩
  | go renewing stage' walks walks' => exact ⟨[], .nil, (List.append_nil _).symm⟩
  | done walks =>
      refine ⟨[], .nil, ?_⟩
      have scheduled := (scheduled_startPolls settings c).log
      simp only [Client.finishPass]
      generalize c.startPolls settings = e at scheduled ⊢
      rw [List.append_nil, ← scheduled]
      split
      · exact (beginPass_before e p (passes + 1) "").2.1
      · split <;> rfl
  | ended => exact ⟨[], .nil, (List.append_nil _).symm⟩

/-- A pass after which another one is to come. -/
theorem Goes.again {passes : Nat} {stage : Stage} (goes : Goes settings c p passes stage d)
    (busy : stage ≠ .listening) (owner : c.owner = some p) (asked : c.pending = true)
    (left : passes < maxRediscoveryPasses) : d.Ahead p resource := by
  cases goes with
  | rebuild =>
      obtain ⟨owner', -, stage', waits, before⟩ := rebuild_before
        (c.setCurrent { c.current with polls := Dict.empty }) p passes resource
      exact ⟨owner'.trans owner, passes, stage', waits, .inl before⟩
  | discover => exact ⟨owner, passes, .discovering, Function.update_self .., .inl trivial⟩
  | walk renewing stage' more walks walks' gets =>
      exact ⟨owner, passes, stage', Function.update_self .., .inr ⟨asked, left⟩⟩
  | go renewing stage' walks walks' =>
      exact ⟨owner, passes, stage', Function.update_self .., .inr ⟨asked, left⟩⟩
  | done walks =>
      have scheduled := (scheduled_startPolls settings c).owner
      simp only [Client.finishPass, asked, left, and_self, if_true]
      generalize c.startPolls settings = e at scheduled ⊢
      obtain ⟨owner', -, stage', waits, before⟩ := beginPass_before e p (passes + 1) resource
      exact ⟨owner'.trans (scheduled.trans owner), passes + 1, stage', waits, .inl before⟩
  | ended => exact absurd rfl busy

/-- A rediscovery that started with the log `base`: whoever's notification has not been
followed by a GET, the GET is still to come. -/
def Watched (resource : Href) (base : List ClientEvent) (p : TaskId) (c : Client) : Prop :=
  (∃ passes stage, c.Rebuilding p passes stage) ∧
    ∃ seg, c.log = base ++ seg ∧ (Unanswered resource seg → c.Ahead p resource)

/-- No request of the rediscovery in `p` fails, the resource is one of a known program's
whenever the controls are refreshed, and a notification of it comes in before the GET or
while another pass is to come. -/
structure Timely (resource : Href) (p : TaskId) (c : Client) (l : ClientLabel) (d : Client) :
    Prop where
  held : d.owner = some p
  succeeds : l ≠ .fail p
  known : l = .answer p → ∀ passes stage, c.tasks p = some (.waiting (.rediscovery passes) stage) →
    stage.EntersRefresh → Linked c.known.programs resource
  early : ∀ n, l = .notify n resource → c.Ahead p resource

theorem Ahead.aside {l : ClientLabel} (ahead : c.Ahead p resource) (aside : Aside p l c d) :
    d.Ahead p resource := by
  obtain ⟨owner, passes, stage, waits, come⟩ := ahead
  refine ⟨aside.owner.trans owner, passes, stage, aside.task.trans waits, ?_⟩
  exact come.imp_right fun asked => ⟨aside.pending asked.1, asked.2⟩

/-- An answer in the pass: the GET goes out, or is still to come. -/
theorem Ahead.answered {passes : Nat} {stage : Stage} (pass : c.InPass p passes stage)
    (known : stage.EntersRefresh → Linked c.known.programs resource)
    (answered : c.answered settings p (.rediscovery passes) stage = some d)
    (ahead : c.Ahead p resource) :
    d.owner = some p ∧ ∃ more, Gets more ∧ d.log = c.log ++ more ∧
      (.get resource ∈ more ∨ d.Ahead p resource) := by
  obtain ⟨owner, passes', stage', waits, before | ⟨asked, left⟩⟩ := ahead
  · rw [pass.waits] at waits
    obtain ⟨same, rfl⟩ := TaskState.waiting.inj (Option.some.inj waits)
    obtain ⟨owner', more, stage'', gets, log, waits', fetched⟩ :=
      answered_before before known answered
    refine ⟨owner'.trans owner, more, gets, log, fetched.imp_right fun later => ?_⟩
    exact ⟨owner'.trans owner, passes, stage'', waits', .inl later⟩
  · rw [pass.waits] at waits
    obtain ⟨same, rfl⟩ := TaskState.waiting.inj (Option.some.inj waits)
    obtain rfl := Activity.rediscovery.inj same
    have goes := goes_of_answered answered
    obtain ⟨more, gets, log⟩ := goes.log
    have again : d.Ahead p resource := goes.again pass.busy owner asked left
    exact ⟨again.1, more, gets, log, .inr again⟩

theorem not_received_of_gets {more : List ClientEvent} (gets : Gets more) :
    .received resource ∉ more := by
  intro listed
  obtain ⟨href, same⟩ := gets _ listed
  cases same

theorem Watched.step {base : List ClientEvent} {l : ClientLabel}
    (watched : Watched resource base p c) (timely : Timely resource p c l d)
    (stepped : clientStep settings l c = some d) : Watched resource base p d := by
  obtain ⟨⟨passes, stage, rebuilding⟩, seg, log, due⟩ := watched
  refine ⟨(rebuilding.step stepped).resolve_right fun left => ?_, ?_⟩
  · have held := timely.held
    rw [left.1] at held
    cases held
  obtain ⟨-, gone, -⟩ | ⟨rfl, -, answered⟩ | ⟨rfl, -, -⟩ | aside :=
    rebuilding.toInPass.own_or_aside stepped
  · exact absurd gone rebuilding.spared
  · obtain ⟨more, gets, log'⟩ := (goes_of_answered answered).log
    refine ⟨seg ++ more, by rw [log', log, List.append_assoc], fun unanswered => ?_⟩
    obtain heard | ⟨earlier, unsent⟩ := unanswered_append unanswered
    · exact absurd heard (not_received_of_gets gets)
    · obtain ⟨-, more', -, same, fetched⟩ := Ahead.answered rebuilding.toInPass
        (timely.known rfl passes stage rebuilding.waits) answered (due earlier)
      obtain rfl := List.append_cancel_left (log'.symm.trans same)
      exact fetched.resolve_left unsent
  · exact absurd rfl timely.succeeds
  · obtain ⟨more, log', heard⟩ := aside.log
    refine ⟨seg ++ more, by rw [log', log, List.append_assoc], fun unanswered => ?_⟩
    obtain received | ⟨earlier, -⟩ := unanswered_append unanswered
    · obtain ⟨n, same⟩ := heard resource received
      exact (timely.early n same).aside aside
    · exact (due earlier).aside aside

/-- The lock is given back: every notification has been followed by a GET. -/
theorem Watched.released {base : List ClientEvent} (watched : Watched resource base p c)
    (known : ∀ passes stage, c.tasks p = some (.waiting (.rediscovery passes) stage) →
      stage.EntersRefresh → Linked c.known.programs resource)
    (stepped : clientStep settings (.answer p) c = some d) (released : d.owner ≠ some p) :
    ∃ seg, d.log = base ++ seg ∧ ¬ Unanswered resource seg := by
  obtain ⟨⟨passes, stage, rebuilding⟩, seg, log, due⟩ := watched
  obtain ⟨-, gone, -⟩ | ⟨-, -, answered⟩ | ⟨failed, -, -⟩ | aside :=
    rebuilding.toInPass.own_or_aside stepped
  · exact absurd gone rebuilding.spared
  · obtain ⟨more, gets, log'⟩ := (goes_of_answered answered).log
    refine ⟨seg ++ more, by rw [log', log, List.append_assoc], fun unanswered => ?_⟩
    obtain heard | ⟨earlier, -⟩ := unanswered_append unanswered
    · exact not_received_of_gets gets heard
    · exact released (Ahead.answered rebuilding.toInPass (known passes stage rebuilding.waits)
        answered (due earlier)).1
  · cases failed
  · exact absurd (aside.owner.trans rebuilding.owner) released

/-! ### The handler of a notification -/

/-- Only the task `p` goes on, and the log grows. -/
structure Touches (p : TaskId) (c d : Client) : Prop where
  tasks : ∀ q, q ≠ p → d.tasks q = c.tasks q
  log : ∃ more, d.log = c.log ++ more

theorem Touches.of_update {state : TaskState} {more : List ClientEvent}
    (tasks : d.tasks = Function.update c.tasks p (some state)) (log : d.log = c.log ++ more) :
    Touches p c d := by
  refine ⟨fun q other => ?_, more, log⟩
  rw [tasks, Function.update_of_ne other]

theorem touches_rebuild (c : Client) (p : TaskId) (passes : Nat) :
    Touches p c (c.rebuild p passes) := by
  simp only [Client.rebuild]
  split
  · exact .of_update rfl (List.append_nil _).symm
  · exact .of_update rfl (List.append_nil _).symm

theorem touches_beginPass (c : Client) (p : TaskId) (passes : Nat) :
    Touches p c (c.beginPass p passes) := by
  simp only [Client.beginPass]
  split
  · obtain ⟨tasks, log⟩ := touches_rebuild
      { c.setCurrent { c.current with shutdown := true } with pending := false } p passes
    exact ⟨tasks, log⟩
  · exact .of_update rfl (List.append_nil _).symm

theorem touches_startPolls (c : Client) (p : TaskId) : Touches p c (c.startPolls settings) := by
  have scheduled := scheduled_startPolls settings c
  exact ⟨fun q _ => congrFun scheduled.tasks q, [], by rw [scheduled.log, List.append_nil]⟩

theorem Touches.trans {e : Client} (first : Touches p c d) (second : Touches p d e) :
    Touches p c e := by
  obtain ⟨more, log⟩ := first.log
  obtain ⟨more', log'⟩ := second.log
  exact ⟨fun q other => (second.tasks q other).trans (first.tasks q other), more ++ more',
    by rw [log', log, List.append_assoc]⟩

theorem touches_finishPass (c : Client) (p : TaskId) (passes : Nat) :
    Touches p c (c.finishPass settings p passes) := by
  have started : Touches p c (c.startPolls settings) := touches_startPolls c p
  simp only [Client.finishPass]
  generalize c.startPolls settings = e at started ⊢
  refine started.trans ?_
  split
  · exact touches_beginPass e p (passes + 1)
  · split
    · exact .of_update rfl (List.append_nil _).symm
    · exact .of_update rfl (List.append_nil _).symm

theorem touches_failPass (c : Client) (p : TaskId) : Touches p c (c.failPass settings p) := by
  have started : Touches p c (c.startPolls settings) := touches_startPolls c p
  simp only [Client.failPass]
  generalize c.startPolls settings = e at started ⊢
  exact started.trans (.of_update rfl (List.append_nil _).symm)

theorem touches_finish (c : Client) (p : TaskId) (how : Ending) : Touches p c (c.finish p how) :=
  .of_update rfl (List.append_nil _).symm

theorem Goes.touches {passes : Nat} {stage : Stage} (goes : Goes settings c p passes stage d) :
    Touches p c d := by
  cases goes with
  | rebuild =>
      obtain ⟨tasks, log⟩ := touches_rebuild
        (c.setCurrent { c.current with polls := Dict.empty }) p passes
      exact ⟨tasks, log⟩
  | discover => exact .of_update rfl (List.append_nil _).symm
  | walk renewing stage' more walks walks' gets => exact .of_update rfl rfl
  | go renewing stage' walks walks' => exact .of_update rfl (List.append_nil _).symm
  | done walks => exact touches_finishPass c p passes
  | ended => exact touches_finish c p _

theorem Serves.touches (serves : Serves c p d) : Touches p c d := by
  cases serves with
  | get program stage more gets => exact .of_update rfl rfl
  | wait program stage => exact .of_update rfl (List.append_nil _).symm
  | done how => exact touches_finish c p how

theorem touches_interrupted (c : Client) (p : TaskId) (activity : Activity) (stage : Stage) :
    Touches p c (c.interrupted p activity stage) := by
  unfold Client.interrupted
  split
  · exact .of_update rfl (List.append_nil _).symm
  · split
    · exact .of_update rfl (List.append_nil _).symm
    · exact touches_finish c p _

theorem touches_raised {stage : Stage} (raised : c.raised settings p activity stage = some d) :
    Touches p c d := by
  unfold Client.raised at raised
  split at raised
  · cases raised
  · cases raised
  · obtain rfl := Option.some.inj raised
    exact touches_finish c p _
  · obtain rfl := Option.some.inj raised
    exact touches_failPass c p
  · obtain rfl := Option.some.inj raised
    exact touches_finish c p _

theorem touches_routeNotification (c : Client) (p : TaskId) (resource : Href) :
    Touches p c (c.routeNotification settings p resource) := by
  simp only [Client.routeNotification]
  split
  · exact .of_update rfl rfl
  · split
    · have heard : Touches p c { c with log := c.log ++ [.received resource] } :=
        ⟨fun _ _ => rfl, _, rfl⟩
      exact heard.trans (serves_refreshControls p _ _).touches
    · exact .of_update rfl rfl

/-- The log grows, and a task that waits is left waiting by the steps of others. -/
theorem step_touches (l : ClientLabel) (stepped : clientStep settings l c = some d) :
    (∃ more, d.log = c.log ++ more) ∧
      ∀ q activity stage, c.tasks q = some (.waiting activity stage) → l ≠ .answer q →
        l ≠ .fail q → d.tasks q = c.tasks q := by
  cases l with
  | run =>
      obtain rfl := Option.some.inj stepped
      have scheduled := scheduled_startPolls settings c
      refine ⟨⟨[], by rw [scheduled.log, List.append_nil]⟩, fun q _ _ _ _ _ => ?_⟩
      exact congrFun scheduled.tasks q
  | call p =>
      simp only [clientStep] at stepped
      split at stepped
      · rename_i can
        obtain rfl := Option.some.inj stepped
        have touches : Touches p c (c.triggerRediscovery p) := by
          unfold Client.triggerRediscovery
          split
          · exact .of_update rfl (List.append_nil _).symm
          · obtain ⟨tasks, log⟩ := touches_beginPass { c with owner := some p } p 1
            exact ⟨tasks, log⟩
        exact ⟨touches.log, fun q _ _ waits _ _ => touches.tasks q (ne_of_canCall waits can).symm⟩
      · cases stepped
  | duplicate =>
      obtain rfl := Option.some.inj stepped
      split
      · exact ⟨⟨[], (List.append_nil _).symm⟩, fun _ _ _ _ _ _ => rfl⟩
      · exact ⟨⟨[], (List.append_nil _).symm⟩, fun _ _ _ _ _ _ => rfl⟩
  | notify n resource =>
      simp only [clientStep] at stepped
      split at stepped
      · rename_i can
        obtain rfl := Option.some.inj stepped
        have touches : Touches (.other n) c (c.routeNotification settings (.other n) resource) :=
          touches_routeNotification c (.other n) resource
        exact ⟨touches.log, fun q _ _ waits _ _ => touches.tasks q (ne_of_canCall waits can).symm⟩
      · cases stepped
  | answer p =>
      have touches : Touches p c d := by
        simp only [clientStep] at stepped
        split at stepped
        · rename_i activity stage waits
          split at stepped
          · obtain rfl := Option.some.inj stepped
            exact touches_interrupted c p activity stage
          · cases activity with
            | rediscovery passes => exact (goes_of_answered stepped).touches
            | notification program => exact (serves_of_answered stepped).touches
        · cases stepped
      refine ⟨touches.log, fun q _ _ _ other _ => touches.tasks q ?_⟩
      rintro rfl
      exact other rfl
  | fail p =>
      have touches : Touches p c d := by
        simp only [clientStep] at stepped
        split at stepped
        · split at stepped
          · cases stepped
          · exact touches_raised stepped
        · cases stepped
      refine ⟨touches.log, fun q _ _ _ _ other => touches.tasks q ?_⟩
      rintro rfl
      exact other rfl
  | update known =>
      obtain rfl := Option.some.inj stepped
      exact ⟨⟨[], (List.append_nil _).symm⟩, fun _ _ _ _ _ _ => rfl⟩

/-- The GET of the resource has gone out since `base`, or the handler has it to send. -/
def Served (resource : Href) (base : List ClientEvent) (n : Nat) (c : Client) : Prop :=
  ∃ more, c.log = base ++ more ∧ (.get resource ∈ more ∨ ∃ program stage,
    c.tasks (.other n) = some (.waiting (.notification program) stage) ∧ stage.IsFetch ∧
      stage.Before resource)

/-- An answer to the handler. -/
theorem fetches_of_answered {program : Option Href} {stage : Stage} (fetch : stage.IsFetch)
    (before : stage.Before resource)
    (answered : c.answered settings p (.notification program) stage = some d) :
    Fetches c p (.notification program) resource d := by
  cases stage with
  | cancelling | renewal | discovering | reconciling | refreshingFsas | refreshingPrograms |
    subscribing | processing | listening => exact fetch.elim
  | dderc prog rest =>
      obtain rfl := Option.some.inj answered
      exact fetches_getCurves before (fetches_refreshControls rest)
  | curves prog rest =>
      obtain rfl := Option.some.inj answered
      exact fetches_getDerc before (fetches_refreshControls rest)
  | derc prog rest =>
      obtain rfl := Option.some.inj answered
      exact fetches_refreshControls rest before

theorem Fetches.served {n : Nat} {program : Option Href} {base more : List ClientEvent}
    (log : c.log = base ++ more) (fetches : Fetches c (.other n) (.notification program) resource d) :
    Served resource base n d := by
  obtain ⟨more', stage, -, fetch, rfl, fetched⟩ := fetches
  refine ⟨more ++ more', by rw [← List.append_assoc, ← log]; rfl, ?_⟩
  obtain sent | before := fetched
  · exact .inl (List.mem_append_right _ sent)
  · exact .inr ⟨program, stage, Function.update_self .., fetch, before⟩

theorem Served.step {base : List ClientEvent} {n : Nat} {l : ClientLabel}
    (formed : c.WellFormed) (succeeds : l ≠ .fail (.other n))
    (served : Served resource base n c) (stepped : clientStep settings l c = some d) :
    Served resource base n d := by
  obtain ⟨more, log, fetched⟩ := served
  obtain ⟨⟨more', log'⟩, frame⟩ := step_touches l stepped
  obtain sent | ⟨program, stage, waits, fetch, before⟩ := fetched
  · exact ⟨more ++ more', by rw [log', log, List.append_assoc], .inl (List.mem_append_left _ sent)⟩
  · by_cases own : l = .answer (.other n)
    · subst own
      have kept : TaskId.other n ∉ c.cancelled := by
        intro gone
        obtain ⟨m, -, same⟩ := formed.cancelled _ gone
        cases same
      simp only [clientStep, waits, kept, if_false] at stepped
      exact (fetches_of_answered fetch before stepped).served log
    · refine ⟨more ++ more', by rw [log', log, List.append_assoc], .inr ⟨program, stage, ?_, fetch,
        before⟩⟩
      rw [frame _ _ _ waits own succeeds, waits]

/-- A notification that finds the lock free. -/
theorem served_of_notify {n : Nat} (free : c.owner = none)
    (known : (c.known.findProgram resource).isSome = true)
    (heard : clientStep settings (.notify n resource) c = some d) :
    Served resource (c.log ++ [.received resource]) n d := by
  obtain ⟨program, found⟩ := Option.isSome_iff_exists.mp known
  have listed : Linked [program] resource := by
    have link := List.find?_some found
    simp only [decide_eq_true_eq] at link
    exact ⟨program, List.mem_cons_self, link.symm⟩
  simp only [clientStep] at heard
  split at heard
  · simp only [routeNotification, free, Option.isSome_none, Bool.false_eq_true, if_false, found,
      Option.some.injEq] at heard
    subst heard
    exact (fetches_refreshControls [program] listed).served (List.append_nil _).symm
  · cases heard

/-- A rediscovery that is not made by one of the polls it cancels. -/
theorem watched_of_call (formed : c.WellFormed) (free : c.owner = none)
    (apart : p ∉ c.current.tasks) (called : clientStep settings (.call p) c = some d) :
    Watched resource c.log p d := by
  simp only [clientStep] at called
  split at called
  · rename_i can
    simp only [triggerRediscovery, free, Option.isSome_none, Bool.false_eq_true, if_false,
      Option.some.injEq] at called
    subst called
    obtain ⟨-, stage, begun⟩ | ⟨listed, -⟩ := called_cases 1 formed free can
    · refine ⟨⟨1, stage, begun⟩, [], ?_, ?_⟩
      · rw [(beginPass_before _ p 1 resource).2.1, List.append_nil]
      · rintro ⟨pre, post, same, -⟩
        simp at same
    · exact absurd listed apart
  · cases called

end Client

open Client

/-- A control notification whose program stays known, and the GET of its resource.

Where it finds no rediscovery running, the GET has gone out once its handler is through.
Where it finds one, which is not made by one of the polls it cancels, and comes in before
the GET of the pass or while another pass is to come, the GET has gone out when the
rediscovery gives the lock back. -/
theorem notification_refetched {settings : ClientSettings} {c₀ : Client} (resource : Href)
    (reached : (client settings).Run Free {} c₀) (free : c₀.owner = none) :
    (∀ n c₁ c, (c₀.known.findProgram resource).isSome = true →
      (client settings).step (.notify n resource) c₀ = some c₁ →
      (client settings).Run (fun _ l _ => l ≠ .fail (.other n)) c₁ c →
      (∀ activity stage, c.tasks (.other n) ≠ some (.waiting activity stage)) →
      ∃ more, c.log = c₀.log ++ .received resource :: more ∧ .get resource ∈ more) ∧
    ∀ p c₁ c d, p ∉ c₀.current.tasks → (client settings).step (.call p) c₀ = some c₁ →
      (client settings).Run (Timely resource p) c₁ c →
      (∀ passes stage, c.tasks p = some (.waiting (.rediscovery passes) stage) →
        stage.EntersRefresh → Linked c.known.programs resource) →
      (client settings).step (.answer p) c = some d → d.owner ≠ some p →
      ∃ seg, d.log = c₀.log ++ seg ∧
        ∀ pre post, seg = pre ++ .received resource :: post → .get resource ∈ post := by
  have formed := wellFormed_of_run reached
  refine ⟨fun n c₁ c known heard run done => ?_, fun p c₁ c d apart called run known stepped out => ?_⟩
  · have first := served_of_notify free known heard
    have formed₁ : c₁.WellFormed := wellFormed_step (.notify n resource) heard formed
    have kept : c.WellFormed ∧ Served resource (c₀.log ++ [.received resource]) n c := by
      refine Run.keeps (P := fun (c : Client) =>
        c.WellFormed ∧ Served resource (c₀.log ++ [.received resource]) n c)
        (fun l t u stepped succeeds ⟨formed, served⟩ => ?_) run ⟨formed₁, first⟩
      exact ⟨wellFormed_step l stepped formed, served.step formed succeeds stepped⟩
    obtain ⟨more, log, sent | ⟨program, stage, waits, -⟩⟩ := kept.2
    · exact ⟨more, by rw [log, List.append_assoc]; rfl, sent⟩
    · exact absurd waits (done _ _)
  · have begun : clientStep settings (.call p) c₀ = some c₁ := called
    have watched : Watched resource c₀.log p c := by
      refine Run.keeps (P := Watched resource c₀.log p) (fun l t u stepped timely watched => ?_) run
        (watched_of_call formed free apart begun)
      exact watched.step timely stepped
    obtain ⟨seg, log, answered⟩ := watched.released known stepped out
    refine ⟨seg, log, fun pre post same => ?_⟩
    by_contra unsent
    exact answered ⟨pre, post, same, unsent⟩

/-! ### A notification before the GET, and one after -/

/-- A server with one program. -/
def oneProgram : Known where
  programs := [("/derp/1", ⟨some 1, none, some "/derp/1/derc", none⟩)]

/-- The program is known, and a rediscovery has walked the server. -/
def walked : List ClientLabel :=
  [.update oneProgram, .call (.other 0), .update oneProgram, .answer (.other 0),
    .answer (.other 0)]

/-- A notification comes in before the GET. -/
def earlyNotified : List ClientLabel :=
  walked ++ [.notify 1 "/derp/1/derc", .answer (.other 0), .answer (.other 0), .answer (.other 0)]

theorem linked_oneProgram : Linked oneProgram.programs "/derp/1/derc" :=
  ⟨_, List.mem_cons_self, .inr rfl⟩

theorem earlyNotified_timely : (client heartbeat).Run (Timely "/derp/1/derc" (.other 0))
    (afterSteps (earlyNotified.take 2)) (afterSteps (earlyNotified.take 8)) := by
  have timely : ∀ {c d : Client} {l : ClientLabel} {stage : Stage},
      c.owner = some (.other 0) → c.tasks (.other 0) = some (.waiting (.rediscovery 1) stage) →
      d.owner = some (.other 0) → l ≠ .fail (.other 0) →
      (stage.EntersRefresh → Linked c.known.programs "/derp/1/derc") →
      ((∃ n, l = .notify n "/derp/1/derc") → stage.Before "/derp/1/derc") →
      Timely "/derp/1/derc" (.other 0) c l d := by
    intro c d l stage owner waits held succeeds known early
    refine ⟨held, succeeds, fun _ passes stage' waits' enters => ?_, fun n same => ?_⟩
    · rw [waits] at waits'
      obtain ⟨-, rfl⟩ := TaskState.waiting.inj (Option.some.inj waits')
      exact known enters
    · exact ⟨owner, 1, stage, waits, .inl (early ⟨n, same⟩)⟩
  have walks : (client heartbeat).Run (Timely "/derp/1/derc" (.other 0))
      (afterSteps (earlyNotified.take 2)) (afterSteps (earlyNotified.take 5)) :=
    .step (.answer (.other 0)) (.step (.answer (.other 0)) (.step (.update oneProgram) (.refl _) rfl
      (timely rfl rfl rfl (by simp) (fun enters => enters.elim) (by simp))) rfl
      (timely rfl rfl rfl (by simp) (fun enters => enters.elim) (by simp))) rfl
      (timely rfl rfl rfl (by simp) (fun enters => enters.elim) (by simp))
  exact .step (.answer (.other 0)) (.step (.answer (.other 0)) (.step (.notify 1 "/derp/1/derc") walks
    rfl (timely rfl rfl rfl (by simp) (fun _ => linked_oneProgram) (fun _ => trivial))) rfl
    (timely rfl rfl rfl (by simp) (fun _ => linked_oneProgram) (by simp))) rfl
    (timely rfl rfl rfl (by simp) (fun enters => enters.elim) (by simp))

/-- The GET goes out after it; and so it does where no rediscovery runs. -/
theorem earlyNotified_refetched :
    (∃ seg, (afterSteps earlyNotified).log = seg ∧
      ∀ pre post, seg = pre ++ .received "/derp/1/derc" :: post → .get "/derp/1/derc" ∈ post) ∧
    ∃ more, (afterSteps [.update oneProgram, .notify 1 "/derp/1/derc", .answer (.other 1),
        .answer (.other 1)]).log = .received "/derp/1/derc" :: more ∧
      .get "/derp/1/derc" ∈ more := by
  have reached : (client heartbeat).Run Free {} (afterSteps [.update oneProgram]) :=
    run_of_exec [.update oneProgram] rfl
  obtain ⟨handled, rediscovered⟩ := notification_refetched "/derp/1/derc" reached rfl
  constructor
  · refine rediscovered (.other 0) _ _ (afterSteps earlyNotified) (by decide) rfl earlyNotified_timely
      (fun passes stage waits enters => ?_) rfl (by decide)
    obtain ⟨-, rfl⟩ := TaskState.waiting.inj (Option.some.inj waits)
    exact enters.elim
  · refine handled 1 (afterSteps [.update oneProgram, .notify 1 "/derp/1/derc"]) _ rfl rfl
      (run_of_labels [.answer (.other 1), .answer (.other 1)] rfl ?_) ?_
    · simp
    · intro activity stage waits
      cases waits

/-- A notification comes in while the controls are processed. -/
def lateNotified : List ClientLabel :=
  walked ++ [.answer (.other 0), .answer (.other 0), .notify 1 "/derp/1/derc", .answer (.other 0)]

/-- The GET went out before the notification came in and not after, though nothing failed,
the program was known and the lock is free again. -/
theorem lateNotified_lost :
    (client heartbeat).Run (fun _ l _ => ∀ p, l ≠ .fail p) {} (afterSteps lateNotified) ∧
      (afterSteps lateNotified).owner = none ∧
      (afterSteps lateNotified).known.programs = oneProgram.programs ∧
      (afterSteps lateNotified).log = [.get "/derp/1/derc", .received "/derp/1/derc"] := by
  refine ⟨run_of_labels lateNotified rfl fun l listed p => ?_, rfl, rfl, rfl⟩
  simp only [lateNotified, walked, List.cons_append, List.nil_append, List.mem_cons,
    List.not_mem_nil, or_false] at listed
  rintro rfl
  simp at listed

end Py20305
