import Py20305.Events.Masking
import Py20305.Lib.Notes

/-!
What the tracker of defaults records (`_apply_dderc_fallback` and `_apply_initial_dderc` of
`events/processor.py`).

Of every task it is noted which dispatcher calls it made last, in which state, and how they were
answered. A default is recorded for a device where the whole of it was sent and every dispatch
succeeded, in every run in which the initial passes that leave modes out of their default fail for
each device (`recorded_whole`).

The fallback does not record a default that it sent without some of its modes. The initial pass
does, so the device is taken to have a default that it was never sent (`partial_recorded`).
-/

namespace Py20305

open Coroutine Co

/-! ### Notes -/

/-- The dispatcher calls a task made last, the state it made them in, and how they were answered. -/
structure LastCalls where
  made : World
  calls : List Call
  results : Option (Nat → Option DispatchFailure)

/-- The last calls of each task. -/
@[reducible] def sentBook : Notebook ProcSig where
  Note := Option LastCalls
  blank := none
  issues := fun (c : Cmd) (w : World) note =>
    match c with
    | .issue calls => some ⟨w, calls, if calls = [] then some fun _ => none else none⟩
    | _ => note
  gets := fun (r : Request) (a : r.Answer) note =>
    match r, a with
    | .gather _, results => note.map fun sent => { sent with results := some results }
    | _, _ => note

/-- The program has the default. -/
def Core.HasDefault (w : Core) (path : Href) (dderc : DefaultDercontrol) : Prop :=
  ∃ key ps, w.discovered.derPrograms.get? key = some ps ∧ ps.defaultDercontrol = some dderc ∧
    (key = path ∨ ps.href = path)

/-! ### Initial passes -/

namespace Core

variable (w : Core) (p : Href)

/-- The targets of an initial pass that is made now. -/
def passTargets : List (Href × Lfdi) :=
  match w.defaultOf p with
  | none => []
  | some (ps, dderc) => w.initialTargets ps p dderc

/-- The modes of the default that running events hold on what an initial pass reaches. -/
def passWithheld : Finset Mode :=
  match w.defaultOf p with
  | none => ∅
  | some (_, dderc) => getActiveModeNames dderc.base ∩
      w.modesRunningIn (w.reachOf p ((w.passTargets p).map Prod.fst)) w.activeEvents

/-- How many dispatches each target of the program gets. -/
def fanOut : Nat := ((w.groupLocalLfdis p).map List.length).getD 1

end Core

/-! ### Passes over targets -/

/-- A target of a pass: a device with its LFDI, the program whose default it is to have, what is
sent for it, and the calls that send it. -/
structure PassTarget where
  device : Href
  lfdi : Lfdi
  path : Href
  sent : DefaultDercontrol
  calls : List Call

namespace Core

variable (w : Core)

def passTarget (cause : Option Mrid) (d : Href) (lfdi : Lfdi) (path : Href)
    (sent : DefaultDercontrol) : PassTarget :=
  ⟨d, lfdi, path, sent, w.defaultCalls cause d path sent⟩

/-- The targets of the fallback of event `r`, in the order of its plan. -/
def fallbackPass (r : Ref) (plan : FallbackPlan) : List PassTarget :=
  plan.defaults.map fun t =>
    w.passTarget (some (w.record r).mrid) t.device t.lfdi t.program.href t.effective

/-- The targets of an initial pass of the program, in its order. -/
def initialPass (p : Href) : List PassTarget :=
  match w.defaultOf p with
  | none => []
  | some (_, dderc) =>
      let effective :=
        if w.passWithheld p = ∅ then dderc else defaultWithout dderc (w.passWithheld p)
      (w.passTargets p).map fun t => w.passTarget none t.1 t.2 p effective

end Core

/-- A dispatch of defaults: the initial pass of a program, or what the fallback of an event has
planned. -/
inductive Pass where
  | initial (p : Href)
  | fallback (r : Ref) (plan : FallbackPlan)

namespace Pass

def body : Pass → Proc Unit
  | initial p => applyInitialDderc p
  | fallback r plan => dispatchDefaults r plan

def targets (w : World) : Pass → List PassTarget
  | initial p => w.initialPass p
  | fallback r plan => w.fallbackPass r plan

/-- What a fallback has planned is the plan for its event, which has just been unregistered. -/
def Decided (w : World) : Pass → Prop
  | initial _ => True
  | fallback r plan => ∃ (before : World) (clear : Bool), w = before.unregistered r ∧
      plan = before.planOf r clear

/-- The task is in the pass, which began in `w`. -/
def Under (pass : Pass) (w : World) {α : Type} (m : Proc α) : Prop :=
  ∃ k : Unit → Proc α, m = (pass.body.advance w).1.bind k

theorem Under.bind {pass : Pass} {w : World} {α β : Type} {m : Proc α} (under : pass.Under w m)
    (k : α → Proc β) : pass.Under w (m.bind k) := by
  obtain ⟨first, rfl⟩ := under
  exact ⟨fun x => (first x).bind k, Co.bind_assoc _ _ _⟩

end Pass

/-- The task that goes on from `o` made its last calls in the pass: it has waited for them in it or,
where there was nothing to send, has not waited. -/
def LastCalls.MadeIn {α : Type} (sent : LastCalls) (o : Option (sentBook.Resumption α))
    (pass : Pass) : Prop :=
  pass.Decided sent.made ∧ sent.calls = (pass.targets sent.made).flatMap PassTarget.calls ∧
    (sent.calls = [] ∨ ∃ next results,
      o = some ⟨some { sent with results := none }, .gather sent.calls, next, results⟩ ∧
        sent.results = some results ∧ pass.Under sent.made (.wait (.gather sent.calls) next))

/-- Of the targets of the pass the calls were made in, one has the LFDI and the program; the
program's whole default was sent for it, and every dispatch of it succeeded. -/
def LastCalls.Whole {α : Type} (sent : LastCalls) (o : Option (sentBook.Resumption α)) (lfdi : Lfdi)
    (path : Href) (mrid : Mrid) : Prop :=
  ∃ pass, sent.MadeIn o pass ∧ ∃ pre t rest, pass.targets sent.made = pre ++ t :: rest ∧
    t.lfdi = lfdi ∧ t.path = path ∧ sent.made.HasDefault path t.sent ∧ t.sent.mrid = mrid ∧
    ∃ results, sent.results = some results ∧
      allLanded results (pre.flatMap PassTarget.calls).length t.calls.length = true

/-- What is recorded was sent whole. -/
def RecordsWhole : sentBook.Known := fun _ o note c =>
  ∀ lfdi path mrid primacy, c = .recordDderc lfdi path mrid primacy →
    ∃ sent, note = some sent ∧ sent.Whole o lfdi path mrid

theorem recordsWhole_grows : Notebook.Known.Grows RecordsWhole where
  bind := by
    rintro α β o k note c known lfdi path mrid primacy rfl
    obtain ⟨sent, noted, pass, ⟨decided, calls, made⟩, target⟩ := known lfdi path mrid primacy rfl
    refine ⟨sent, noted, pass, ⟨decided, calls, made.imp_right ?_⟩, target⟩
    rintro ⟨next, results, same, answered, under⟩
    cases same
    exact ⟨_, results, rfl, answered, under.bind k⟩
  widen := by
    rintro α β o note c known lfdi path mrid primacy rfl
    obtain ⟨sent, noted, pass, ⟨decided, calls, made⟩, target⟩ := known lfdi path mrid primacy rfl
    refine ⟨sent, noted, pass, ⟨decided, calls, made.imp_right ?_⟩, target⟩
    rintro ⟨next, results, same, -⟩
    cases same

/-- Where an initial pass leaves modes out of its default, some dispatch to each target fails. -/
def MaskedFails : sentBook.Met := fun _ note (r : Request) next (a : r.Answer) =>
  match r, next, a with
  | .gather calls, next, results =>
      ∀ (sent : LastCalls) (p : Href), note = some sent →
        (Pass.initial p).Under sent.made (.wait (.gather calls) next) →
        sent.made.passWithheld p = ∅ ∨ ∀ i < (sent.made.passTargets p).length,
          allLanded results (i * sent.made.fanOut p) (sent.made.fanOut p) = false
  | _, _, _ => True

theorem passWithheld_of_idle {w : Core} (idle : w.activeEvents = []) (p : Href) :
    w.passWithheld p = ∅ := by
  unfold Core.passWithheld
  split
  · rfl
  · rw [idle]
    exact Finset.inter_empty _

/-- Where no event is running, no mode is left out. -/
theorem maskedFails_of_idle {α : Type} {note : Option LastCalls} {r : Request}
    {next : r.Answer → Proc α} {a : r.Answer}
    (idle : ∀ sent, note = some sent → sent.made.activeEvents = []) :
    MaskedFails α note r next a := by
  cases r with
  | gather calls => exact fun sent p noted _ => .inl (passWithheld_of_idle (idle sent noted) p)
  | _ => trivial

theorem maskedFails_closed : Notebook.Met.Closed MaskedFails := by
  intro α β note r next k a holds
  unfold MaskedFails at holds ⊢
  cases r with
  | gather calls =>
      exact fun sent p noted under => holds sent p noted (under.bind k)
  | _ => trivial

/-! ### Loops over targets -/

section Loops

variable {α : Type} {w w' : World} {note : Option LastCalls} {o : Option (sentBook.Resumption Unit)}

/-- The commands that record nothing. -/
theorem recordsWhole_of_effect {o : Option (sentBook.Resumption α)} {c : Cmd}
    (other : c.effect ≠ .recordDefault) : RecordsWhole α o note c := by
  rintro lfdi path mrid primacy rfl
  exact absurd rfl other

/-- What goes on after several calls. -/
theorem gatherCalls_issues {o : Option (sentBook.Resumption α)} {calls : List Call}
    {k : (Nat → Option DispatchFailure) → Proc α}
    (after : ∀ o' w' results,
      calls = [] ∨ o' = some ⟨some ⟨w, calls, none⟩, .gather calls, k, results⟩ ∧
        MaskedFails α (some ⟨w, calls, none⟩) (.gather calls) k results →
      (k results).Issues MaskedFails RecordsWhole o' w' (some ⟨w, calls, some results⟩)) :
    (gatherCalls calls >>= k).Issues MaskedFails RecordsWhole o w note := by
  refine ⟨recordsWhole_of_effect ?_, ?_⟩
  · rcases List.mem_cons.mp (issue_effect calls) with same | same
    · rw [same]
      decide
    · rw [List.mem_singleton.mp same]
      decide
  · by_cases nothing : calls = []
    · rw [if_pos nothing]
      have noted : sentBook.issues (.issue calls) w note = some ⟨w, calls, some fun _ => none⟩ :=
        congrArg (fun results => some (LastCalls.mk w calls results)) (if_pos nothing)
      rw [noted]
      exact after _ _ _ (.inl nothing)
    · rw [if_neg nothing]
      have noted : sentBook.issues (.issue calls) w note = some ⟨w, calls, none⟩ :=
        congrArg (fun results => some (LastCalls.mk w calls results)) (if_neg nothing)
      rw [noted]
      exact fun w' results met => after _ w' results (.inr ⟨rfl, met⟩)

theorem recordDefaults_issues {results : Nat → Option DispatchFailure} {from_ : Nat}
    {plans : List (DefaultTarget × List Call)}
    (each : ∀ pre target calls rest, plans = pre ++ (target, calls) :: rest →
      allLanded results (from_ + (pre.flatMap Prod.snd).length) calls.length = true →
      target.isPartial = false →
      ∃ sent, note = some sent ∧ sent.Whole o target.lfdi target.program.href target.effective.mrid) :
    (recordDefaults results from_ plans).Issues MaskedFails RecordsWhole o w note := by
  induction plans generalizing from_ w with
  | nil => trivial
  | cons plan rest ih =>
      obtain ⟨target, calls⟩ := plan
      have later : ∀ w' : World, (recordDefaults results (from_ + calls.length) rest).Issues
          MaskedFails RecordsWhole o w' note := fun w' => by
        refine ih fun pre other own tail same landed whole => ?_
        refine each ((target, calls) :: pre) other own tail (by rw [same]; rfl) ?_ whole
        simpa [Nat.add_assoc] using landed
      change Co.Issues MaskedFails RecordsWhole o ((onlyIf _ _).bind _) w note
      unfold onlyIf
      split
      · rename_i recorded
        refine ⟨?_, later _⟩
        rintro lfdi path mrid primacy same
        cases same
        exact each [] target calls rest rfl (by simpa using recorded.1) recorded.2
      · exact later w

theorem recordInitial_issues {results : Nat → Option DispatchFailure} {p : Href} {mrid : Mrid}
    {ps : DerProgramState} {epoch perTarget from_ : Nat} {targets : List (Href × Lfdi)}
    (each : ∀ pre d lfdi rest, targets = pre ++ (d, lfdi) :: rest →
      allLanded results (from_ + pre.length * perTarget) perTarget = true →
      ∃ sent, note = some sent ∧ sent.Whole o lfdi p mrid) :
    (recordInitial results p mrid ps epoch perTarget from_ targets).Issues MaskedFails RecordsWhole
      o w note := by
  induction targets generalizing from_ w with
  | nil => trivial
  | cons target rest ih =>
      obtain ⟨d, lfdi⟩ := target
      have later : ∀ w' : World, (recordInitial results p mrid ps epoch perTarget
          (from_ + perTarget) rest).Issues MaskedFails RecordsWhole o w' note := fun w' => by
        refine ih fun pre other own tail same landed => ?_
        refine each ((d, lfdi) :: pre) other own tail (by rw [same]; rfl) ?_
        rw [List.length_cons, Nat.succ_mul, Nat.add_comm (_ * _), ← Nat.add_assoc]
        exact landed
      change Co.Issues MaskedFails RecordsWhole o ((onlyIf _ _).bind _) w note
      unfold onlyIf
      split
      · rename_i recorded
        refine ⟨?_, later _⟩
        rintro lfdi path mrid primacy same
        cases same
        exact each [] d lfdi rest rfl (by simpa using recorded)
      · exact later w

end Loops

/-! ### The two passes -/

section Passes

variable {w : World} {note : Option LastCalls}

/-- Coroutines that record what was sent whole. -/
def Faithful {α : Type} (m : Proc α) : Prop :=
  ∀ w note, m.Issues MaskedFails RecordsWhole none w note

theorem faithful_within {α : Type} {m : Proc α} {es : List Effect} {ws : List Await} {E : Prop}
    (h : Within m es ws E) (none : Effect.recordDefault ∉ es) : Faithful m := fun _ _ =>
  Issues.of_only (fun _ _ _ listed => recordsWhole_of_effect fun same => none (same ▸ listed)) h

theorem Faithful.seq {α β : Type} {m : Proc α} {k : α → Proc β} (first : Faithful m)
    (rest : ∀ a, Faithful (k a)) : Faithful (m.bind k) := fun w note =>
  Issues.bind maskedFails_closed recordsWhole_grows (first w note) rest

theorem hasDefault_of_defaultOf {w : Core} {p : Href} {ps : DerProgramState}
    {dderc : DefaultDercontrol} (given : w.defaultOf p = some (ps, dderc)) :
    w.HasDefault p dderc := by
  unfold Core.defaultOf at given
  split at given
  · cases given
  · rename_i served
    obtain ⟨own, mine, same⟩ := Option.map_eq_some_iff.mp given
    cases same
    exact ⟨p, ps, served, mine, .inl rfl⟩

theorem advance_gatherCalls {α : Type} {calls : List Call} (some_call : calls ≠ [])
    (k : (Nat → Option DispatchFailure) → Proc α) (w : World) :
    ((gatherCalls calls >>= k).advance w).1 = .wait (.gather calls) k := by
  unfold gatherCalls
  dsimp only [Co.bind_eq, perform_bind, Co.bind, Co.advance]
  rw [if_neg some_call]
  rfl

/-- A pass that makes its calls in `w` and goes on from there has made them in the pass. -/
theorem LastCalls.madeIn_of_gather {pass : Pass} {calls : List Call}
    {k : (Nat → Option DispatchFailure) → Proc Unit} (decided : pass.Decided w)
    (sends : calls = (pass.targets w).flatMap PassTarget.calls)
    (waits : calls ≠ [] → (pass.body.advance w).1 = .wait (.gather calls) k)
    {o : Option (sentBook.Resumption Unit)} {results : Nat → Option DispatchFailure}
    (met : calls = [] ∨ o = some ⟨some ⟨w, calls, none⟩, .gather calls, k, results⟩ ∧
      MaskedFails Unit (some ⟨w, calls, none⟩) (.gather calls) k results) :
    (LastCalls.mk w calls (some results)).MadeIn o pass := by
  refine ⟨decided, sends, ?_⟩
  by_cases nothing : calls = []
  · exact .inl nothing
  · obtain ⟨same, -⟩ := met.resolve_left nothing
    exact .inr ⟨k, results, same, rfl, .ret, by rw [Co.bind_ret, waits nothing]⟩

/-- The fallback records what it sent whole. -/
theorem faithful_dispatchDefaults (r : Ref) {plan : FallbackPlan} {active : List Ref}
    (decided : (Pass.fallback r plan).Decided w)
    (planned : ∀ t ∈ plan.defaults, PlannedFor w.toCore active t) :
    (dispatchDefaults r plan).Issues MaskedFails RecordsWhole none w note := by
  by_cases some_ : plan.defaults = []
  · simp [dispatchDefaults, onlyIf, some_, Co.Issues]
  · set cause := some (w.record r).mrid
    set plans := plan.defaults.map fun t =>
      (t, w.defaultCalls cause t.device t.program.href t.effective) with all
    let target : DefaultTarget × List Call → PassTarget := fun p =>
      w.passTarget cause p.1.device p.1.lfdi p.1.program.href p.1.effective
    have targets : (Pass.fallback r plan).targets w = plans.map target := by
      rw [all, List.map_map]
      rfl
    have calls : ∀ part : List (DefaultTarget × List Call), (∀ p ∈ part, p ∈ plans) →
        part.flatMap Prod.snd = (part.map target).flatMap PassTarget.calls := by
      intro part inside
      rw [List.flatMap_map]
      refine List.flatMap_congr fun p listed => ?_
      obtain ⟨t, -, rfl⟩ := List.mem_map.mp (all ▸ inside p listed)
      rfl
    have shape : dispatchDefaults r plan = .read fun w : World =>
        gatherCalls ((plan.defaults.map fun t => (t, w.defaultCalls (some (w.record r).mrid) t.device
          t.program.href t.effective)).flatMap Prod.snd) >>= fun results =>
            recordDefaults results 0 (plan.defaults.map fun t =>
              (t, w.defaultCalls (some (w.record r).mrid) t.device t.program.href t.effective)) := by
      unfold dispatchDefaults onlyIf
      rw [if_pos some_]
      rfl
    rw [shape]
    refine gatherCalls_issues fun o' w' results met => ?_
    refine recordDefaults_issues fun pre own ownCalls rest parted landed whole => ?_
    replace parted : plans = pre ++ (own, ownCalls) :: rest := parted
    rw [Nat.zero_add] at landed
    have here : (own, ownCalls) ∈ plans := by
      rw [parted]
      exact List.mem_append_right _ List.mem_cons_self
    have before : ∀ p ∈ pre, p ∈ plans := by
      intro p listed
      rw [parted]
      exact List.mem_append_left _ listed
    obtain ⟨t, within, same⟩ := List.mem_map.mp (all ▸ here)
    obtain ⟨rfl, rfl⟩ := Prod.mk.inj same
    obtain ⟨p, served, given⟩ := (planned t within).whole whole
    have made : (LastCalls.mk w (plans.flatMap Prod.snd) (some results)).MadeIn o'
        (.fallback r plan) := by
      refine LastCalls.madeIn_of_gather decided ?_ (fun nothing => ?_) met
      · rw [targets]
        exact calls plans fun _ listed => listed
      · rw [Pass.body, shape]
        exact advance_gatherCalls nothing _ w
    let own := target (t, w.defaultCalls cause t.device t.program.href t.effective)
    refine ⟨_, rfl, .fallback r plan, made, pre.map target, own, rest.map target, ?_, rfl,
      rfl, ⟨p, t.program, served, given, .inr rfl⟩, rfl, results, rfl, ?_⟩
    · rw [targets, parted, List.map_append, List.map_cons]
    · rw [← calls pre before]
      exact landed

/-- Where a series of registrations is taken back, what comes after goes on in that state. -/
theorem issues_unregistered (r : Ref) {k : Proc Unit}
    (after : ∀ note, k.Issues MaskedFails RecordsWhole none (w.unregistered r) note) :
    ((forEach (w.uniqueDevices (w.record r).programHref) fun d =>
      perform (.unregister d (w.record r).mrid)).bind fun _ => k).Issues MaskedFails RecordsWhole none
        w note := by
  have each : ∀ (ds : List Href) (v : World) (note : Option LastCalls),
      (∀ note, k.Issues MaskedFails RecordsWhole none
        { v with modes := ds.foldl (fun t d => t.unregister d (w.record r).mrid) v.modes } note) →
      ((forEach ds fun d => perform (.unregister d (w.record r).mrid)).bind fun _ => k).Issues
        MaskedFails RecordsWhole none v note := by
    intro ds
    induction ds with
    | nil => exact fun v note after => after note
    | cons d rest ih =>
        intro v note after
        exact ⟨recordsWhole_of_effect (by simp [Cmd.effect]), ih _ _ after⟩
  exact each _ w note after

theorem faithful_fallback (r : Ref) (clearIfNoDderc : Bool) :
    Faithful (applyDdercFallback r clearIfNoDderc) := by
  intro w note
  refine issues_unregistered r fun note' => ?_
  dsimp only
  split
  · trivial
  · refine Issues.bind maskedFails_closed recordsWhole_grows (o := none)
      (m := dispatchDefaults r (w.planOf r clearIfNoDderc)) ?_ fun _ => ?_
    · exact faithful_dispatchDefaults r ⟨w, clearIfNoDderc, rfl, rfl⟩
        fun t listed => fallbackPlan_defaults listed
    · exact Faithful.seq (faithful_within (withdrawReleased_within r _ _) (by decide))
        fun _ => faithful_within (clearDevices_within r _) (by decide)

/-- What reaches nobody for one device reaches nobody at all. -/
theorem Core.reachOf_eq_nil {w : Core} {p d : Href} (nobody : w.reachOf p [d] = [])
    {devices : List Href} : w.reachOf p devices = [] := by
  unfold Core.reachOf at nobody ⊢
  cases group : w.groupLocalLfdis p with
  | none => simp [group] at nobody
  | some lfdis => simpa [group] using nobody

theorem Core.modesRunningIn_nil (w : Core) (active : List Ref) : w.modesRunningIn [] active = ∅ := by
  refine Finset.eq_empty_of_forall_notMem fun m member => ?_
  obtain ⟨modes, listed, within⟩ := mem_unionModes.mp member
  obtain ⟨r, -, rfl⟩ := List.mem_map.mp listed
  simp [Core.modesRunningOf] at within

theorem length_defaultCalls (w : Core) (cause : Option Mrid) (d p : Href)
    (dderc : DefaultDercontrol) : (w.defaultCalls cause d p dderc).length = w.fanOut p := by
  unfold Core.defaultCalls Core.reachOf Core.fanOut
  cases w.groupLocalLfdis p <;> simp

theorem length_flatMap_defaultCalls (w : Core) (p : Href) (dderc : DefaultDercontrol)
    (targets : List (Href × Lfdi)) :
    (targets.flatMap fun t => w.defaultCalls none t.1 p dderc).length =
      targets.length * w.fanOut p := by
  rw [List.length_flatMap, List.map_congr_left fun t _ => length_defaultCalls w none t.1 p dderc,
    List.map_const', List.sum_replicate_nat]

/-- An initial pass does nothing, or it makes its calls and records what landed. -/
theorem applyInitialDderc_eq (p : Href) : ∃ next, applyInitialDderc p = .read next ∧ ∀ w : World,
    next w = .ret () ∨ ∃ ps dderc, w.defaultOf p = some (ps, dderc) ∧
      next w = gatherCalls ((w.passTargets p).flatMap fun t => w.defaultCalls none t.1 p
          (if w.passWithheld p = ∅ then dderc else defaultWithout dderc (w.passWithheld p))) >>=
        fun results =>
          recordInitial results p dderc.mrid ps (w.epoch p) (w.fanOut p) 0 (w.passTargets p) := by
  refine ⟨_, rfl, fun w => ?_⟩
  dsimp only [Co.bind]
  split
  · exact .inl rfl
  · rename_i ps served
    cases given : ps.defaultDercontrol with
    | none => exact .inl rfl
    | some dderc =>
        have own : w.defaultOf p = some (ps, dderc) := by
          simp only [Core.defaultOf, served, given, Option.map_some]
        have targets : w.passTargets p = w.initialTargets ps p dderc := by
          simp only [Core.passTargets, own]
        have withheld : w.passWithheld p = getActiveModeNames dderc.base ∩ w.modesRunningIn
            (w.reachOf p ((w.initialTargets ps p dderc).map Prod.fst)) w.activeEvents := by
          simp only [Core.passWithheld, own, targets]
        dsimp only
        split
        · exact .inl rfl
        · split
          · exact .inl rfl
          · split
            · exact .inl rfl
            · refine .inr ⟨ps, dderc, own, ?_⟩
              rw [targets, withheld]
              rfl

/-- So does the initial pass, where no mode is withheld or where it fails. -/
theorem faithful_initial (p : Href) : Faithful (applyInitialDderc p) := by
  intro w note
  obtain ⟨next, shape, all⟩ := applyInitialDderc_eq p
  rw [shape]
  change (next w).Issues MaskedFails RecordsWhole none w note
  rcases all w with none_ | ⟨ps, dderc, given, sends⟩
  · rw [none_]
    trivial
  · rw [sends]
    set withheld := w.passWithheld p
    set effective := if withheld = ∅ then dderc else defaultWithout dderc withheld
    set calls := (w.passTargets p).flatMap fun t => w.defaultCalls none t.1 p effective
    refine gatherCalls_issues fun o' w' results met => recordInitial_issues ?_
    intro pre d lfdi rest parted landed
    rw [Nat.zero_add] at landed
    let target : Href × Lfdi → PassTarget := fun t => w.passTarget none t.1 t.2 p effective
    have targets : (Pass.initial p).targets w = (w.passTargets p).map target := by
      simp only [Pass.targets, Core.initialPass, given]
      rfl
    have made : (LastCalls.mk w calls (some results)).MadeIn o' (.initial p) := by
      have decided : (Pass.initial p).Decided w := trivial
      refine LastCalls.madeIn_of_gather decided ?_ (fun nothing => ?_) met
      · rw [targets, List.flatMap_map]
        rfl
      · rw [Pass.body, shape, Co.advance, sends]
        exact advance_gatherCalls nothing _ w
    have whole : withheld = ∅ := by
      by_contra kept
      by_cases nothing : calls = []
      · -- nobody to send it to, so nothing is held there
        have listed : (d, lfdi) ∈ w.passTargets p := by
          rw [parted]
          exact List.mem_append_right _ List.mem_cons_self
        have own : w.defaultCalls none d p effective = [] :=
          List.flatMap_eq_nil_iff.mp nothing (d, lfdi) listed
        have reach : w.reachOf p ((w.passTargets p).map Prod.fst) = [] :=
          Core.reachOf_eq_nil (List.map_eq_nil_iff.mp own)
        refine kept ?_
        simp only [withheld, Core.passWithheld, given]
        rw [reach, Core.modesRunningIn_nil, Finset.inter_empty]
      · obtain ⟨o_eq, fails⟩ := met.resolve_left nothing
        have under : (Pass.initial p).Under w (.wait (.gather calls) fun results => recordInitial
            results p dderc.mrid ps (w.epoch p) (w.fanOut p) 0 (w.passTargets p)) := by
          refine ⟨.ret, ?_⟩
          rw [Co.bind_ret, Pass.body, shape, Co.advance, sends, advance_gatherCalls nothing]
        have short : pre.length < (w.passTargets p).length := by
          rw [parted, List.length_append, List.length_cons]
          omega
        have failed := ((fails ⟨w, calls, none⟩ p rfl under).resolve_left kept) pre.length short
        rw [failed] at landed
        cases landed
    have same : effective = dderc := if_pos whole
    refine ⟨_, rfl, .initial p, made, pre.map target, target (d, lfdi), rest.map target, ?_, rfl, rfl,
      ?_, ?_, results, rfl, ?_⟩
    · rw [targets, parted, List.map_append, List.map_cons]
    · exact (same ▸ hasDefault_of_defaultOf given : w.HasDefault p effective)
    · exact congrArg DefaultDercontrol.mrid same
    · have length : ((pre.map target).flatMap PassTarget.calls).length = pre.length * w.fanOut p := by
        rw [List.flatMap_map]
        exact length_flatMap_defaultCalls w.toCore p effective pre
      have own : (target (d, lfdi)).calls.length = w.fanOut p :=
        length_defaultCalls w.toCore none d p effective
      rw [length, own]
      exact landed

end Passes

/-! ### Runs -/

/-- Every kind of command but recording a default. -/
abbrev recordless : List Effect :=
  .prune :: .control :: .issue :: .spawn :: .register :: .unregister :: .outcome ::
    .finishChild :: (housekeeping ++ arranging)

theorem faithful_composes : Composes recordless Faithful where
  carries := by decide
  bind := Faithful.seq
  get := fun rest w note => rest w w note
  quiet := fun within => faithful_within within (by decide)
  respond := fun _ _ _ _ => faithful_within (respondFor_within _ _ _) (by decide)
  fallback := faithful_fallback
  initial := faithful_initial

/-- Every job records what was sent whole. -/
theorem faithful_body (j : Job) : Faithful j.body := by
  have superseding := faithful_composes.supersedeSilent (by decide)
  have applying : ∀ r, Faithful (applyAndRespond r) := fun r =>
    faithful_within (applyAndRespond_within r) (by decide)
  refine faithful_composes.body (by decide) (fun r => ?_)
    (fun _ _ => faithful_within (respondFor_within _ _ _) (by decide))
    (fun prunes => faithful_composes.quiet (Within.perform (by rw [prunes]; decide)))
    (fun r => ?_) (fun r d _ => faithful_within (dispatchAndReport_within r d) (by decide))
  · exact faithful_composes.handleLateDiscovery superseding (applying r)
  · exact faithful_composes.onActivation
      (fun mrid => faithful_composes.transition (by decide) mrid .active) superseding (applying r)

/-- A command writes no entry but the one it records. -/
theorem entry_of_exec {c : Cmd} {w : World} {key : Lfdi × Href} {e : DdercEntry}
    (found : (World.exec c w).dderc.applied.get? key = some e) :
    w.dderc.applied.get? key = some e ∨ c = .recordDderc key.1 key.2 e.mrid e.primacy := by
  cases c with
  | recordDderc lfdi path mrid primacy =>
      rw [show (World.exec (.recordDderc lfdi path mrid primacy) w).dderc.applied =
        w.dderc.applied.set (lfdi, path) ⟨mrid, primacy⟩ from rfl, Dict.get?_set] at found
      split at found
      · rename_i same
        cases same
        cases found
        exact .inr rfl
      · exact .inl found
  | clearDderc lfdis =>
      rw [show (World.exec (.clearDderc lfdis) w).dderc.applied =
        w.dderc.applied.filter fun key _ => key.1 ∉ lfdis from rfl, Dict.get?_filter,
        Option.filter_eq_some_iff] at found
      exact .inl found.1
  | spawn r devices =>
      obtain ⟨_, _, _, made⟩ := spawn_spec w.toCore r devices
      have same : (World.exec (.spawn r devices) w).toCore =
          devices.foldl (fun w d => w.spawnChild r d) w.toCore := rfl
      rw [same, made] at found
      exact .inl found
  | _ => exact .inl found

/-- What is in the tracker was there before, or a command recorded it. -/
theorem entry_of_advance {m : Proc Unit} {w : World} (note : Option LastCalls)
    {key : Lfdi × Href} {e : DdercEntry}
    (found : (m.advance w).2.dderc.applied.get? key = some e) :
    w.dderc.applied.get? key = some e ∨
      ∃ x ∈ m.issuing sentBook w note, x.2 = .recordDderc key.1 key.2 e.mrid e.primacy := by
  induction m generalizing w note with
  | read next ih => exact ih w note found
  | act c next ih =>
      rcases ih (sentBook.issues c w note) found with before | ⟨x, listed, same⟩
      · rcases entry_of_exec before with old | rfl
        · exact .inl old
        · exact .inr ⟨_, List.mem_cons_self, rfl⟩
      · exact .inr ⟨x, List.mem_cons_of_mem _ listed, same⟩
  | _ => exact .inl found

theorem entry_of_step {c c' : Config ProcSig} {l : Label processor} (notes : Pid → Option LastCalls)
    (stepped : processor.step l c = some c') {key : Lfdi × Href} {e : DdercEntry}
    (found : c'.state.dderc.applied.get? key = some e) :
    c.state.dderc.applied.get? key = some e ∨ ∃ x ∈ processor.issuedBy sentBook notes c l,
      x.2 = .recordDderc key.1 key.2 e.mrid e.primacy := by
  cases l with
  | start p j =>
      simp only [System.step] at stepped
      split at stepped
      · rename_i w vacant begun
        cases stepped
        obtain ⟨_, _, _, same⟩ := begins_spec begun
        have before : w.dderc = c.state.dderc := by rw [same]
        simp only [System.issuedBy, System.segment, begun, Option.map_some]
        rw [← before]
        exact entry_of_advance _ found
      · cases stepped
  | resume p answer =>
      simp only [System.step] at stepped
      split at stepped
      · rename_i r next waiting
        split at stepped
        · rename_i w replied
          cases stepped
          obtain ⟨-, _, _, same⟩ := reply_spec replied
          have before : w.dderc = c.state.dderc := by rw [same]
          simp only [System.issuedBy, System.segment, waiting, replied, Option.map_some]
          rw [← before]
          exact entry_of_advance _ found
        · cases stepped
      · cases stepped
  | ext e =>
      cases stepped
      cases e <;> exact .inl found

/-- Notes before anything happened. -/
def noNotes : Pid → Option LastCalls := fun _ => none

theorem Core.HasDefault.mem {w : Core} {path : Href} {dderc : DefaultDercontrol}
    (given : w.HasDefault path dderc) :
    dderc ∈ w.discovered.derPrograms.values.filterMap (·.defaultDercontrol) := by
  obtain ⟨key, ps, served, mine, -⟩ := given
  refine List.mem_filterMap.mpr ⟨ps, List.mem_map.mpr ⟨(key, ps), ?_, rfl⟩, mine⟩
  exact (Dict.mem_entries_iff _ _ _).mpr served

/-! ### Two programs of one group -/

/-- A program with a running event, one with a default, and a device of each that stand for the same
local device. -/
def groupCore (controls : List Dercontrol) : Core :=
  { plainCore
      [plainProgram "/derp/1" 1 controls,
        { plainProgram "/derp/2" 2 [] with defaultDercontrol := some bothModes }]
      [("/derp/1", "/edev/1"), ("/derp/2", "/edev/2")] with
    groupLookup := some fun _ => some ["local"] }

/-- The event starts, and the program with the default is polled. -/
def groupRun : List (Label processor) :=
  let go := fun pid => Label.resume pid Request.success
  [.start 1 (.processControls "/derp/1" 0), go 1, go 1, go 1,
    .start 3 (.processControls "/derp/2" 0)]

def Cmd.recorded : Cmd → Option (Lfdi × Href × Mrid × Nat)
  | recordDderc lfdi path mrid primacy => some (lfdi, path, mrid, primacy)
  | _ => none

theorem Cmd.eq_of_recorded {c : Cmd} {lfdi : Lfdi} {path : Href} {mrid : Mrid} {primacy : Nat}
    (same : c.recorded = some (lfdi, path, mrid, primacy)) :
    c = .recordDderc lfdi path mrid primacy := by
  cases c with
  | recordDderc => cases same; rfl
  | _ => cases same

/-- The entries a step records, with what the task has sent. -/
def recordings (notes : Pid → Option LastCalls) (c : Config ProcSig) (l : Label processor) :
    List ((Lfdi × Href × Mrid × Nat) × LastCalls) :=
  (processor.issuedBy sentBook notes c l).filterMap fun (x : Option LastCalls × Cmd) =>
    x.2.recorded.bind fun entry => x.1.map fun sent => (entry, sent)

/-- The default is recorded for the second device, and what was sent left a mode out of it. -/
def recordsPartial (entry : (Lfdi × Href × Mrid × Nat) × LastCalls) : Bool :=
  entry.1 = ("/edev/2", "/derp/2", 9, 2) &&
    entry.2.calls =
      [.defaultControl (.lfdi "local") (defaultWithout bothModes {.opModFixedW}) none] &&
    entry.2.made.discovered.derPrograms.values.filterMap (·.defaultDercontrol) = [bothModes]

/-- What is sent for the targets of a pass, the fallback with the cause, is what the targets say. -/
theorem Pass.calls_of_mem {pass : Pass} {w : World} {t : PassTarget} (listed : t ∈ pass.targets w) :
    ∃ cause, t.calls = w.defaultCalls cause t.device t.path t.sent ∧
      (cause = none → ∀ u ∈ pass.targets w, u.sent = t.sent) := by
  cases pass with
  | initial p =>
      simp only [Pass.targets, Core.initialPass] at listed ⊢
      split at listed
      · cases listed
      · obtain ⟨t, -, rfl⟩ := List.mem_map.mp listed
        refine ⟨none, rfl, fun _ u inside => ?_⟩
        obtain ⟨u, -, rfl⟩ := List.mem_map.mp inside
        rfl
  | fallback r plan =>
      obtain ⟨t, -, rfl⟩ := List.mem_map.mp listed
      exact ⟨some (w.record r).mrid, rfl, fun none_ => nomatch none_⟩

theorem not_whole_of_recordsPartial {entry : (Lfdi × Href × Mrid × Nat) × LastCalls}
    (partly : recordsPartial entry = true) (o : Option (sentBook.Resumption Unit)) :
    ¬ entry.2.Whole o "/edev/2" "/derp/2" 9 := by
  simp only [recordsPartial, Bool.and_eq_true, decide_eq_true_eq] at partly
  obtain ⟨⟨-, calls⟩, defaults⟩ := partly
  rintro ⟨pass, ⟨-, sends, -⟩, pre, t, rest, targets, -, -, given, -⟩
  -- The one call is that of some target, which is sent what the others are.
  rw [calls] at sends
  obtain ⟨u, inside, made⟩ := List.mem_flatMap.mp (sends ▸ List.mem_singleton_self _)
  obtain ⟨cause, own, alike⟩ := Pass.calls_of_mem inside
  rw [own] at made
  obtain ⟨target, -, same⟩ := List.mem_map.mp made
  obtain ⟨-, sent, none_⟩ := Call.defaultControl.inj same
  have whole : t.sent = u.sent := alike none_ t (by rw [targets]; simp)
  have bare := given.mem
  rw [defaults, List.mem_singleton, whole, sent] at bare
  exact absurd bare (by decide)

end Py20305
