import Py20305.Events.Effects

/-!
Tasks that run alone, each to its end before the next one starts.

`Keeps` is the triple of this setting: what holds before a coroutine holds after
it, whatever the server and the devices answer. A task that puts a control on
devices waits for its children, which run one after the other; between two
tasks no child is waiting (`Idle`).
-/

namespace Py20305

open Coroutine Co

/-- An answer changes only what is known about responses. -/
theorem answered_spec (w : World) (r : Request) (a : r.Answer) :
    ∃ responses posted, w.answered r a = { w with responses := responses, posted := posted } := by
  unfold World.answered
  cases replied : w.reply w.current r a with
  | none => exact ⟨w.responses, w.posted, rfl⟩
  | some w' =>
      obtain ⟨-, responses, posted, rfl⟩ := reply_spec replied
      exact ⟨responses, posted, rfl⟩

/-- What a coroutine that runs alone keeps. -/
def Keeps (env : Answers) (P : World → Prop) {α : Type} (m : Proc α) : Prop :=
  ∀ w, P w → P (m.eval (World.oracle env) w).2

namespace Keeps

variable {env : Answers} {P : World → Prop} {α β : Type}

theorem get {k : World → Proc β} (rest : ∀ w, P w → P ((k w).eval (World.oracle env) w).2) :
    Keeps env P (getWorld >>= k) := rest

/-- What the rest makes of what a first part keeps. -/
theorem seq {Q : World → Prop} {m : Proc α} {k : α → Proc β} (first : Keeps env P m)
    (weaker : ∀ w, P w → Q w) (rest : ∀ a w, P w → Q ((k a).eval (World.oracle env) w).2) :
    ∀ w, P w → Q ((m >>= k).eval (World.oracle env) w).2 := by
  intro w holds
  have after := first w holds
  rw [Co.bind_eq, Co.eval_bind]
  generalize m.eval (World.oracle env) w = done at after
  obtain ⟨outcome, w'⟩ := done
  cases outcome with
  | none => exact weaker w' after
  | some a => exact rest a w' after

theorem bind {m : Proc α} {k : α → Proc β} (first : Keeps env P m)
    (rest : ∀ a, Keeps env P (k a)) : Keeps env P (m >>= k) := seq first (fun _ => id) rest

theorem forEach {ι : Type} {xs : List ι} {body : ι → Proc Unit}
    (each : ∀ x ∈ xs, Keeps env P (body x)) : Keeps env P (Co.forEach xs body) := by
  induction xs with
  | nil => exact fun w holds => holds
  | cons x rest ih =>
      exact bind (each x List.mem_cons_self) fun _ =>
        ih fun y member => each y (List.mem_cons_of_mem x member)

/-- A loop in which one round brings about what the later ones keep. -/
theorem forEach_reaches {Q : World → Prop} {ι : Type} {xs : List ι} {body : ι → Proc Unit} {x : ι}
    (member : x ∈ xs)
    (before : ∀ y ∈ xs, ∀ w, P w → ∃ v, (body y).eval (World.oracle env) w = (some (), v) ∧ P v)
    (here : ∀ w, P w → Q ((body x).eval (World.oracle env) w).2)
    (after : ∀ y ∈ xs, Keeps env Q (body y)) :
    ∀ w, P w → Q ((Co.forEach xs body).eval (World.oracle env) w).2 := by
  induction xs with
  | nil => exact absurd member List.not_mem_nil
  | cons y rest ih =>
      intro w holds
      have later : ∀ z ∈ rest, Keeps env Q (body z) :=
        fun z member => after z (List.mem_cons_of_mem y member)
      obtain ⟨v, ran, kept⟩ := before y List.mem_cons_self w holds
      change Q (Co.eval (World.oracle env) (Co.bind (body y) fun _ => Co.forEach rest body) w).2
      rw [Co.eval_bind, ran]
      rcases List.mem_cons.mp member with rfl | member
      · have reached := here w holds
        rw [ran] at reached
        exact forEach later v reached
      · exact ih member (fun z member => before z (List.mem_cons_of_mem y member)) later v kept

/-- A coroutine that does not wait for children keeps what its commands and the
answers keep. -/
theorem of_within {m : Proc α} {es : List Effect} {ws : List Await} {E : Prop}
    (within : Within m es ws E) (waits : ws ⊆ calm)
    (cmds : ∀ c w, c.effect ∈ es → P w → P (World.exec c w))
    (answers : ∀ (r : Request) (a : r.Answer) w, P w → P (w.answered r a)) : Keeps env P m := by
  intro w holds
  refine Co.eval_keeps (World.oracle env) P cmds (fun r v listed h => ?_) within holds
  cases r with
  | join => exact absurd (waits listed) (by decide)
  | _ => exact answers _ _ v h

end Keeps

/-- Every program's state object is stored under its own path. -/
def DiscoveredState.Named (state : DiscoveredState) : Prop :=
  ∀ p ps, state.derPrograms.get? p = some ps → ps.href = p

/-! ### Runs -/

/-- Tasks that run one after the other, each meeting `ok` with the state it starts
in and the answers it gets, and what happens around them in between, each time
meeting `moves`. -/
inductive Turns (ok : World → Answers → Job → Prop) (moves : World → Ext → Prop) :
    World → World → Prop where
  | refl (w : World) : Turns ok moves w w
  | job {u v w : World} (env : Answers) (pid : Pid) (j : Job) : Turns ok moves u v → ok v env j →
      v.alone env pid j = some w → Turns ok moves u w
  | ext {u v : World} (e : Ext) : Turns ok moves u v → moves v e →
      Turns ok moves u { v with toCore := e.apply v.toCore }

/-- No clock goes back. -/
def Ahead (w : World) (e : Ext) : Prop := ∀ s, w.clock s ≤ (e.apply w.toCore).clock s

namespace Turns

variable {ok : World → Answers → Job → Prop} {moves : World → Ext → Prop} {u v : World}

/-- A poll that runs alone, everything succeeding. -/
theorem polled (run : Turns ok moves u v) {p : Href} (met : ok v {} (.processControls p 0)) :
    Turns ok moves u (v.polled p) := by
  refine .job {} v.nextPid (.processControls p 0) run met ?_
  simp [World.alone, World.begins, Core.begins, World.polled]

/-- A timer that fires alone, everything succeeding. -/
theorem fired (run : Turns ok moves u v) {pid : Pid} (met : ∀ j, ok v {} j) :
    Turns ok moves u (v.fired pid) := by
  unfold World.fired
  cases v.sleeping.get? pid with
  | none => exact run
  | some t =>
      dsimp only
      cases ran : v.alone {} pid (.timer t.callback t.ref) with
      | none => exact run
      | some w => exact .job {} pid (.timer t.callback t.ref) run (met _) ran

/-- The clocks are set. -/
theorem atTime (run : Turns ok moves u v) {now : Int}
    (met : moves v (.clocks (fun _ => now) now)) : Turns ok moves u (v.atTime now) :=
  .ext (.clocks (fun _ => now) now) run met

end Turns

/-! ### The control poll -/

section Poll

variable {env : Answers} {P : World → Prop} {near : Href → Prop} {fits : Href → Dercontrol → Prop}
  (served : ∀ w, P w → ∀ p ps, near p → w.discovered.derPrograms.get? p = some ps →
    near ps.href ∧ ∀ c ∈ ps.derControls, fits p c ∧ fits ps.href c)

include served

/-- Whatever content the program's state object has now, its controls fit. -/
theorem objectOf_fits {w : World} (holds : P w) {ps : DerProgramState} (here : near ps.href)
    (listed : ∀ c ∈ ps.derControls, fits ps.href c) (epoch : Nat) :
    ∀ c ∈ (w.objectOf epoch ps).derControls, fits ps.href c := by
  unfold Core.objectOf
  split
  · cases found : w.discovered.derPrograms.get? ps.href with
    | none => exact listed
    | some current =>
        exact fun c member => ((served w holds ps.href current here found).2 c member).1
  · exact listed

theorem Keeps.processServed {now : Int}
    (round : ∀ q primacy derc, near q → fits q derc →
      Keeps env P (processControl q primacy now derc))
    {ps : DerProgramState} (here : near ps.href) (listed : ∀ c ∈ ps.derControls, fits ps.href c)
    (epoch primacy i rounds : Nat) :
    Keeps env P (processServed ps epoch primacy now i rounds) := by
  induction rounds generalizing i with
  | zero => exact fun w holds => holds
  | succ rounds ih =>
      refine Keeps.get fun w holds => ?_
      cases found : (w.objectOf epoch ps).derControls[i]? with
      | none => exact holds
      | some derc =>
          have fit := objectOf_fits served holds here listed epoch derc (List.mem_of_getElem? found)
          refine Keeps.bind (round _ _ _ here fit) (fun stop => ?_) w holds
          split
          · exact fun w holds => holds
          · exact ih (i + 1)

/-- A poll, from one round for each served control, rule p) and its end. -/
theorem Keeps.processControls {Q : World → Prop} {w : World} {p : Href} (room : Nat)
    (here : near p)
    (round : ∀ q primacy derc, near q → fits q derc →
      Keeps env P (processControl q primacy (w.now p) derc))
    (reconcile : ∀ ps epoch, Keeps env P (reconcileServed ps epoch (w.now p)))
    (weaker : ∀ v, P v → Q v)
    (finish : ∀ v, P v → Q ((finishPoll p (w.now p)).eval (World.oracle env) v).2) (holds : P w) :
    Q ((Py20305.processControls p room).eval (World.oracle env) w).2 := by
  change Q (Co.eval (World.oracle env) (if _ then _ else _) w).2
  split
  · exact weaker w holds
  · rw [eval_getWorld]
    cases found : w.discovered.derPrograms.get? p with
    | none => exact weaker w holds
    | some ps =>
        obtain ⟨own, listed⟩ := served w holds p ps here found
        refine Keeps.seq (Keeps.processServed served round own (fun c member => (listed c member).2)
          _ _ _ _) weaker
          (fun stop v kept => ?_) w holds
        split
        · exact weaker v kept
        · refine Keeps.seq (reconcile _ _) weaker (fun stop v kept => ?_) v kept
          split
          · exact weaker v kept
          · exact finish v kept

end Poll

/-! ### Children -/

/-- No child of a dispatch is waiting to be started. -/
def Idle (w : World) : Prop := ∀ pid, w.spawned.get? pid = none

theorem idle_exec {c : Cmd} (other : c.effect ≠ .spawn) {w : World} (idle : Idle w) :
    Idle (World.exec c w) := by
  intro pid
  cases c with
  | spawn => exact absurd rfl other
  | cancelTimers | close =>
      change (w.spawned.filter _).get? pid = none
      rw [Dict.get?_filter, idle pid]
      rfl
  | _ => exact idle pid

/-- A task that starts while no child is waiting is not a child. -/
theorem begins_of_idle {w w' : World} {pid : Pid} {j : Job} (idle : Idle w)
    (begun : w.begins pid j = some w') :
    (∀ r d, j ≠ .dispatchAndReport r d) ∧
      ∃ sleeping nextPid, w' = { w with sleeping := sleeping, nextPid := nextPid, current := pid } := by
  obtain ⟨core, started, rfl⟩ := Option.map_eq_some_iff.mp begun
  cases j with
  | dispatchAndReport r d =>
      simp only [Core.begins, idle pid, reduceCtorEq, if_false] at started
  | timer callback r =>
      simp only [Core.begins] at started
      split at started
      · cases started
      · split_ifs at started
        cases started
        exact ⟨by simp, _, _, rfl⟩
  | _ =>
      simp only [Core.begins] at started
      split_ifs at started
      cases started
      exact ⟨by simp, _, _, rfl⟩

/-- A child makes no further children. -/
theorem child_spawned (env : Answers) (r : Ref) (d : Href) (w : World) :
    ((dispatchAndReport r d).final (World.leafOracle env) w).spawned = w.spawned := by
  refine Co.eval_keeps (World.leafOracle env) (fun v : World => v.spawned = w.spawned)
    (fun c v listed same => ?_) (fun q v _ same => ?_) (dispatchAndReport_within r d) rfl
  · cases c with
    | spawn | cancelTimers | close => simp [Cmd.effect] at listed
    | _ => exact same
  · cases q with
    | join => exact same
    | _ =>
        obtain ⟨_, _, answered⟩ := answered_spec v _ _
        exact (congrArg (·.spawned) answered).trans same

/-- The children of a dispatch run one after the other: what each leaves for the
rest holds at the end, and none is left waiting. -/
theorem runChildren_induct (env : Answers) (parent : Pid) {w : World}
    (P : List (Pid × Ref × Href) → World → Prop)
    (child : ∀ pid r d rest v, P ((pid, r, d) :: rest) v →
      P rest ((dispatchAndReport r d).final (World.leafOracle env)
        { v with spawned := v.spawned.erase pid, current := pid }))
    (holds : P w.spawned.entries w) :
    ∃ v, World.runChildren env parent w = { v with current := parent } ∧ P [] v ∧ Idle v := by
  -- Over the entries: what still waits are exactly those to come.
  have each : ∀ (entries : List (Pid × Ref × Href)) (v : World), P entries v →
      (entries.map Prod.fst).Nodup →
      (∀ pid e, (pid, e) ∈ entries ↔ v.spawned.get? pid = some e) →
      P [] (entries.foldl (World.runChild env) v) ∧ Idle (entries.foldl (World.runChild env) v) := by
    intro entries
    induction entries with
    | nil =>
        intro v holds _ waits
        refine ⟨holds, fun pid => ?_⟩
        cases found : v.spawned.get? pid with
        | none => exact found
        | some e => exact absurd ((waits pid e).mpr found) List.not_mem_nil
    | cons entry rest ih =>
        intro v holds distinct waits
        obtain ⟨pid, r, d⟩ := entry
        simp only [List.map_cons, List.nodup_cons, List.mem_map, not_exists, not_and] at distinct
        have here := (waits pid (r, d)).mp List.mem_cons_self
        dsimp only [List.foldl_cons, World.runChild, World.begins, Core.begins]
        rw [if_pos here]
        refine ih _ (child pid r d rest v holds) distinct.2 fun q e => ?_
        have left : ((dispatchAndReport r d).final (World.leafOracle env)
            { v with spawned := v.spawned.erase pid, current := pid }).spawned.get? q =
            if q = pid then none else v.spawned.get? q := by
          rw [child_spawned]
          exact Dict.get?_erase _ _ _
        refine Iff.trans ?_ (Eq.congr_left left).symm
        split_ifs with same
        · simp only [iff_false]
          intro member
          exact distinct.1 _ member same
        · rw [← waits q e, List.mem_cons]
          constructor
          · exact .inr
          · rintro (first | next)
            · cases first
              exact absurd rfl same
            · exact next
  refine ⟨_, World.runChildren_eq env parent w, each w.spawned.entries w holds w.spawned.nodup fun pid e => ?_⟩
  exact Dict.mem_entries_iff _ _ _

/-- What depends on the store alone is kept by a coroutine, with the children it
waits for, if its commands and theirs keep it. -/
theorem Keeps.of_store {env : Answers} {P : World → Prop} {α : Type} {m : Proc α}
    {es : List Effect} {ws : List Await} {E : Prop}
    (same : ∀ w w' : World, w'.store = w.store → P w → P w')
    (cmds : ∀ c w, c.effect ∈ es ∨ c.effect ∈ childEffects → P w → P (World.exec c w))
    (within : Within m es ws E) : Keeps env P m := by
  have leaf : ∀ (r : Request) w, P w → P (World.leafOracle env r w).2 := by
    intro r w holds
    cases r with
    | join => exact holds
    | _ => exact same w _ (answered_store w _ _) holds
  intro w holds
  refine Co.eval_keeps (World.oracle env) P (fun c v listed => cmds c v (.inl listed))
    (fun r v _ h => ?_) within holds
  cases r with
  | join =>
      obtain ⟨v', ran, kept, -⟩ := runChildren_induct env v.current (fun _ u => P u)
        (fun pid r d rest u before => Co.eval_keeps (World.leafOracle env) P
          (fun c t listed => cmds c t (.inr listed)) (fun r t _ => leaf r t)
          (dispatchAndReport_within r d) (same u _ rfl before)) h
      change P (World.runChildren env v.current v)
      rw [ran]
      exact same v' _ rfl kept
  | _ => exact leaf _ v h

/-! ### Commands and calls -/

section Calls

variable (env : Answers) (w : World)

theorem eval_forEach_perform {ι : Type} (o : Oracle ProcSig) (xs : List ι) (c : ι → Cmd) :
    (Co.forEach xs fun x => perform (c x)).eval o w =
      (some (), xs.foldl (fun w x => World.exec (c x) w) w) := by
  induction xs generalizing w with
  | nil => rfl
  | cons x rest ih => exact ih (World.exec (c x) w)

/-- What `effectiveOffsets` comes to. -/
theorem eval_effectiveOffsets (o : Oracle ProcSig) (p : Href) (derc : Dercontrol) :
    (effectiveOffsets p derc).eval o w =
      let drawn := (w.offsets.getOffsets derc (w.draws 0)).1
      let w' := World.exec (.drawOffsets derc) w
      let start := w'.successiveOffset p derc drawn.1
      if start = drawn.1 then (some drawn, w')
      else (some (start, drawn.2), World.exec (.overrideOffset derc start) w') := by
  dsimp only
  change Co.eval o (if _ then _ else _) _ = _
  split <;> rfl

/-- The answer to a `gather` changes nothing. -/
theorem oracle_gather (calls : List Call) : (World.oracle env (.gather calls) w).2 = w := by
  change w.answered (.gather calls) _ = w
  unfold World.answered World.reply
  split <;> rfl

theorem eval_gatherCalls (calls : List Call) :
    ∃ results, (∀ i, results i = (calls[i]?).bind env.outcome) ∧
      (gatherCalls calls).eval (World.oracle env) w =
        (some results, World.exec (.issue calls) w) := by
  by_cases none_ : calls = []
  · subst none_
    exact ⟨fun _ => none, fun i => rfl, rfl⟩
  · refine ⟨(World.oracle env (.gather calls) (World.exec (.issue calls) w)).1, fun i => rfl, ?_⟩
    change Co.eval (World.oracle env) (if calls = [] then _ else _) _ = _
    rw [if_neg none_]
    change (some _, (World.oracle env (.gather calls) _).2) = _
    rw [oracle_gather]

end Calls

end Py20305
