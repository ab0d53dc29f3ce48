import Mathlib.Logic.Function.Basic
import Mathlib.Tactic.TypeStar

/-!
Cooperative tasks over a shared state.

A coroutine (`Co`) reads the state, issues commands and waits. Between two
waits nothing else runs, so a program is atomic except where it says `wait`.
A `System` adds what runs around the coroutines: which jobs may start, which
answers a wait may get, and what the environment does by itself. `System.step`
is executable; a `Run` is any interleaving of steps that meet a condition.

Three ways of reasoning, from cheap to precise:

* `Co.Only`: which commands and requests a program can make, whatever it reads
  (`Only.bind`, `Only.forEach`);
* `Co.eval`: the run of one program with nothing else going on, which keeps
  what its commands and answers keep (`eval_keeps`);
* `RelyGuarantee`: what each task assumes of the others across its waits and
  what it guarantees them, composed by `RelyGuarantee.related_of_run`.
-/

namespace Coroutine

/-- What coroutines are made of: a state, the commands that change it, the
requests that can be waited for and the answers they get. -/
structure Sig where
  State : Type
  Cmd : Type
  Req : Type
  Ans : Req → Type
  exec : Cmd → State → State

/-- A coroutine. `raise` is an exception nothing in the task catches. -/
inductive Co (S : Sig) (α : Type) : Type where
  | ret (a : α)
  | raise
  | read (next : S.State → Co S α)
  | act (c : S.Cmd) (next : Co S α)
  | wait (r : S.Req) (next : S.Ans r → Co S α)

variable {S : Sig} {α β ι : Type}

namespace Co

/-- Sequencing. -/
def bind : Co S α → (α → Co S β) → Co S β
  | ret a, k => k a
  | raise, _ => raise
  | read next, k => read fun s => (next s).bind k
  | act c next, k => act c (next.bind k)
  | wait r next, k => wait r fun a => (next a).bind k

instance : Monad (Co S) where
  pure := ret
  bind := bind

/-- A `for` loop over a list. -/
def forEach : List ι → (ι → Co S Unit) → Co S Unit
  | [], _ => ret ()
  | x :: rest, body => (body x).bind fun _ => forEach rest body

@[simp] theorem pure_eq (a : α) : (pure a : Co S α) = ret a := rfl

@[simp] theorem bind_eq (m : Co S α) (k : α → Co S β) : m >>= k = m.bind k := rfl

@[simp] theorem ret_bind (a : α) (k : α → Co S β) : (ret a).bind k = k a := rfl

@[simp] theorem raise_bind (k : α → Co S β) : (raise : Co S α).bind k = raise := rfl

/-! ### What a program can do at all -/

/-- Every command `m` can issue satisfies `K`, every request it can make
satisfies `A`, and it raises only if `E`, whatever it reads and is answered. -/
def Only (K : S.Cmd → Prop) (A : S.Req → Prop) (E : Prop) : Co S α → Prop
  | ret _ => True
  | raise => E
  | read next => ∀ s, Only K A E (next s)
  | act c next => K c ∧ Only K A E next
  | wait r next => A r ∧ ∀ a, Only K A E (next a)

namespace Only

variable {K K' : S.Cmd → Prop} {A A' : S.Req → Prop} {E E' : Prop}

theorem bind {m : Co S α} {k : α → Co S β} (first : Only K A E m) (rest : ∀ a, Only K A E (k a)) :
    Only K A E (m.bind k) := by
  induction m with
  | ret a => exact rest a
  | raise => exact first
  | read next ih => exact fun s => ih s (first s)
  | act c next ih => exact ⟨first.1, ih first.2⟩
  | wait r next ih => exact ⟨first.1, fun a => ih a (first.2 a)⟩

theorem mono {m : Co S α} (h : Only K A E m) (cmds : ∀ c, K c → K' c) (reqs : ∀ r, A r → A' r)
    (raises : E → E') : Only K' A' E' m := by
  induction m with
  | ret a => trivial
  | raise => exact raises h
  | read next ih => exact fun s => ih s (h s)
  | act c next ih => exact ⟨cmds c h.1, ih h.2⟩
  | wait r next ih => exact ⟨reqs r h.1, fun a => ih a (h.2 a)⟩

theorem anything (m : Co S α) : Only (fun _ => True) (fun _ => True) True m := by
  induction m with
  | ret a => trivial
  | raise => trivial
  | read next ih => exact ih
  | act c next ih => exact ⟨trivial, ih⟩
  | wait r next ih => exact ⟨trivial, ih⟩

theorem forEach {xs : List ι} {body : ι → Co S Unit} (each : ∀ x ∈ xs, Only K A E (body x)) :
    Only K A E (forEach xs body) := by
  induction xs with
  | nil => trivial
  | cons x rest ih =>
      exact bind (each x List.mem_cons_self) fun _ =>
        ih fun y hy => each y (List.mem_cons_of_mem _ hy)

end Only

/-! ### What a program can do while a condition holds -/

/-- As long as every state it reads satisfies `R`, every command `m` issues
satisfies `K` and every request it makes satisfies `A`. -/
def Under (R : S.State → Prop) (K : S.Cmd → Prop) (A : S.Req → Prop) : Co S α → Prop
  | ret _ => True
  | raise => True
  | read next => ∀ s, R s → Under R K A (next s)
  | act c next => K c ∧ Under R K A next
  | wait r next => A r ∧ ∀ a, Under R K A (next a)

namespace Under

variable {R : S.State → Prop} {K : S.Cmd → Prop} {A : S.Req → Prop}

theorem bind {m : Co S α} {k : α → Co S β} (first : Under R K A m) (rest : ∀ a, Under R K A (k a)) :
    Under R K A (m.bind k) := by
  induction m with
  | ret a => exact rest a
  | raise => trivial
  | read next ih => exact fun s reads => ih s (first s reads)
  | act c next ih => exact ⟨first.1, ih first.2⟩
  | wait r next ih => exact ⟨first.1, fun a => ih a (first.2 a)⟩

theorem of_only {m : Co S α} {E : Prop} (only : Only K A E m) : Under R K A m := by
  induction m with
  | ret a => trivial
  | raise => trivial
  | read next ih => exact fun s _ => ih s (only s)
  | act c next ih => exact ⟨only.1, ih only.2⟩
  | wait r next ih => exact ⟨only.1, fun a => ih a (only.2 a)⟩

end Under

/-! ### One program alone -/

/-- How a request is answered when nothing else runs. -/
abbrev Oracle (S : Sig) := (r : S.Req) → S.State → S.Ans r × S.State

/-- Run a program to its end, every wait answered by `o`. `none` is an
exception. -/
def eval (o : Oracle S) : Co S α → S.State → Option α × S.State
  | ret a, s => (some a, s)
  | raise, s => (none, s)
  | read next, s => (next s).eval o s
  | act c next, s => next.eval o (S.exec c s)
  | wait r next, s => (next (o r s).1).eval o (o r s).2

/-- A property kept by the commands and the answers is kept by the program. -/
theorem eval_keeps (o : Oracle S) {m : Co S α} {K : S.Cmd → Prop} {A : S.Req → Prop} {E : Prop}
    (P : S.State → Prop) (cmds : ∀ c s, K c → P s → P (S.exec c s))
    (answers : ∀ r s, A r → P s → P (o r s).2) (only : m.Only K A E) {s : S.State} (holds : P s) :
    P (m.eval o s).2 := by
  induction m generalizing s with
  | ret a => exact holds
  | raise => exact holds
  | read next ih => exact ih s (only s) holds
  | act c next ih => exact ih only.2 (cmds c s only.1 holds)
  | wait r next ih => exact ih _ (only.2 _) (answers r s only.1 holds)

/-- A program that cannot raise returns. -/
theorem eval_returns (o : Oracle S) {m : Co S α} {K : S.Cmd → Prop} {A : S.Req → Prop}
    (only : m.Only K A False) (s : S.State) : ∃ a, (m.eval o s).1 = some a := by
  induction m generalizing s with
  | ret a => exact ⟨a, rfl⟩
  | raise => exact only.elim
  | read next ih => exact ih s (only s) s
  | act c next ih => exact ih only.2 _
  | wait r next ih => exact ih _ (only.2 _) _

/-- The state `eval` ends in. -/
def final (o : Oracle S) (m : Co S α) (s : S.State) : S.State := (m.eval o s).2

theorem eval_bind (o : Oracle S) (m : Co S α) (k : α → Co S β) (s : S.State) :
    (m.bind k).eval o s =
      match m.eval o s with
      | (some a, s') => (k a).eval o s'
      | (none, s') => (none, s') := by
  induction m generalizing s with
  | ret a => rfl
  | raise => rfl
  | read next ih => exact ih s s
  | act c next ih => exact ih _
  | wait r next ih => exact ih _ _

end Co

/-! ### Systems of tasks -/

/-- The name of a task. -/
abbrev Pid := Nat

/-- Jobs, and what surrounds them. `begins` and `replies` also make the change
of state that comes with starting a task or with an answer; `none` says that it
cannot happen now. -/
structure System (S : Sig) where
  Job : Type
  body : Job → Co S Unit
  begins : Pid → Job → S.State → Option S.State
  replies : Pid → (r : S.Req) → S.Ans r → S.State → Option S.State
  Ext : Type
  ext : Ext → S.State → Option S.State

/-- A shared state and the tasks suspended on it. -/
structure Config (S : Sig) where
  state : S.State
  pool : Pid → Option (Co S Unit)

/-- What happens next. An answer is given for every request there could be. -/
inductive Label (M : System S) where
  | start (p : Pid) (j : M.Job)
  | resume (p : Pid) (answer : (r : S.Req) → S.Ans r)
  | ext (e : M.Ext)

/-- The task a step belongs to, if it is a task's. -/
def Label.pid {M : System S} : Label M → Option Pid
  | start p _ => some p
  | resume p _ => some p
  | ext _ => none

namespace Co

/-- Run up to the next wait. -/
def advance : Co S α → S.State → Co S α × S.State
  | ret a, s => (ret a, s)
  | raise, s => (raise, s)
  | read next, s => (next s).advance s
  | act c next, s => next.advance (S.exec c s)
  | wait r next, s => (wait r next, s)

/-- A task that has nothing left to do leaves the pool. -/
def parked : Co S Unit → Option (Co S Unit)
  | wait r next => some (wait r next)
  | _ => none

/-- A property kept by the commands is kept up to the next wait. -/
theorem advance_keeps {m : Co S α} {K : S.Cmd → Prop} {A : S.Req → Prop} {E : Prop}
    (P : S.State → Prop) (cmds : ∀ c s, K c → P s → P (S.exec c s)) (only : m.Only K A E)
    {s : S.State} (holds : P s) : P (m.advance s).2 := by
  induction m generalizing s with
  | ret a => exact holds
  | raise => exact holds
  | read next ih => exact ih s (only s) holds
  | act c next ih => exact ih only.2 (cmds c s only.1 holds)
  | wait r next => exact holds

/-- Up to the next wait, what the commands allowed keep is kept, and what is left
to do is still only what is allowed. -/
theorem Under.advance {m : Co S Unit} {R : S.State → Prop} {K : S.Cmd → Prop} {A : S.Req → Prop}
    (I : S.State → Prop) (reads : ∀ s, I s → R s) (cmds : ∀ c s, K c → I s → I (S.exec c s))
    (under : m.Under R K A) {s : S.State} (holds : I s) :
    I (m.advance s).2 ∧ ∀ k, (m.advance s).1.parked = some k → k.Under R K A := by
  induction m generalizing s with
  | ret a => exact ⟨holds, by rintro k ⟨⟩⟩
  | raise => exact ⟨holds, by rintro k ⟨⟩⟩
  | read next ih => exact ih s (under s (reads s holds)) holds
  | act c next ih => exact ih under.2 (cmds c s under.1 holds)
  | wait r next =>
      refine ⟨holds, fun k parked => ?_⟩
      cases parked
      exact under

/-- A program without waits leaves nothing behind. -/
theorem parked_of_no_wait {m : Co S Unit} {K : S.Cmd → Prop} {A : S.Req → Prop} {E : Prop}
    (only : m.Only K A E) (never : ∀ r, ¬ A r) (s : S.State) : (m.advance s).1.parked = none := by
  induction m generalizing s with
  | ret a => rfl
  | raise => rfl
  | read next ih => exact ih s (only s) s
  | act c next ih => exact ih only.2 _
  | wait r next => exact absurd only.1 (never r)

end Co

/-- Let task `p` run `m` from `s` up to its next wait. -/
def Config.runTask (c : Config S) (p : Pid) (m : Co S Unit) (s : S.State) : Config S where
  state := (m.advance s).2
  pool := Function.update c.pool p (m.advance s).1.parked

namespace System

variable (M : System S)

/-- One step. -/
def step : Label M → Config S → Option (Config S)
  | .start p j, c =>
      match c.pool p, M.begins p j c.state with
      | none, some s => some (c.runTask p (M.body j) s)
      | _, _ => none
  | .resume p answer, c =>
      match c.pool p with
      | some (.wait r next) =>
          match M.replies p r (answer r) c.state with
          | some s => some (c.runTask p (next (answer r)) s)
          | none => none
      | _ => none
  | .ext e, c => (M.ext e c.state).map fun s => { c with state := s }

/-- Runs whose steps all meet `ok`, a condition on the state before the step,
the step and the state after it. -/
inductive Run (ok : S.State → Label M → S.State → Prop) : Config S → Config S → Prop where
  | refl (c : Config S) : Run ok c c
  | step {a b c : Config S} (l : Label M) : Run ok a b → M.step l b = some c →
      ok b.state l c.state → Run ok a c

/-- A step of a task keeps what every command, start and answer keeps. -/
theorem step_keeps {M : System S} {l : Label M} {c c' : Config S} (P : S.State → Prop)
    (cmds : ∀ c s, P s → P (S.exec c s))
    (begins : ∀ p j s s', M.begins p j s = some s' → P s → P s')
    (replies : ∀ p r x s s', M.replies p r x s = some s' → P s → P s')
    (task : l.pid ≠ none) (stepped : M.step l c = some c') (holds : P c.state) : P c'.state := by
  have advanced : ∀ p (m : Co S Unit) s, P s → P (c.runTask p m s).state :=
    fun p m s before => Co.advance_keeps P (fun c s _ => cmds c s) (Co.Only.anything m) before
  cases l with
  | start p j =>
      simp only [System.step] at stepped
      split at stepped
      · rename_i begun
        cases stepped
        exact advanced p _ _ (begins p j _ _ begun holds)
      · cases stepped
  | resume p answer =>
      simp only [System.step] at stepped
      split at stepped
      · split at stepped
        · rename_i replied
          cases stepped
          exact advanced p _ _ (replies p _ _ _ _ replied holds)
        · cases stepped
      · cases stepped
  | ext e => exact absurd rfl task

/-- A property kept by every command, start, answer and step of the environment
holds along every run. -/
theorem Run.keeps {M : System S} {ok : S.State → Label M → S.State → Prop} {a b : Config S}
    (P : S.State → Prop) (cmds : ∀ c s, P s → P (S.exec c s))
    (begins : ∀ p j s s', M.begins p j s = some s' → P s → P s')
    (replies : ∀ p r x s s', M.replies p r x s = some s' → P s → P s')
    (ext : ∀ e s s', M.ext e s = some s' → P s → P s')
    (run : M.Run ok a b) (holds : P a.state) : P b.state := by
  induction run with
  | refl => exact holds
  | @step b c l before stepped met ih =>
      have tasks := fun task => step_keeps P cmds begins replies task stepped ih
      cases l with
      | start p j => exact tasks (Option.some_ne_none p)
      | resume p answer => exact tasks (Option.some_ne_none p)
      | ext e =>
          obtain ⟨s, moved, rfl⟩ := Option.map_eq_some_iff.mp stepped
          exact ext e _ _ moved ih

/-- Where the suspended tasks and every job that can start do only what is
allowed, a run keeps what is kept by all that is allowed. The tasks in `gone`
are never answered again. -/
theorem Run.keeps_under {M : System S} {ok : S.State → Label M → S.State → Prop} {a b : Config S}
    {R : S.State → Prop} {K : S.Cmd → Prop} {A : S.Req → Prop} {gone : Pid → Prop}
    (I : S.State → Prop) (reads : ∀ s, I s → R s) (cmds : ∀ c s, K c → I s → I (S.exec c s))
    (jobs : ∀ p j s s', M.begins p j s = some s' → I s → I s' ∧ (M.body j).Under R K A)
    (replies : ∀ p r x s s', A r → M.replies p r x s = some s' → I s → I s')
    (ext : ∀ e s s', ok s (.ext e) s' → M.ext e s = some s' → I s → I s')
    (dead : ∀ p r x s, gone p → I s → M.replies p r x s = none)
    (run : M.Run ok a b) (holds : I a.state)
    (pool : ∀ q k, a.pool q = some k → gone q ∨ k.Under R K A) :
    I b.state ∧ ∀ q k, b.pool q = some k → gone q ∨ k.Under R K A := by
  induction run with
  | refl => exact ⟨holds, pool⟩
  | @step b c l before stepped met ih =>
      obtain ⟨held, allowed⟩ := ih
      have ran : ∀ p (m : Co S Unit) s, I s → m.Under R K A →
          I (b.runTask p m s).state ∧
            ∀ q k, (b.runTask p m s).pool q = some k → gone q ∨ k.Under R K A := by
        intro p m s now under
        have moved := under.advance I reads cmds now
        refine ⟨moved.1, fun q k found => ?_⟩
        by_cases same : q = p
        · subst same
          simp only [Config.runTask, Function.update_self] at found
          exact .inr (moved.2 k found)
        · simp only [Config.runTask, Function.update_of_ne same] at found
          exact allowed q k found
      cases l with
      | start p j =>
          simp only [System.step] at stepped
          split at stepped
          · rename_i begun
            cases stepped
            obtain ⟨now, under⟩ := jobs p j _ _ begun held
            exact ran p _ _ now under
          · cases stepped
      | resume p answer =>
          simp only [System.step] at stepped
          split at stepped
          · rename_i r next waiting
            split at stepped
            · rename_i replied
              cases stepped
              rcases allowed p _ waiting with away | under
              · rw [dead p r _ _ away held] at replied
                cases replied
              · exact ran p _ _ (replies p r _ _ _ under.1 replied held) (under.2 _)
            · cases stepped
          · cases stepped
      | ext e =>
          obtain ⟨s, moved, rfl⟩ := Option.map_eq_some_iff.mp stepped
          exact ⟨ext e _ _ met moved held, allowed⟩

/-- Execute a list of labels. -/
def exec (c : Config S) : List (Label M) → Option (Config S)
  | [] => some c
  | l :: rest => (M.step l c).bind fun c' => exec c' rest

/-- A list of labels that executes is a run. -/
theorem run_of_exec {ls : List (Label M)} {c c' : Config S} (h : M.exec c ls = some c') :
    M.Run (fun _ _ _ => True) c c' := by
  suffices from_ : ∀ a, M.Run (fun _ _ _ => True) a c → M.Run (fun _ _ _ => True) a c' from
    from_ c (.refl c)
  induction ls generalizing c with
  | nil =>
      cases h
      exact fun _ before => before
  | cons l rest ih =>
      obtain ⟨mid, stepped, later⟩ := Option.bind_eq_some_iff.mp h
      exact fun a before => ih later a (.step l before stepped trivial)

/-- Execute a list of labels as long as each step meets the condition. -/
def execMeeting (ok : S.State → Label M → S.State → Prop) [∀ s l t, Decidable (ok s l t)]
    (c : Config S) : List (Label M) → Option (Config S)
  | [] => some c
  | l :: rest =>
      (M.step l c).bind fun c' =>
        if ok c.state l c'.state then execMeeting ok c' rest else none

/-- The same, where every label listed meets the condition wherever `I` holds,
and keeps `I`. -/
theorem run_of_exec_meeting {ok : S.State → Label M → S.State → Prop} (I : S.State → Prop)
    {ls : List (Label M)} {c c' : Config S}
    (meets : ∀ l ∈ ls, ∀ a b, I a.state → M.step l a = some b → ok a.state l b.state ∧ I b.state)
    (holds : I c.state) (h : M.exec c ls = some c') : M.Run ok c c' := by
  suffices from_ : ∀ a, M.Run ok a c → M.Run ok a c' from from_ c (.refl c)
  induction ls generalizing c with
  | nil =>
      cases h
      exact fun _ before => before
  | cons l rest ih =>
      obtain ⟨mid, stepped, later⟩ := Option.bind_eq_some_iff.mp h
      obtain ⟨met, still⟩ := meets l List.mem_cons_self c mid holds stepped
      intro a before
      refine ih (fun l' member => meets l' (List.mem_cons_of_mem l member)) still later a ?_
      exact .step l before stepped met

theorem Run.trans {M : System S} {ok : S.State → Label M → S.State → Prop} {a b c : Config S}
    (first : M.Run ok a b) (second : M.Run ok b c) : M.Run ok a c := by
  induction second with
  | refl => exact first
  | step l _ stepped met ih => exact .step l ih stepped met

theorem run_of_meeting {ok : S.State → Label M → S.State → Prop}
    [∀ s l t, Decidable (ok s l t)] (ls : List (Label M)) {c c' : Config S}
    (executed : M.execMeeting ok c ls = some c') : M.Run ok c c' := by
  induction ls generalizing c with
  | nil =>
      cases executed
      exact .refl _
  | cons l rest ih =>
      obtain ⟨mid, stepped, later⟩ := Option.bind_eq_some_iff.mp executed
      split at later
      · rename_i met
        exact (Run.step l (.refl _) stepped met).trans (ih later)
      · cases later

/-- A step leaves the other tasks where they are. -/
theorem step_pool {l : Label M} {c c' : Config S} (stepped : M.step l c = some c') {q : Pid}
    (other : l.pid ≠ some q) : c'.pool q = c.pool q := by
  have ran : ∀ p (m : Co S Unit) s, p ≠ q → (c.runTask p m s).pool q = c.pool q :=
    fun p m s different => Function.update_of_ne (Ne.symm different) _ _
  cases l with
  | start p j =>
      simp only [System.step] at stepped
      split at stepped
      · cases stepped
        exact ran p _ _ fun same => other (congrArg some same)
      · cases stepped
  | resume p answer =>
      simp only [System.step] at stepped
      split at stepped
      · split at stepped
        · cases stepped
          exact ran p _ _ fun same => other (congrArg some same)
        · cases stepped
      · cases stepped
  | ext e =>
      obtain ⟨s, -, rfl⟩ := Option.map_eq_some_iff.mp stepped
      rfl

theorem exec_pool {ls : List (Label M)} {c c' : Config S} (h : M.exec c ls = some c') {q : Pid}
    (other : ∀ l ∈ ls, l.pid ≠ some q) : c'.pool q = c.pool q := by
  induction ls generalizing c with
  | nil =>
      cases h
      rfl
  | cons l rest ih =>
      obtain ⟨mid, stepped, later⟩ := Option.bind_eq_some_iff.mp h
      rw [ih later fun l' member => other l' (List.mem_cons_of_mem l member),
        M.step_pool stepped (other l List.mem_cons_self)]

theorem run_exec (ls : List (Label M)) {c : Config S} (h : (M.exec c ls).isSome = true) :
    M.Run (fun _ _ _ => True) c ((M.exec c ls).getD c) := by
  obtain ⟨c', executed⟩ := Option.isSome_iff_exists.mp h
  rw [executed]
  exact M.run_of_exec executed

theorem exec_getD {ls : List (Label M)} {c : Config S} (h : (M.exec c ls).isSome = true) :
    M.exec c ls = some ((M.exec c ls).getD c) := by
  obtain ⟨c', executed⟩ := Option.isSome_iff_exists.mp h
  rw [executed]
  rfl

theorem step_getD {l : Label M} {c : Config S} (h : (M.step l c).isSome = true) :
    M.step l c = some ((M.step l c).getD c) := by
  obtain ⟨c', stepped⟩ := Option.isSome_iff_exists.mp h
  rw [stepped]
  rfl

end System

/-! ### Rely and guarantee -/

/-- What a task may assume of others between its waits (`rely`), what it gives
them (`guar`), and what holds whenever nobody runs (`inv`); `ok` is the
condition the run's steps meet. -/
structure RelyGuarantee (M : System S) where
  rely : Pid → S.State → S.State → Prop
  guar : Pid → S.State → S.State → Prop
  inv : S.State → Prop
  ok : S.State → Label M → S.State → Prop
  rely_trans : ∀ {p s s' s''}, rely p s s' → rely p s' s'' → rely p s s''
  rely_refl : ∀ {p s}, inv s → rely p s s
  guar_refl : ∀ {p s}, guar p s s
  guar_trans : ∀ {p s s' s''}, guar p s s' → guar p s' s'' → guar p s s''
  /-- A step of one task is one the others rely on. -/
  interfere : ∀ {p s s' l}, inv s → guar p s s' → l.pid = some p → ok s l s' →
    inv s' ∧ ∀ q, q ≠ p → rely q s s'
  /-- So is a step of the environment. -/
  external : ∀ {e s s'}, inv s → M.ext e s = some s' → ok s (.ext e) s' →
    inv s' ∧ ∀ q, rely q s s'

namespace RelyGuarantee

variable {M : System S} (L : RelyGuarantee M)

/-- From `s`, the program keeps its guarantee whatever the others do across its
waits, and ends only in states with `Q`. -/
def Holds (p : Pid) (Q : α → S.State → Prop) : Co S α → S.State → Prop
  | .ret a, s => Q a s
  | .raise, _ => True
  | .read next, s => Holds p Q (next s) s
  | .act c next, s => L.guar p s (S.exec c s) ∧ Holds p Q next (S.exec c s)
  | .wait r next, s => ∀ s', L.rely p s s' → L.inv s' → ∀ a s'', M.replies p r a s' = some s'' →
      L.guar p s' s'' ∧ Holds p Q (next a) s''

variable {L} {p : Pid} {s s' : S.State}

theorem holds_bind {m : Co S α} {k : α → Co S β} {Q : β → S.State → Prop}
    (h : L.Holds p (fun a t => L.Holds p Q (k a) t) m s) : L.Holds p Q (m.bind k) s := by
  induction m generalizing s with
  | ret a => exact h
  | raise => trivial
  | read next ih => exact ih s h
  | act c next ih => exact ⟨h.1, ih h.2⟩
  | wait r next ih =>
      intro s' relied held a s'' replied
      obtain ⟨kept, rest⟩ := h s' relied held a s'' replied
      exact ⟨kept, ih a rest⟩

theorem Holds.mono {m : Co S α} {Q Q' : α → S.State → Prop} (h : L.Holds p Q m s)
    (weaker : ∀ a t, Q a t → Q' a t) : L.Holds p Q' m s := by
  induction m generalizing s with
  | ret a => exact weaker a s h
  | raise => trivial
  | read next ih => exact ih s h
  | act c next ih => exact ⟨h.1, ih h.2⟩
  | wait r next ih =>
      intro s' relied held a s'' replied
      obtain ⟨kept, rest⟩ := h s' relied held a s'' replied
      exact ⟨kept, ih a rest⟩

/-- What holds of the rest in any state holds of it after a first part. -/
theorem holds_seq {m : Co S α} {k : α → Co S β} {Q : β → S.State → Prop}
    (first : L.Holds p (fun _ _ => True) m s) (rest : ∀ a t, L.Holds p Q (k a) t) :
    L.Holds p Q (m.bind k) s :=
  holds_bind (first.mono fun a t _ => rest a t)

/-- A property that every command of a program keeps, with the guarantee, and
that every answer finds again after what others did. -/
theorem holds_keeps {m : Co S α} {K : S.Cmd → Prop} {A : S.Req → Prop} {E : Prop}
    (P : S.State → Prop)
    (cmds : ∀ c t, K c → P t → L.guar p t (S.exec c t) ∧ P (S.exec c t))
    (answers : ∀ r a t t' t'', A r → P t → L.rely p t t' → L.inv t' →
      M.replies p r a t' = some t'' → L.guar p t' t'' ∧ P t'')
    (only : m.Only K A E) (holds : P s) : L.Holds p (fun _ t => P t) m s := by
  induction m generalizing s with
  | ret a => exact holds
  | raise => trivial
  | read next ih => exact ih s (only s) holds
  | act c next ih =>
      obtain ⟨kept, still⟩ := cmds c s only.1 holds
      exact ⟨kept, ih only.2 still⟩
  | wait r next ih =>
      intro s' relied held a s'' replied
      obtain ⟨kept, still⟩ := answers r a s s' s'' only.1 holds relied held replied
      exact ⟨kept, ih a (only.2 a) still⟩

/-- A program all of whose commands and answers keep the guarantee keeps it. -/
theorem holds_of_only {m : Co S α} {K : S.Cmd → Prop} {A : S.Req → Prop} {E : Prop}
    (cmds : ∀ c t, K c → L.guar p t (S.exec c t))
    (answers : ∀ r a t t', A r → M.replies p r a t = some t' → L.guar p t t')
    (only : m.Only K A E) : L.Holds p (fun _ _ => True) m s :=
  holds_keeps (fun _ => True) (fun c t listed _ => ⟨cmds c t listed, trivial⟩)
    (fun r a _ t' t'' listed _ _ _ replied => ⟨answers r a t' t'' listed replied, trivial⟩)
    only trivial

/-- A loop keeps what each round keeps. -/
theorem holds_forEach {xs : List ι} {body : ι → Co S Unit} (I : List ι → S.State → Prop)
    (round : ∀ x rest t, I (x :: rest) t → L.Holds p (fun _ t' => I rest t') (body x) t)
    (start : I xs s) : L.Holds p (fun _ t => I [] t) (Co.forEach xs body) s := by
  induction xs generalizing s with
  | nil => exact start
  | cons x rest ih => exact holds_bind ((round x rest s start).mono fun _ t kept => ih kept)

/-- A suspended task is not disturbed by what it relies on. -/
theorem Holds.stable {r : S.Req} {next : S.Ans r → Co S α} {Q : α → S.State → Prop}
    (h : L.Holds p Q (.wait r next) s) (relied : L.rely p s s') :
    L.Holds p Q (.wait r next) s' :=
  fun t later held a t' replied => h t (L.rely_trans relied later) held a t' replied

theorem Holds.advance {m : Co S Unit} (h : L.Holds p (fun _ _ => True) m s) :
    L.guar p s (m.advance s).2 ∧
      ∀ k, (m.advance s).1.parked = some k → L.Holds p (fun _ _ => True) k (m.advance s).2 := by
  induction m generalizing s with
  | ret a => exact ⟨L.guar_refl, by rintro k ⟨⟩⟩
  | raise => exact ⟨L.guar_refl, by rintro k ⟨⟩⟩
  | read next ih => exact ih s h
  | act c next ih => exact ⟨L.guar_trans h.1 (ih h.2).1, (ih h.2).2⟩
  | wait r next ih =>
      refine ⟨L.guar_refl, fun k parked => ?_⟩
      cases parked
      exact h

/-- Every suspended task keeps its guarantee from here on. -/
def Safe (L : RelyGuarantee M) (c : Config S) : Prop :=
  L.inv c.state ∧ ∀ q k, c.pool q = some k → L.Holds q (fun _ _ => True) k c.state

theorem parked_is_wait {m k : Co S Unit} (h : m.parked = some k) : ∃ r next, k = .wait r next := by
  cases m with
  | wait r next =>
      cases h
      exact ⟨r, next, rfl⟩
  | _ => cases h

/-- Every task in the pool is suspended at a wait. -/
def Parked (c : Config S) : Prop := ∀ q k, c.pool q = some k → ∃ r next, k = .wait r next

theorem runTask_guar {c : Config S} {m : Co S Unit} {t : S.State}
    (kept : L.guar p c.state t) (h : L.Holds p (fun _ _ => True) m t) :
    L.guar p c.state (c.runTask p m t).state := L.guar_trans kept h.advance.1

theorem runTask_safe {c : Config S} {m : Co S Unit} {t : S.State} {l : Label M}
    (safe : L.Safe c) (parked : Parked c) (kept : L.guar p c.state t)
    (h : L.Holds p (fun _ _ => True) m t) (owner : l.pid = some p)
    (met : L.ok c.state l (c.runTask p m t).state) :
    L.Safe (c.runTask p m t) ∧ Parked (c.runTask p m t) := by
  have moved := h.advance
  obtain ⟨held, others⟩ := L.interfere safe.1 (runTask_guar kept h) owner met
  refine ⟨⟨held, fun q k found => ?_⟩, fun q k found => ?_⟩
  · by_cases same : q = p
    · subst same
      simp only [Config.runTask, Function.update_self] at found
      exact moved.2 k found
    · simp only [Config.runTask, Function.update_of_ne same] at found
      obtain ⟨r, next, rfl⟩ := parked q k found
      exact (safe.2 q _ found).stable (others q same)
  · by_cases same : q = p
    · subst same
      simp only [Config.runTask, Function.update_self] at found
      exact parked_is_wait found
    · simp only [Config.runTask, Function.update_of_ne same] at found
      exact parked q k found

/-- The jobs a system can start keep their guarantee. -/
def JobsSafe (L : RelyGuarantee M) : Prop :=
  ∀ p j s s', L.inv s → M.begins p j s = some s' →
    L.guar p s s' ∧ L.Holds p (fun _ _ => True) (M.body j) s'

/-- A task keeps its guarantee in each of its steps. -/
theorem step_guar (jobs : L.JobsSafe) {c c' : Config S} {l : Label M} (safe : L.Safe c)
    (stepped : M.step l c = some c') (owner : l.pid = some p) : L.guar p c.state c'.state := by
  cases l with
  | start q j =>
      cases owner
      simp only [System.step] at stepped
      split at stepped
      · rename_i begun
        cases stepped
        obtain ⟨kept, h⟩ := jobs p j _ _ safe.1 begun
        exact runTask_guar kept h
      · cases stepped
  | resume q answer =>
      cases owner
      simp only [System.step] at stepped
      split at stepped
      · rename_i r next waiting
        split at stepped
        · rename_i t replied
          cases stepped
          obtain ⟨kept, h⟩ := safe.2 p _ waiting _ (L.rely_refl safe.1) safe.1 _ _ replied
          exact runTask_guar kept h
        · cases stepped
      · cases stepped
  | ext e => cases owner

/-- One step of a system whose jobs are safe. -/
theorem step_safe (jobs : L.JobsSafe) {c c' : Config S} {l : Label M} (safe : L.Safe c)
    (parked : Parked c) (stepped : M.step l c = some c') (met : L.ok c.state l c'.state) :
    L.Safe c' ∧ Parked c' := by
  cases l with
  | start p j =>
      simp only [System.step] at stepped
      split at stepped
      · rename_i begun
        cases stepped
        obtain ⟨kept, h⟩ := jobs p j _ _ safe.1 begun
        exact runTask_safe safe parked kept h (l := .start p j) rfl met
      · cases stepped
  | resume p answer =>
      simp only [System.step] at stepped
      split at stepped
      · rename_i r next waiting
        split at stepped
        · rename_i t replied
          cases stepped
          obtain ⟨kept, h⟩ := safe.2 p _ waiting _ (L.rely_refl safe.1) safe.1 _ _ replied
          exact runTask_safe safe parked kept h (l := .resume p answer) rfl met
        · cases stepped
      · cases stepped
  | ext e =>
      obtain ⟨t, moved, rfl⟩ := Option.map_eq_some_iff.mp stepped
      obtain ⟨held, others⟩ := L.external safe.1 moved met
      refine ⟨⟨held, fun q k found => ?_⟩, parked⟩
      obtain ⟨r, next, rfl⟩ := parked q k found
      exact (safe.2 q _ found).stable (others q)

/-- Along a run whose steps meet the condition, every configuration is safe. -/
theorem safe_of_run (jobs : L.JobsSafe) {c c' : Config S} (safe : L.Safe c) (parked : Parked c)
    (run : M.Run L.ok c c') : L.Safe c' ∧ Parked c' := by
  induction run with
  | refl => exact ⟨safe, parked⟩
  | step l _ stepped met ih => exact step_safe jobs ih.1 ih.2 stepped met

/-- What every guarantee and every step of the environment gives, a run whose
steps meet the condition gives from its first state to its last. -/
theorem related_of_run (jobs : L.JobsSafe) {R : S.State → S.State → Prop} (refl : ∀ s, R s s)
    (trans : ∀ {s s' s''}, R s s' → R s' s'' → R s s'')
    (tasks : ∀ {p s s'}, L.guar p s s' → R s s')
    (exts : ∀ {e s s'}, M.ext e s = some s' → R s s') {a b : Config S} (safe : L.Safe a)
    (parked : Parked a) (run : M.Run L.ok a b) : R a.state b.state := by
  induction run with
  | refl => exact refl _
  | @step b c l before stepped met ih =>
      refine trans ih ?_
      have safe' := (safe_of_run jobs safe parked before).1
      cases l with
      | start p j => exact tasks (step_guar jobs safe' stepped rfl)
      | resume p answer => exact tasks (step_guar jobs safe' stepped rfl)
      | ext e =>
          obtain ⟨s, moved, rfl⟩ := Option.map_eq_some_iff.mp stepped
          exact exts moved

end RelyGuarantee

end Coroutine
