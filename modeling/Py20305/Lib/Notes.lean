import Py20305.Lib.Coroutine

/-!
Notes on the tasks of a system.

A `Notebook` says what is noted of a task when it issues a command and when it is answered. Nothing
in the system reads the notes. `Co.Issues` says of a program which commands it issues with which
notes, and after which wait (`Resumption`), whatever it reads and is answered;
`System.issued_of_run` says it of every step of a run.
-/

namespace Coroutine

variable {S : Sig}

/-- What is noted of a task: `issues` of a command in the state it is issued in, `gets` of an
answer. -/
structure Notebook (S : Sig) where
  Note : Type
  blank : Note
  issues : S.Cmd → S.State → Note → Note
  gets : (r : S.Req) → S.Ans r → Note → Note

/-- The wait a program goes on from: what was noted, what it waited for, the program after it, and
the answer. -/
structure Notebook.Resumption (N : Notebook S) (α : Type) where
  note : N.Note
  request : S.Req
  next : S.Ans request → Co S α
  answer : S.Ans request

/-- The same, of a program that this one is the first part of. -/
def Notebook.Resumption.bind {N : Notebook S} {α β : Type} (o : N.Resumption α) (k : α → Co S β) :
    N.Resumption β where
  note := o.note
  request := o.request
  next := fun x => (o.next x).bind k
  answer := o.answer

/-- A condition on a command, in terms of the wait the program has gone on from, where it is known,
and the note. -/
abbrev Notebook.Known (N : Notebook S) :=
  (α : Type) → Option (N.Resumption α) → N.Note → S.Cmd → Prop

/-- A condition on a command still holds when more is known of the program it is issued in. -/
structure Notebook.Known.Grows {N : Notebook S} (K : N.Known) : Prop where
  bind : ∀ {α β : Type} {o : N.Resumption α} (k : α → Co S β) {n : N.Note} {c : S.Cmd},
    K α (some o) n c → K β (some (o.bind k)) n c
  widen : ∀ {α β : Type} (o : Option (N.Resumption β)) {n : N.Note} {c : S.Cmd},
    K α none n c → K β o n c

/-- A condition on an answer, in terms of the note, the request and what comes after it. -/
abbrev Notebook.Met (N : Notebook S) :=
  (α : Type) → N.Note → (r : S.Req) → (S.Ans r → Co S α) → S.Ans r → Prop

/-- A condition on a program still holds of what it is the first part of. -/
def Notebook.Met.Closed {N : Notebook S} (met : N.Met) : Prop :=
  ∀ {α β : Type} (n : N.Note) (r : S.Req) (next : S.Ans r → Co S α) (k : α → Co S β) (a : S.Ans r),
    met β n r (fun x => (next x).bind k) a → met α n r next a

namespace Co

variable {N : Notebook S} {α β : Type}

theorem bind_assoc {γ : Type} (m : Co S α) (k : α → Co S β) (l : β → Co S γ) :
    (m.bind k).bind l = m.bind fun a => (k a).bind l := by
  induction m with
  | ret a => rfl
  | raise => rfl
  | read next ih => exact congrArg Co.read (funext ih)
  | act c next ih => exact congrArg (Co.act c) ih
  | wait r next ih => exact congrArg (Co.wait r) (funext ih)

theorem bind_ret (m : Co S α) : m.bind .ret = m := by
  induction m with
  | ret a => rfl
  | raise => rfl
  | read next ih => exact congrArg Co.read (funext ih)
  | act c next ih => exact congrArg (Co.act c) ih
  | wait r next ih => exact congrArg (Co.wait r) (funext ih)

/-- The note at the next wait. -/
def noted (N : Notebook S) : Co S α → S.State → N.Note → N.Note
  | read next, s, n => (next s).noted N s n
  | act c next, s, n => next.noted N (S.exec c s) (N.issues c s n)
  | _, _, n => n

/-- The commands issued up to the next wait, each with the note before it. -/
def issuing (N : Notebook S) : Co S α → S.State → N.Note → List (N.Note × S.Cmd)
  | read next, s, n => (next s).issuing N s n
  | act c next, s, n => (n, c) :: next.issuing N (S.exec c s) (N.issues c s n)
  | _, _, _ => []

/-- Every command is issued as in `K`, in whatever state the program goes on after an answer, as
long as the answers meet the condition. -/
def Issues (met : N.Met) (K : N.Known) :
    Option (N.Resumption α) → Co S α → S.State → N.Note → Prop
  | _, ret _, _, _ => True
  | _, raise, _, _ => True
  | o, read next, s, n => Issues met K o (next s) s n
  | o, act c next, s, n => K α o n c ∧ Issues met K o next (S.exec c s) (N.issues c s n)
  | _, wait r next, _, n => ∀ s a, met α n r next a →
      Issues met K (some ⟨n, r, next, a⟩) (next a) s (N.gets r a n)

namespace Issues

variable {met : N.Met} {K : N.Known} {s : S.State} {n : N.Note}

theorem widen (grows : K.Grows) {m : Co S α} (o : Option (N.Resumption α))
    (issues : Issues met K none m s n) : Issues met K o m s n := by
  induction m generalizing s n with
  | ret a => trivial
  | raise => trivial
  | read next ih => exact ih s issues
  | act c next ih => exact ⟨grows.widen o issues.1, ih issues.2⟩
  | wait r next => exact issues

theorem bind (closed : met.Closed) (grows : K.Grows) {o : Option (N.Resumption α)} {m : Co S α}
    {k : α → Co S β} (first : Issues met K o m s n)
    (rest : ∀ a s n, Issues met K none (k a) s n) :
    Issues met K (o.map (·.bind k)) (m.bind k) s n := by
  induction m generalizing o s n with
  | ret a => exact (rest a s n).widen grows _
  | raise => trivial
  | read next ih => exact ih s first
  | act c next ih =>
      refine ⟨?_, ih first.2⟩
      cases o with
      | none => exact grows.widen _ first.1
      | some o => exact grows.bind k first.1
  | wait r next ih =>
      intro t a allowed
      exact ih a (first t a (closed n r next k a allowed))

/-- A program that issues only commands that are always fine. -/
theorem of_only {o : Option (N.Resumption α)} {m : Co S α} {A : S.Req → Prop} {E : Prop}
    {C : S.Cmd → Prop} (plain : ∀ o n c, C c → K α o n c) (only : m.Only C A E) :
    Issues met K o m s n := by
  induction m generalizing o s n with
  | ret a => trivial
  | raise => trivial
  | read next ih => exact ih s (only s)
  | act c next ih => exact ⟨plain o n c only.1, ih only.2⟩
  | wait r next ih => exact fun t a _ => ih a (only.2 a)

/-- Up to the next wait the commands are as in `K`, and what is left issues no others. -/
theorem advance {o : Option (N.Resumption Unit)} {m : Co S Unit} (issues : Issues met K o m s n) :
    (∀ x ∈ m.issuing N s n, K Unit o x.1 x.2) ∧
      ∀ k, (m.advance s).1.parked = some k → ∀ o' t, Issues met K o' k t (m.noted N s n) := by
  induction m generalizing s n with
  | ret a => exact ⟨by rintro x ⟨⟩, by rintro k ⟨⟩⟩
  | raise => exact ⟨by rintro x ⟨⟩, by rintro k ⟨⟩⟩
  | read next ih => exact ih s issues
  | act c next ih =>
      obtain ⟨each, left⟩ := ih issues.2
      refine ⟨fun x listed => ?_, left⟩
      rcases List.mem_cons.mp listed with rfl | later
      · exact issues.1
      · exact each x later
  | wait r next =>
      refine ⟨by rintro x ⟨⟩, fun k parked o' t => ?_⟩
      cases parked
      exact issues

end Issues

end Co

/-! ### Systems -/

namespace System

variable (M : System S) (N : Notebook S)

/-- What a step runs up to the next wait: the task, its program, and the state and the note it
starts from. -/
structure Segment where
  pid : Pid
  program : Co S Unit
  state : S.State
  note : N.Note

/-- What a step runs, if it is a task's. -/
def segment (notes : Pid → N.Note) (c : Config S) : Label M → Option (Segment N)
  | .start p j => (M.begins p j c.state).map fun s => ⟨p, M.body j, s, N.blank⟩
  | .resume p answer =>
      match c.pool p with
      | some (.wait r next) =>
          (M.replies p r (answer r) c.state).map fun s =>
            ⟨p, next (answer r), s, N.gets r (answer r) (notes p)⟩
      | _ => none
  | .ext _ => none

/-- The notes after a step. -/
def notesAfter (notes : Pid → N.Note) (c : Config S) (l : Label M) : Pid → N.Note :=
  match M.segment N notes c l with
  | none => notes
  | some ran => Function.update notes ran.pid (ran.program.noted N ran.state ran.note)

/-- The commands a step issues. -/
def issuedBy (notes : Pid → N.Note) (c : Config S) (l : Label M) : List (N.Note × S.Cmd) :=
  match M.segment N notes c l with
  | none => []
  | some ran => ran.program.issuing N ran.state ran.note

/-- The wait a step goes on from, if it is a task's that has waited. -/
def resumption (notes : Pid → N.Note) (c : Config S) : Label M → Option (N.Resumption Unit)
  | .resume p answer =>
      match c.pool p with
      | some (.wait r next) => some ⟨notes p, r, next, answer r⟩
      | _ => none
  | _ => none

/-- The answer a step gives, if it gives one, meets the condition. -/
def AnswerMeets {N : Notebook S} (met : N.Met) (notes : Pid → N.Note) (c : Config S)
    (l : Label M) : Prop :=
  ∀ p answer r next, l = .resume p answer → c.pool p = some (.wait r next) →
    met Unit (notes p) r next (answer r)

/-- Runs with their notes. -/
inductive NotedRun {N : Notebook S} (met : N.Met) (a : Config S) (notes : Pid → N.Note) :
    Config S → (Pid → N.Note) → Prop where
  | refl : NotedRun met a notes a notes
  | step {b c : Config S} {notes' : Pid → N.Note} (l : Label M) : NotedRun met a notes b notes' →
      M.step l b = some c → M.AnswerMeets met notes' b l →
      NotedRun met a notes c (M.notesAfter N notes' b l)

variable {M N} {met : N.Met} {K : N.Known} {a b c : Config S}
  {notes notes' : Pid → N.Note}

/-- Every run can be noted. -/
theorem exists_notedRun {ok : S.State → Label M → S.State → Prop} (run : M.Run ok a b)
    (any : ∀ α n r next x, met α n r next x) (notes : Pid → N.Note) :
    ∃ notes', M.NotedRun met a notes b notes' := by
  induction run with
  | refl => exact ⟨notes, .refl⟩
  | step l _ stepped _ ih =>
      obtain ⟨notes', before⟩ := ih
      exact ⟨_, .step l before stepped fun _ _ _ _ _ _ => any _ _ _ _ _⟩

/-- Any answer. -/
def AnyAnswer : N.Met := fun _ _ _ _ _ => True

variable (M N) in
/-- Take the steps one after the other, with the notes. -/
def execNoted (notes : Pid → N.Note) (c : Config S) :
    List (Label M) → Option (Config S × (Pid → N.Note))
  | [] => some (c, notes)
  | l :: rest => (M.step l c).bind fun c' => execNoted (M.notesAfter N notes c l) c' rest

/-- A list of labels that executes is a run. -/
theorem notedRun_of_exec (ls : List (Label M))
    (executed : M.execNoted N notes a ls = some (b, notes')) :
    M.NotedRun (AnyAnswer (N := N)) a notes b notes' := by
  have all : ∀ ls c (seen : Pid → N.Note), M.NotedRun (AnyAnswer (N := N)) a notes c seen →
      M.execNoted N seen c ls = some (b, notes') →
        M.NotedRun (AnyAnswer (N := N)) a notes b notes' := by
    intro ls
    induction ls with
    | nil =>
        intro c seen before executed
        cases executed
        exact before
    | cons l rest ih =>
        intro c seen before executed
        obtain ⟨mid, stepped, later⟩ := Option.bind_eq_some_iff.mp executed
        exact ih mid _ (.step l before stepped fun _ _ _ _ _ _ => trivial) later
  exact all ls a notes .refl executed

/-- Whatever is left to do issues only such commands. -/
def Issuing (met : N.Met) (K : N.Known) (c : Config S) (notes : Pid → N.Note) : Prop :=
  ∀ p k, c.pool p = some k → ∀ o s, Co.Issues met K o k s (notes p)

/-- One step: its commands are as in `K`, and so will those be of what is left. -/
theorem issued_of_step (jobs : ∀ j s, Co.Issues met K none (M.body j) s N.blank) {l : Label M}
    (issuing : Issuing met K b notes) (stepped : M.step l b = some c)
    (meets : M.AnswerMeets met notes b l) :
    (∀ x ∈ M.issuedBy N notes b l, K Unit (M.resumption N notes b l) x.1 x.2) ∧
      Issuing met K c (M.notesAfter N notes b l) := by
  have ran : ∀ (p : Pid) (m : Co S Unit) (s : S.State) (n : N.Note) (o : Option (N.Resumption Unit)),
      Co.Issues met K o m s n → (∀ x ∈ m.issuing N s n, K Unit o x.1 x.2) ∧
        Issuing met K (b.runTask p m s) (Function.update notes p (m.noted N s n)) := by
    intro p m s n o issues
    obtain ⟨each, left⟩ := issues.advance
    refine ⟨each, fun q k found o' t => ?_⟩
    by_cases same : q = p
    · subst same
      simp only [Config.runTask, Function.update_self] at found
      rw [Function.update_self]
      exact left k found o' t
    · simp only [Config.runTask, Function.update_of_ne same] at found
      have kept : Function.update notes p (m.noted N s n) q = notes q :=
        Function.update_of_ne same _ _
      exact kept ▸ issuing q k found o' t
  cases l with
  | start p j =>
      simp only [System.step] at stepped
      split at stepped
      · rename_i s vacant begun
        cases stepped
        simp only [issuedBy, notesAfter, segment, resumption, begun, Option.map_some]
        exact ran p (M.body j) s N.blank none (jobs j s)
      · cases stepped
  | resume p answer =>
      simp only [System.step] at stepped
      split at stepped
      · rename_i r next waiting
        split at stepped
        · rename_i s replied
          cases stepped
          simp only [issuedBy, notesAfter, segment, resumption, waiting, replied, Option.map_some]
          exact ran p (next (answer r)) s _ _
            (issuing p _ waiting none s s (answer r) (meets p answer r next rfl waiting))
        · cases stepped
      · cases stepped
  | ext e =>
      obtain ⟨s, -, rfl⟩ := Option.map_eq_some_iff.mp stepped
      simp only [issuedBy, notesAfter, segment]
      exact ⟨by rintro x ⟨⟩, issuing⟩

/-- Every step of a run issues only such commands. -/
theorem issued_of_run (jobs : ∀ j s, Co.Issues met K none (M.body j) s N.blank)
    (vacant : ∀ p, a.pool p = none) (run : M.NotedRun met a notes b notes') {l : Label M}
    (stepped : M.step l b = some c) (meets : M.AnswerMeets met notes' b l) :
    ∀ x ∈ M.issuedBy N notes' b l, K Unit (M.resumption N notes' b l) x.1 x.2 := by
  have issuing : Issuing met K b notes' := by
    clear stepped meets
    induction run with
    | refl =>
        intro p k found
        rw [vacant p] at found
        cases found
    | step l _ stepped meets ih => exact (issued_of_step jobs ih stepped meets).2
  exact (issued_of_step jobs issuing stepped meets).1

end System

end Coroutine
