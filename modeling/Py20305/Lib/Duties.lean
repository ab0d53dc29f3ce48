import Py20305.Lib.Coroutine

/-!
Duties that tasks take on.

A step may leave the state in need of something that only a later command brings about, such as
giving back what was taken. The task that makes the need takes on the duty: it holds a ticket, and
whatever it reads and is answered, it will issue a command that settles the ticket (`Co.Reaches`).
`Duties.Dutiful` says so of a task, command by command, as `RelyGuarantee.Holds` does of a
guarantee.

A `Course` is a run whose steps meet conditions of two kinds: one on the state before the step and
one on every command, in the state it is issued in (`Co.Heeds`). Along a course of dutiful tasks
every need has a task that sees to it (`Duties.seen_of_course`), so where no task is left nothing
is needed.
-/

namespace Coroutine

variable {S : Sig} {α β ι : Type}

namespace Co

/-! ### What a program issues -/

/-- Up to its next wait, every command `m` issues meets `C` in the state it is issued in. -/
def Heeds (C : S.Cmd → S.State → Prop) : Co S α → S.State → Prop
  | ret _, _ => True
  | raise, _ => True
  | read next, s => Heeds C (next s) s
  | act c next, s => C c s ∧ Heeds C next (S.exec c s)
  | wait _ _, _ => True

instance Heeds.decidable (C : S.Cmd → S.State → Prop) [∀ c s, Decidable (C c s)] :
    (m : Co S α) → (s : S.State) → Decidable (m.Heeds C s)
  | ret _, _ => isTrue trivial
  | raise, _ => isTrue trivial
  | read next, s => Heeds.decidable C (next s) s
  | act c next, s =>
      have := Heeds.decidable C next (S.exec c s)
      inferInstanceAs (Decidable (_ ∧ _))
  | wait _ _, _ => isTrue trivial

/-- On every path `m` issues a command of `K`, as long as every state it reads satisfies `R`, and
before it waits unless `late`. -/
def Reaches (R : S.State → Prop) (K : S.Cmd → Prop) (late : Prop) : Co S α → Prop
  | ret _ => False
  | raise => False
  | read next => ∀ s, R s → Reaches R K late (next s)
  | act c next => K c ∨ Reaches R K late next
  | wait _ next => late ∧ ∀ a, Reaches R K late (next a)

namespace Reaches

variable {R : S.State → Prop} {K : S.Cmd → Prop} {late : Prop}

theorem bind {m : Co S α} (h : m.Reaches R K late) (k : α → Co S β) :
    (m.bind k).Reaches R K late := by
  induction m with
  | ret a => exact h.elim
  | raise => exact h.elim
  | read next ih => exact fun s reads => ih s (h s reads)
  | act c next ih => exact h.imp_right ih
  | wait r next ih => exact ⟨h.1, fun a => ih a (h.2 a)⟩

/-- A first part that returns, whatever happens, leaves it to the rest. -/
theorem after {m : Co S α} {k : α → Co S β} {K' : S.Cmd → Prop} {A : S.Req → Prop}
    (returns : m.Only K' A False) (waits : ∀ r, A r → late)
    (rest : ∀ a, (k a).Reaches R K late) : (m.bind k).Reaches R K late := by
  induction m with
  | ret a => exact rest a
  | raise => exact returns.elim
  | read next ih => exact fun s _ => ih s (returns s)
  | act c next ih => exact .inr (ih returns.2)
  | wait r next ih => exact ⟨waits r returns.1, fun a => ih a (returns.2 a)⟩

/-- A loop that returns from every round issues what one of its rounds does. -/
theorem forEach {xs : List ι} {body : ι → Co S Unit} {K' : S.Cmd → Prop} {A : S.Req → Prop}
    (returns : ∀ x ∈ xs, (body x).Only K' A False) (waits : ∀ r, A r → late) {x : ι}
    (member : x ∈ xs) (h : (body x).Reaches R K late) : (Co.forEach xs body).Reaches R K late := by
  induction xs with
  | nil => cases member
  | cons y rest ih =>
      rcases List.mem_cons.mp member with rfl | later
      · exact h.bind _
      · refine after (returns y List.mem_cons_self) waits fun _ => ?_
        exact ih (fun z listed => returns z (List.mem_cons_of_mem y listed)) later

end Reaches

end Co

/-! ### Courses -/

namespace System

variable (M : System S)

/-- The program a step runs, and the state it runs from. -/
def stretch : Label M → Config S → Option (Co S Unit × S.State)
  | .start p j, c => (M.begins p j c.state).map fun s => (M.body j, s)
  | .resume p answer, c =>
      match c.pool p with
      | some (.wait r next) => (M.replies p r (answer r) c.state).map fun s => (next (answer r), s)
      | _ => none
  | .ext _, _ => none

/-- Every command of the step meets `C`. -/
def Heedful (C : S.Cmd → S.State → Prop) (l : Label M) (c : Config S) : Prop :=
  ∀ x ∈ M.stretch l c, x.1.Heeds C x.2

/-- Runs whose steps all meet `ok`, and whose commands all meet `C`. -/
inductive Course (ok : S.State → Label M → Prop) (C : S.Cmd → S.State → Prop) :
    Config S → Config S → Prop where
  | refl (c : Config S) : Course ok C c c
  | step {a b c : Config S} (l : Label M) : Course ok C a b → ok b.state l → M.Heedful C l b →
      M.step l b = some c → Course ok C a c

variable {M}

/-- The list of labels executes, and makes a course. -/
def Follows (ok : S.State → Label M → Prop) (C : S.Cmd → S.State → Prop) :
    List (Label M) → Config S → Prop
  | [], _ => True
  | l :: rest, c => ok c.state l ∧ M.Heedful C l c ∧ ∀ b ∈ M.step l c, Follows ok C rest b

instance (C : S.Cmd → S.State → Prop) [∀ c s, Decidable (C c s)] (l : Label M) (c : Config S) :
    Decidable (M.Heedful C l c) :=
  inferInstanceAs (Decidable (∀ x ∈ M.stretch l c, x.1.Heeds C x.2))

instance Follows.decidable (ok : S.State → Label M → Prop) (C : S.Cmd → S.State → Prop)
    [∀ s l, Decidable (ok s l)] [∀ c s, Decidable (C c s)] :
    (ls : List (Label M)) → (c : Config S) → Decidable (Follows ok C ls c)
  | [], _ => isTrue trivial
  | l :: rest, c =>
      have : ∀ b, Decidable (Follows ok C rest b) := Follows.decidable ok C rest
      inferInstanceAs (Decidable (ok c.state l ∧ M.Heedful C l c ∧
        ∀ b ∈ M.step l c, Follows ok C rest b))

theorem course_of_exec {ok : S.State → Label M → Prop} {C : S.Cmd → S.State → Prop}
    {ls : List (Label M)} {c c' : Config S} (follows : Follows ok C ls c)
    (executed : M.exec c ls = some c') : M.Course ok C c c' := by
  suffices from_ : ∀ a, M.Course ok C a c → M.Course ok C a c' from from_ c (.refl c)
  induction ls generalizing c with
  | nil =>
      cases executed
      exact fun _ before => before
  | cons l rest ih =>
      obtain ⟨mid, stepped, later⟩ := Option.bind_eq_some_iff.mp executed
      intro a before
      exact ih (follows.2.2 mid stepped) later a (.step l before follows.1 follows.2.1 stepped)

/-- Only the tasks that a step belongs to can be in the pool after it. -/
theorem pool_of_exec {ls : List (Label M)} {c c' : Config S} (executed : M.exec c ls = some c')
    {q : Pid} (others : ∀ l ∈ ls, l.pid ≠ some q) : c'.pool q = c.pool q := by
  induction ls generalizing c with
  | nil =>
      cases executed
      rfl
  | cons l rest ih =>
      obtain ⟨mid, stepped, later⟩ := Option.bind_eq_some_iff.mp executed
      rw [ih later fun l' member => others l' (List.mem_cons_of_mem l member)]
      have other := others l List.mem_cons_self
      cases l with
      | start p j =>
          simp only [System.step] at stepped
          split at stepped
          · cases stepped
            exact Function.update_of_ne (fun same => other (congrArg some same.symm)) _ _
          · cases stepped
      | resume p answer =>
          simp only [System.step] at stepped
          split at stepped
          · split at stepped
            · cases stepped
              exact Function.update_of_ne (fun same => other (congrArg some same.symm)) _ _
            · cases stepped
          · cases stepped
      | ext e =>
          obtain ⟨s, -, rfl⟩ := Option.map_eq_some_iff.mp stepped
          rfl

/-- Where no task is left of those that took a step, none is left. -/
theorem idle_of_exec {ls : List (Label M)} {c c' : Config S} (executed : M.exec c ls = some c')
    (idle : ∀ q, c.pool q = none)
    (ended : ∀ q ∈ ls.filterMap Label.pid, (c'.pool q).isNone = true) (q : Pid) :
    c'.pool q = none := by
  by_cases acted : q ∈ ls.filterMap Label.pid
  · exact Option.isNone_iff_eq_none.mp (ended q acted)
  · rw [pool_of_exec executed fun l member own => acted (List.mem_filterMap.mpr ⟨l, member, own⟩)]
    exact idle q

end System

/-! ### Duties -/

/-- What can be needed, and who sees to it. A ticket is `valid` while it says how its item is to be
settled, and a task is `fit` for it while nothing keeps the task from settling it. `rely` is what a
task may assume of others between its waits; `ok` and `cond` are the conditions of a course. -/
structure Duties (M : System S) where
  Item : Type
  Ticket : Type
  item : Ticket → Item
  needed : Item → S.State → Prop
  valid : Ticket → S.State → Prop
  fit : Pid → Ticket → S.State → Prop
  settles : Ticket → S.Cmd → Prop
  inv : S.State → Prop
  rely : Pid → S.State → S.State → Prop
  ok : S.State → Label M → Prop
  cond : S.Cmd → S.State → Prop
  rely_refl : ∀ {p s}, rely p s s
  rely_trans : ∀ {p s s' s''}, rely p s s' → rely p s' s'' → rely p s s''
  /-- Where a command that settles a ticket meets its condition, the item is not needed after it. -/
  settled : ∀ {t c s}, cond c s → valid t s → settles t c → ¬ needed (item t) (S.exec c s)

namespace Duties

variable {M : System S} (D : Duties M)

/-- What a change made by `p`, or by no task, leaves in order. -/
structure Kept (p : Option Pid) (s s' : S.State) : Prop where
  inv : D.inv s'
  rely : ∀ q, some q ≠ p → D.rely q s s'
  valid : ∀ t, D.needed (D.item t) s' → D.valid t s → D.valid t s'
  fit : ∀ q t, D.needed (D.item t) s' → D.valid t s → D.fit q t s → D.fit q t s'

/-- A change after which nothing more is needed than before. -/
structure Quiet (p : Option Pid) (s s' : S.State) : Prop extends D.Kept p s s' where
  old : ∀ i, D.needed i s' → D.needed i s

variable {D} in
/-- What the environment may do, a task may. -/
theorem Kept.by_anyone {p : Option Pid} {s s' : S.State} (kept : D.Kept none s s') :
    D.Kept p s s' where
  inv := kept.inv
  rely q _ := kept.rely q (Option.some_ne_none q)
  valid := kept.valid
  fit := kept.fit

variable {D} in
theorem Quiet.by_anyone {p : Option Pid} {s s' : S.State} (quiet : D.Quiet none s s') :
    D.Quiet p s s' :=
  ⟨quiet.toKept.by_anyone, quiet.old⟩

/-- `m` settles the ticket: at once, or later where `late`. -/
def Sees (t : D.Ticket) (late : Prop) (m : Co S α) : Prop := m.Reaches (D.valid t) (D.settles t) late

/-- Task `p` takes on item `i`, with `m` still to run. -/
def TakenOn (p : Pid) (i : D.Item) (m : Co S α) (s : S.State) : Prop :=
  ∃ t, D.item t = i ∧ D.valid t s ∧ (D.Sees t False m ∨ D.fit p t s ∧ D.Sees t True m)

/-- From `s`, the program takes on whatever its commands make necessary, whatever the others do
across its waits, and ends only in states with `Q`. -/
def Dutiful (p : Pid) (Q : α → S.State → Prop) : Co S α → S.State → Prop
  | .ret a, s => Q a s
  | .raise, _ => True
  | .read next, s => D.inv s → Dutiful p Q (next s) s
  | .act c next, s => D.inv s → D.cond c s →
      D.Kept (some p) s (S.exec c s) ∧
        (∀ i, D.needed i (S.exec c s) → D.needed i s ∨ D.TakenOn p i next (S.exec c s)) ∧
        Dutiful p Q next (S.exec c s)
  | .wait r next, s => ∀ s', D.rely p s s' → D.inv s' → ∀ a s'', M.replies p r a s' = some s'' →
      Dutiful p Q (next a) s''

variable {D} {p : Pid} {s s' : S.State}

theorem dutiful_bind {m : Co S α} {k : α → Co S β} {Q : β → S.State → Prop}
    (h : D.Dutiful p (fun a t => D.Dutiful p Q (k a) t) m s) : D.Dutiful p Q (m.bind k) s := by
  induction m generalizing s with
  | ret a => exact h
  | raise => trivial
  | read next ih => exact fun sound => ih s (h sound)
  | act c next ih =>
      intro sound met
      obtain ⟨kept, taken, rest⟩ := h sound met
      refine ⟨kept, fun i needed => (taken i needed).imp_right ?_, ih rest⟩
      rintro ⟨t, same, valid, sees⟩
      exact ⟨t, same, valid, sees.imp (·.bind k) (And.imp_right (·.bind k))⟩
  | wait r next ih =>
      intro s' relied sound a s'' replied
      exact ih a (h s' relied sound a s'' replied)

theorem Dutiful.mono {m : Co S α} {Q Q' : α → S.State → Prop} (h : D.Dutiful p Q m s)
    (weaker : ∀ a t, Q a t → Q' a t) : D.Dutiful p Q' m s := by
  induction m generalizing s with
  | ret a => exact weaker a s h
  | raise => trivial
  | read next ih => exact fun sound => ih s (h sound)
  | act c next ih =>
      intro sound met
      obtain ⟨kept, taken, rest⟩ := h sound met
      exact ⟨kept, taken, ih rest⟩
  | wait r next ih =>
      intro s' relied sound a s'' replied
      exact ih a (h s' relied sound a s'' replied)

/-- A loop keeps what each round keeps. -/
theorem dutiful_forEach {xs : List ι} {body : ι → Co S Unit} (I : List ι → S.State → Prop)
    (round : ∀ x rest t, I (x :: rest) t → D.Dutiful p (fun _ t' => I rest t') (body x) t)
    (start : I xs s) : D.Dutiful p (fun _ t => I [] t) (Co.forEach xs body) s := by
  induction xs generalizing s with
  | nil => exact start
  | cons x rest ih => exact dutiful_bind ((round x rest s start).mono fun _ t kept => ih kept)

/-- A program whose commands make nothing necessary. -/
theorem dutiful_quiet {m : Co S α} {K : S.Cmd → Prop} {A : S.Req → Prop} {E : Prop}
    (P : S.State → Prop)
    (cmds : ∀ c t, K c → D.inv t → D.cond c t → P t →
      D.Quiet (some p) t (S.exec c t) ∧ P (S.exec c t))
    (answers : ∀ r a t t' t'', A r → P t → D.rely p t t' → D.inv t' →
      M.replies p r a t' = some t'' → P t'')
    (only : m.Only K A E) (holds : P s) : D.Dutiful p (fun _ t => P t) m s := by
  induction m generalizing s with
  | ret a => exact holds
  | raise => trivial
  | read next ih => exact fun _ => ih s (only s) holds
  | act c next ih =>
      intro sound met
      obtain ⟨quiet, still⟩ := cmds c s only.1 sound met holds
      exact ⟨quiet.toKept, fun i needed => .inl (quiet.old i needed), ih only.2 still⟩
  | wait r next ih =>
      intro s' relied sound a s'' replied
      exact ih a (only.2 a) (answers r a s s' s'' only.1 holds relied sound replied)

/-- A suspended task is not disturbed by what it relies on. -/
theorem Dutiful.stable {r : S.Req} {next : S.Ans r → Co S α} {Q : α → S.State → Prop}
    (h : D.Dutiful p Q (.wait r next) s) (relied : D.rely p s s') :
    D.Dutiful p Q (.wait r next) s' :=
  fun t later sound a t' replied => h t (D.rely_trans relied later) sound a t' replied

variable (D) in
/-- What is needed in the middle of a step of `p`, with `m` still to run: another task sees to it,
or `p` does. -/
def Covered (p : Pid) (others : Pid → D.Ticket → Prop) (m : Co S α) (s : S.State) : Prop :=
  ∀ i, D.needed i s → ∃ t, D.item t = i ∧ D.valid t s ∧
    ((∃ q, q ≠ p ∧ others q t ∧ D.fit q t s) ∨ D.Sees t False m ∨ D.fit p t s ∧ D.Sees t True m)

section Steps

variable {others : Pid → D.Ticket → Prop}

theorem Covered.read {next : S.State → Co S α} (h : D.Covered p others (.read next) s) :
    D.Covered p others (next s) s := by
  intro i needed
  obtain ⟨t, same, valid, seen⟩ := h i needed
  exact ⟨t, same, valid, seen.imp_right
    (Or.imp (fun sees => sees s valid) (And.imp_right fun sees => sees s valid))⟩

theorem Covered.act {c : S.Cmd} {next : Co S α} (h : D.Covered p others (.act c next) s)
    (met : D.cond c s) (kept : D.Kept (some p) s (S.exec c s))
    (taken : ∀ i, D.needed i (S.exec c s) → D.needed i s ∨ D.TakenOn p i next (S.exec c s)) :
    D.Covered p others next (S.exec c s) := by
  intro i needed
  rcases taken i needed with before | ⟨t, same, valid, sees⟩
  · obtain ⟨t, rfl, valid, seen⟩ := h i before
    have unsettled : ¬ D.settles t c := fun settles => D.settled met valid settles needed
    refine ⟨t, rfl, kept.valid t needed valid, ?_⟩
    rcases seen with ⟨q, other, listed, fit⟩ | sees | ⟨fit, sees⟩
    · exact .inl ⟨q, other, listed, kept.fit q t needed valid fit⟩
    · exact .inr (.inl (sees.resolve_left unsettled))
    · exact .inr (.inr ⟨kept.fit p t needed valid fit, sees.resolve_left unsettled⟩)
  · exact ⟨t, same, valid, .inr sees⟩

theorem Covered.ended {m : Co S α} (h : D.Covered p others m s)
    (never : ∀ t late, ¬ D.Sees t late m) (i : D.Item) (needed : D.needed i s) :
    ∃ t, D.item t = i ∧ D.valid t s ∧ ∃ q, q ≠ p ∧ others q t ∧ D.fit q t s := by
  obtain ⟨t, same, valid, other | sees | sees⟩ := h i needed
  · exact ⟨t, same, valid, other⟩
  · exact absurd sees (never t False)
  · exact absurd sees.2 (never t True)

/-- A dutiful task runs up to its next wait. -/
theorem Dutiful.advance {m : Co S Unit} (h : D.Dutiful p (fun _ _ => True) m s)
    (heeds : m.Heeds D.cond s) (sound : D.inv s) (covered : D.Covered p others m s) :
    D.inv (m.advance s).2 ∧ (∀ q, q ≠ p → D.rely q s (m.advance s).2) ∧
      (∀ i, D.needed i (m.advance s).2 → ∃ t, D.item t = i ∧ D.valid t (m.advance s).2 ∧
        ((∃ q, q ≠ p ∧ others q t ∧ D.fit q t (m.advance s).2) ∨
          ∃ k, (m.advance s).1.parked = some k ∧ D.fit p t (m.advance s).2 ∧ D.Sees t True k)) ∧
      ∀ k, (m.advance s).1.parked = some k →
        D.Dutiful p (fun _ _ => True) k (m.advance s).2 := by
  have others_see : ∀ {m : Co S Unit} {s : S.State}, D.Covered p others m s →
      (∀ t late, ¬ D.Sees t late m) → ∀ i, D.needed i s → ∃ t, D.item t = i ∧ D.valid t s ∧
        ((∃ q, q ≠ p ∧ others q t ∧ D.fit q t s) ∨
          ∃ k, m.parked = some k ∧ D.fit p t s ∧ D.Sees t True k) := by
    intro m s covered never i needed
    obtain ⟨t, same, valid, other⟩ := covered.ended never i needed
    exact ⟨t, same, valid, .inl other⟩
  induction m generalizing s with
  | ret a =>
      exact ⟨sound, fun _ _ => D.rely_refl, others_see covered fun _ _ sees => sees,
        fun k parked => by cases parked⟩
  | raise =>
      exact ⟨sound, fun _ _ => D.rely_refl, others_see covered fun _ _ sees => sees,
        fun k parked => by cases parked⟩
  | read next ih => exact ih s (h sound) heeds sound covered.read
  | act c next ih =>
      obtain ⟨kept, taken, rest⟩ := h sound heeds.1
      obtain ⟨sound', relied, after⟩ := ih rest heeds.2 kept.inv (covered.act heeds.1 kept taken)
      exact ⟨sound', fun q other => D.rely_trans (kept.rely q (by simpa using other))
        (relied q other), after⟩
  | wait r next =>
      refine ⟨sound, fun _ _ => D.rely_refl, fun i needed => ?_, fun k parked => ?_⟩
      · obtain ⟨t, same, valid, other | sees | sees⟩ := covered i needed
        · exact ⟨t, same, valid, .inl other⟩
        · exact sees.1.elim
        · exact ⟨t, same, valid, .inr ⟨_, rfl, sees⟩⟩
      · cases parked
        exact h

end Steps

/-! ### Courses of dutiful tasks -/

variable (D) in
/-- Everything needed is seen to by a suspended task, and every suspended task is dutiful. -/
structure Seen (c : Config S) : Prop where
  inv : D.inv c.state
  parked : RelyGuarantee.Parked c
  seen : ∀ i, D.needed i c.state → ∃ t, D.item t = i ∧ D.valid t c.state ∧
    ∃ q k, c.pool q = some k ∧ D.fit q t c.state ∧ D.Sees t True k
  dutiful : ∀ q k, c.pool q = some k → D.Dutiful q (fun _ _ => True) k c.state

/-- Task `p` runs `m` from `s`; what it was to settle before, `m` settles. -/
theorem Seen.runTask {c : Config S} {m : Co S Unit} (seen : D.Seen c)
    (quiet : D.Quiet (some p) c.state s)
    (own : ∀ k t, c.pool p = some k → D.Sees t True k → D.Sees t True m)
    (h : D.Dutiful p (fun _ _ => True) m s) (heeds : m.Heeds D.cond s) :
    D.Seen (c.runTask p m s) := by
  have covered : D.Covered p (fun q t => ∃ k, c.pool q = some k ∧ D.Sees t True k) m s := by
    intro i needed
    obtain ⟨t, rfl, valid, q, k, found, fit, sees⟩ := seen.seen i (quiet.old i needed)
    refine ⟨t, rfl, quiet.valid t needed valid, ?_⟩
    have fit' := quiet.fit q t needed valid fit
    by_cases same : q = p
    · subst same
      exact .inr (.inr ⟨fit', own k t found sees⟩)
    · exact .inl ⟨q, same, ⟨k, found, sees⟩, fit'⟩
  obtain ⟨sound, relied, covered', dutiful⟩ := h.advance heeds quiet.inv covered
  refine ⟨sound, fun q k found => ?_, fun i needed => ?_, fun q k found => ?_⟩
  · by_cases same : q = p
    · subst same
      simp only [Config.runTask, Function.update_self] at found
      exact RelyGuarantee.parked_is_wait found
    · simp only [Config.runTask, Function.update_of_ne same] at found
      exact seen.parked q k found
  · obtain ⟨t, same, valid, ⟨q, other, ⟨k, found, sees⟩, fit⟩ | ⟨k, found, fit, sees⟩⟩ :=
      covered' i needed
    · refine ⟨t, same, valid, q, k, ?_, fit, sees⟩
      simpa only [Config.runTask, Function.update_of_ne other] using found
    · refine ⟨t, same, valid, p, k, ?_, fit, sees⟩
      simpa only [Config.runTask, Function.update_self] using found
  · by_cases same : q = p
    · subst same
      simp only [Config.runTask, Function.update_self] at found
      exact dutiful k found
    · simp only [Config.runTask, Function.update_of_ne same] at found
      obtain ⟨r, next, rfl⟩ := seen.parked q k found
      exact (seen.dutiful q _ found).stable
        (D.rely_trans (quiet.rely q (by simpa using same)) (relied q same))

variable (D) in
/-- Starting a task and answering one make nothing necessary, nor does the environment, and the
jobs that can start are dutiful. -/
structure Sound : Prop where
  begins : ∀ {p j s s'}, D.inv s → M.begins p j s = some s' → D.Quiet (some p) s s'
  jobs : ∀ {p j s s'}, D.inv s → D.ok s (.start p j) → M.begins p j s = some s' →
    D.Dutiful p (fun _ _ => True) (M.body j) s'
  replies : ∀ {p r} {a : S.Ans r} {s s'}, D.inv s → M.replies p r a s = some s' →
    D.Quiet (some p) s s'
  ext : ∀ {e s s'}, D.inv s → D.ok s (.ext e) → M.ext e s = some s' → D.Quiet none s s'

theorem Seen.step (sound : D.Sound) {c c' : Config S} {l : Label M} (seen : D.Seen c)
    (met : D.ok c.state l) (heedful : M.Heedful D.cond l c) (stepped : M.step l c = some c') :
    D.Seen c' := by
  cases l with
  | start p j =>
      simp only [System.step] at stepped
      split at stepped
      · rename_i s idle begun
        cases stepped
        refine seen.runTask (sound.begins seen.inv begun) ?_ (sound.jobs seen.inv met begun)
          (heedful (M.body j, s) (by simp [System.stretch, begun]))
        intro k t found
        rw [idle] at found
        cases found
      · cases stepped
  | resume p answer =>
      simp only [System.step] at stepped
      split at stepped
      · rename_i r next waiting
        split at stepped
        · rename_i s replied
          cases stepped
          refine seen.runTask (sound.replies seen.inv replied) ?_
            (seen.dutiful p _ waiting _ D.rely_refl seen.inv _ _ replied)
            (heedful (next (answer r), s) (by simp [System.stretch, waiting, replied]))
          intro k t found sees
          rw [waiting] at found
          cases found
          exact sees.2 (answer r)
        · cases stepped
      · cases stepped
  | ext e =>
      obtain ⟨s, moved, rfl⟩ := Option.map_eq_some_iff.mp stepped
      have quiet := sound.ext seen.inv met moved
      refine ⟨quiet.inv, seen.parked, fun i needed => ?_, fun q k found => ?_⟩
      · obtain ⟨t, rfl, valid, q, k, found, fit, sees⟩ := seen.seen i (quiet.old i needed)
        exact ⟨t, rfl, quiet.valid t needed valid, q, k, found, quiet.fit q t needed valid fit,
          sees⟩
      · obtain ⟨r, next, rfl⟩ := seen.parked q k found
        exact (seen.dutiful q _ found).stable (quiet.rely q (Option.some_ne_none q))

/-- Along a course, everything needed is seen to. -/
theorem seen_of_course (sound : D.Sound) {c c' : Config S} (seen : D.Seen c)
    (course : M.Course D.ok D.cond c c') : D.Seen c' := by
  induction course with
  | refl => exact seen
  | step l _ met heedful stepped ih => exact ih.step sound met heedful stepped

end Duties

end Coroutine
