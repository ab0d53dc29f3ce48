import Mathlib.Algebra.Order.Ring.Rat
import Py20305.SunSpec.Calls

/-!
`LazyConnectorProxy` (`connectors/registry.py`).

`aresolve` runs the factory on a thread, under a lock. A caller that is cancelled while the factory
runs gives the lock up, and the next one runs the factory again (`single_iff`).

Left out: `resolve` from outside `aresolve`, a second event loop, and the log.
-/

namespace Py20305.Registry

open ThreadHop

/-! ### The proxy -/

/-- What the factory does. -/
inductive Outcome (ι ε : Type) where
  | built (made : ι)
  | raised (exc : ε) (permanent : Bool)

/-- A proxy, with the instances that `aresolve` has returned. -/
structure LazyConnectorProxy (ι ε : Type) where
  hops : Hops Unit (Except ε ι)
  /-- `_instance`. -/
  constructed : Option ι
  permanentFailure : Option ε
  permanentFailureAt : Option ℚ
  clock : ℚ
  handed : List ι

/-- `_PERMANENT_FAILURE_TTL_SECONDS`. -/
def permanentFailureTtl : ℚ := 300

namespace LazyConnectorProxy

variable {ι ε : Type}

def fresh : LazyConnectorProxy ι ε where
  hops := .fresh ()
  constructed := none
  permanentFailure := none
  permanentFailureAt := none
  clock := 0
  handed := []

variable (p : LazyConnectorProxy ι ε)

/-- `_check_cached_permanent_failure`. -/
def checkCachedPermanentFailure : Except ε (LazyConnectorProxy ι ε) :=
  match p.permanentFailure, p.permanentFailureAt with
  | some exc, some since =>
      if p.clock - since < permanentFailureTtl then .error exc
      else .ok { p with permanentFailure := none, permanentFailureAt := none }
  | _, _ => .ok p

/-- What a caller finds before it goes on to the factory: the instance, a failure or nothing. -/
def looks : Option (Except ε ι) × LazyConnectorProxy ι ε :=
  match p.constructed with
  | some made => (some (.ok made), p)
  | none =>
      match p.checkCachedPermanentFailure with
      | .error exc => (some (.error exc), p)
      | .ok checked => (none, checked)

/-- `aresolve` returns an instance, or raises. -/
def hands : Except ε ι → LazyConnectorProxy ι ε
  | .ok made => { p with handed := p.handed ++ [made] }
  | .error _ => p

/-- What comes of a look, with the callers where they are by then. -/
def goesOn (looked : Option (Except ε ι) × LazyConnectorProxy ι ε)
    (hops : Hops Unit (Except ε ι)) : LazyConnectorProxy ι ε :=
  match looked.1 with
  | some found => { looked.2.hands found with hops := hops }
  | none => { looked.2 with hops := hops }

/-- `aresolve`, up to its first wait. -/
def aresolve : LazyConnectorProxy ι ε :=
  match p.looks with
  | (some found, p) => p.hands found
  | (none, p) =>
      if p.hops.lock.isOpen p.hops.isCancelled then
        goesOn p.looks (p.hops.call () p.looks.1.isNone)
      else { p with hops := p.hops.call () true }

/-- The next waiter looks again. -/
def granted : Option (LazyConnectorProxy ι ε) :=
  (p.hops.granted p.looks.1.isNone).map fun hops => goesOn p.looks hops

/-- A thread begins `resolve`, which looks a last time. -/
def starts (i : Nat) : Option (LazyConnectorProxy ι ε) :=
  match p.looks with
  | (some found, p) => (p.hops.answers i found).map fun hops => { p with hops := hops }
  | (none, p) => (p.hops.starts i).map fun hops => { p with hops := hops }

/-- The factory is done, and `resolve` with it. -/
def finishes (i : Nat) : Outcome ι ε → Option (LazyConnectorProxy ι ε)
  | .built made => (p.hops.finishes i (.ok made)).map fun hops =>
      { p with hops := hops, constructed := some made }
  | .raised exc permanent => (p.hops.finishes i (.error exc)).map fun hops =>
      if permanent then
        { p with hops := hops, permanentFailure := some exc, permanentFailureAt := some p.clock }
      else { p with hops := hops }

def returns (i : Nat) : Option (LazyConnectorProxy ι ε) :=
  (p.hops.returns i).map fun returned => { p.hands returned.2 with hops := returned.1 }

end LazyConnectorProxy

inductive Step (ι ε : Type) where
  | aresolve
  /-- The next waiter of the lock goes on. -/
  | granted
  /-- A thread begins `resolve`. -/
  | starts (i : Nat)
  | finishes (i : Nat) (outcome : Outcome ι ε)
  | returns (i : Nat)
  | cancel (i : Nat)
  | unwind (i : Nat)
  | passes (seconds : ℚ)

/-- The proxy as a machine. -/
def proxy (ι ε : Type) : Machine where
  State := LazyConnectorProxy ι ε
  Label := Step ι ε
  step
    | .aresolve, p => some p.aresolve
    | .granted, p => p.granted
    | .starts i, p => p.starts i
    | .finishes i outcome, p => p.finishes i outcome
    | .returns i, p => p.returns i
    | .cancel i, p => (p.hops.cancel i).map fun hops => { p with hops := hops }
    | .unwind i, p => (p.hops.unwind i).map fun hops => { p with hops := hops }
    | .passes seconds, p => if 0 ≤ seconds then some { p with clock := p.clock + seconds } else none

/-! ### One factory, one instance -/

section Statements

variable {ι ε : Type}

/-- At most one factory runs, and every caller gets the same instance. -/
structure Single (p : LazyConnectorProxy ι ε) : Prop where
  factory : p.hops.Exclusive
  same : ∀ a ∈ p.handed, ∀ b ∈ p.handed, a = b

/-- A cancelled caller does not unwind while its factory runs. -/
def Attending (p : LazyConnectorProxy ι ε) : Step ι ε → Prop
  | .unwind i => ¬p.hops.Attends i
  | _ => True

instance decidableAttending (p : LazyConnectorProxy ι ε) (l : Step ι ε) :
    Decidable (Attending p l) := by
  cases l <;> unfold Attending <;> infer_instance

instance (p : (proxy ι ε).State) (l : (proxy ι ε).Label) : Decidable (Attending p l) :=
  decidableAttending p l

end Statements

/-! ### What every step keeps -/

section Steps

variable {ι ε : Type} {p q : LazyConnectorProxy ι ε}

/-- Nothing has been made, and no failure is remembered. -/
def Vacant (p : LazyConnectorProxy ι ε) : Prop :=
  p.constructed = none ∧ (p.permanentFailure = none ∨ p.permanentFailureAt = none)

/-- While there is work for a thread nothing has been made; what was made is what was handed out and
what threads returned. -/
structure Kept (p : LazyConnectorProxy ι ε) : Prop where
  sound : p.hops.Sound
  attended : p.hops.Attended
  vacant : ∀ i, (p.hops.task i).worker.IsBusy → Vacant p
  handed : ∀ a ∈ p.handed, p.constructed = some a
  results : ∀ i a, (p.hops.task i).worker = .done (.ok a) → p.constructed = some a

theorem kept_fresh : Kept (.fresh : LazyConnectorProxy ι ε) where
  sound := sound_fresh ()
  attended := attended_fresh ()
  vacant _ busy := busy.elim
  handed _ listed := by cases listed
  results _ _ done := by cases done

theorem Kept.single (kept : Kept p) : Single p where
  factory := kept.attended.exclusive kept.sound
  same a first b second :=
    Option.some.inj ((kept.handed a first).symm.trans (kept.handed b second))

theorem looks_of_vacant (vacant : Vacant p) : p.looks = (none, p) := by
  obtain ⟨unmade, forgotten⟩ := vacant
  rcases forgotten with none_ | none_ <;>
    simp [LazyConnectorProxy.looks, LazyConnectorProxy.checkCachedPermanentFailure, unmade, none_]

/-- What a look changes is a failure it forgets. -/
theorem looks_cases (p : LazyConnectorProxy ι ε) :
    (∃ found, p.looks = (some found, p) ∧ ∀ a, found = .ok a → p.constructed = some a) ∨
      ∃ failure since, p.looks =
          (none, { p with permanentFailure := failure, permanentFailureAt := since }) ∧
        Vacant { p with permanentFailure := failure, permanentFailureAt := since } := by
  rcases p.constructed.eq_none_or_eq_some with made | ⟨a, made⟩
  · cases checked : p.checkCachedPermanentFailure with
    | error exc =>
        refine .inl ⟨.error exc, by simp [LazyConnectorProxy.looks, made, checked], ?_⟩
        exact fun b same => by cases same
    | ok q =>
        refine .inr ⟨q.permanentFailure, q.permanentFailureAt, ?_⟩
        have looks : p.looks = (none, q) := by simp [LazyConnectorProxy.looks, made, checked]
        rw [looks]
        unfold LazyConnectorProxy.checkCachedPermanentFailure at checked
        split at checked
        · split at checked
          · cases checked
          · cases checked
            exact ⟨rfl, made, .inl rfl⟩
        · rename_i unset
          cases checked
          refine ⟨rfl, made, ?_⟩
          cases failure : p.permanentFailure with
          | none => exact .inl rfl
          | some exc =>
              cases since : p.permanentFailureAt with
              | none => exact .inr rfl
              | some since' => exact absurd since (unset exc since' failure)
  · refine .inl ⟨.ok a, by simp [LazyConnectorProxy.looks, made], fun b same => ?_⟩
    cases same
    exact made

/-- The callers move on, and an instance that was made may be handed out. -/
theorem Kept.moves (kept : Kept p) {hops : Hops Unit (Except ε ι)} {handed : List ι}
    (sound : hops.Sound) (attended : hops.Attended)
    (follows : p.hops.Follows hops (Vacant p) fun r => ∀ a, r = .ok a → p.constructed = some a)
    (listed : ∀ a ∈ handed, p.constructed = some a) :
    Kept { p with hops := hops, handed := handed } where
  sound := sound
  attended := attended
  vacant i busy := ((follows i).1 busy).elim (kept.vacant i) id
  handed := listed
  results i a done := ((follows i).2 _ done).elim (kept.results i a) fun found => found a rfl

/-- A failure is forgotten. -/
theorem Kept.forgets (kept : Kept p) {failure : Option ε} {since : Option ℚ}
    (vacant : Vacant { p with permanentFailure := failure, permanentFailureAt := since }) :
    Kept { p with permanentFailure := failure, permanentFailureAt := since } where
  sound := kept.sound
  attended := kept.attended
  vacant _ _ := vacant
  handed := kept.handed
  results := kept.results

theorem Kept.hands (kept : Kept p) {found : Except ε ι} (made : ∀ a, found = .ok a →
    p.constructed = some a) : ∀ a ∈ (p.hands found).handed, p.constructed = some a := by
  intro a listed
  cases found with
  | error exc => exact kept.handed a listed
  | ok b =>
      rcases List.mem_append.mp listed with before | new
      · exact kept.handed a before
      · exact made a (by rw [List.mem_singleton.mp new])

theorem hands_eq (p : LazyConnectorProxy ι ε) (found : Except ε ι) :
    p.hands found = { p with handed := (p.hands found).handed } := by
  cases found <;> rfl

/-- A caller looks, and asks for a thread if it finds nothing. -/
theorem Kept.goesOn (kept : Kept p) {hops : Hops Unit (Except ε ι)} (sound : hops.Sound)
    (attended : hops.Attended)
    (follows : p.hops.Follows hops (p.looks.1.isNone = true) fun _ => False) :
    Kept (LazyConnectorProxy.goesOn p.looks hops) := by
  rcases looks_cases p with ⟨found, looks, made⟩ | ⟨failure, since, looks, vacant⟩
  · rw [looks] at follows ⊢
    show Kept { p.hands found with hops := hops }
    rw [hands_eq]
    exact kept.moves sound attended (follows.mono (fun asks => by cases asks) fun _ => False.elim)
      (kept.hands made)
  · rw [looks] at follows ⊢
    exact (kept.forgets vacant).moves sound attended
      (follows.mono (fun _ => vacant) fun _ => False.elim) kept.handed

theorem Kept.aresolve (kept : Kept p) : Kept p.aresolve := by
  unfold LazyConnectorProxy.aresolve
  rcases looks_cases p with ⟨found, looks, made⟩ | ⟨failure, since, looks, vacant⟩
  · rw [looks]
    show Kept (p.hands found)
    rw [hands_eq]
    exact kept.moves kept.sound kept.attended (fun i => ⟨.inl, fun r => .inl⟩) (kept.hands made)
  · rw [looks]
    have forgotten := kept.forgets vacant
    show Kept (if _ then _ else _)
    split
    · exact forgotten.goesOn (forgotten.sound.call _ _) (forgotten.attended.call _ _) (.call _ _ _)
    · exact forgotten.moves (forgotten.sound.call _ _) (forgotten.attended.call _ _)
        ((Hops.Follows.call _ _ _).mono (fun _ => vacant) fun _ => False.elim) forgotten.handed

theorem Kept.starts (kept : Kept p) {i : Nat} (stepped : p.starts i = some q) : Kept q := by
  unfold LazyConnectorProxy.starts at stepped
  rcases looks_cases p with ⟨found, looks, made⟩ | ⟨failure, since, looks, vacant⟩
  · rw [looks] at stepped
    obtain ⟨hops, answered, rfl⟩ := Option.map_eq_some_iff.mp stepped
    exact kept.moves (kept.sound.answers answered) (kept.attended.answers answered)
      ((Hops.Follows.answers answered).mono False.elim fun _ same => same ▸ made) kept.handed
  · rw [looks] at stepped
    obtain ⟨hops, started, rfl⟩ := Option.map_eq_some_iff.mp stepped
    have forgotten := kept.forgets vacant
    exact forgotten.moves (forgotten.sound.starts started) (forgotten.attended.starts started)
      (Hops.Follows.starts started).quiet forgotten.handed

/-- The factory has built, and no other is to run. -/
theorem Kept.built (kept : Kept p) {hops : Hops Unit (Except ε ι)} {i : Nat} {made : ι}
    (finished : p.hops.finishes i (.ok made) = some hops) :
    Kept { p with hops := hops, constructed := some made } := by
  have unmade : p.constructed = none := by
    unfold Hops.finishes at finished
    split at finished
    case h_1 running => exact (kept.vacant i (by simp [running, Worker.IsBusy])).1
    all_goals cases finished
  have old (a : ι) : p.constructed ≠ some a := by simp [unmade]
  exact {
    sound := kept.sound.finishes finished
    attended := kept.attended.finishes finished
    vacant := fun j busy => absurd busy (kept.sound.quiet_of_finishes kept.attended finished j)
    handed := fun a listed => absurd (kept.handed a listed) (old a)
    results := fun j a done => by
      rcases (Hops.Follows.finishes finished j).2 _ done with before | own
      · exact absurd (kept.results j a before) (old a)
      · rw [Except.ok.inj own] }

theorem Kept.raised (kept : Kept p) {hops : Hops Unit (Except ε ι)} {i : Nat} {exc : ε}
    (finished : p.hops.finishes i (.error exc) = some hops) (failure : Option ε)
    (since : Option ℚ) :
    Kept { p with hops := hops, permanentFailure := failure, permanentFailureAt := since } where
  sound := kept.sound.finishes finished
  attended := kept.attended.finishes finished
  vacant j busy := absurd busy (kept.sound.quiet_of_finishes kept.attended finished j)
  handed := kept.handed
  results j a done :=
    ((Hops.Follows.finishes finished j).2 _ done).elim (kept.results j a) fun own => by cases own

theorem Kept.returns (kept : Kept p) {i : Nat} (stepped : p.returns i = some q) : Kept q := by
  obtain ⟨⟨hops, r⟩, returned, rfl⟩ := Option.map_eq_some_iff.mp stepped
  have done := (Hops.returns_eq_some returned).1.2.2
  rw [hands_eq]
  exact kept.moves (kept.sound.returns returned) (kept.attended.returns returned)
    (Hops.Follows.returns returned).quiet
    (kept.hands fun a (same : r = .ok a) => kept.results i a (by rw [done, same]))

theorem Kept.step (kept : Kept p) {l : Step ι ε} (stepped : (proxy ι ε).step l p = some q)
    (minds : Attending p l) : Kept q := by
  cases l with
  | aresolve => cases stepped; exact kept.aresolve
  | granted =>
      obtain ⟨hops, granted, rfl⟩ := Option.map_eq_some_iff.mp stepped
      exact kept.goesOn (kept.sound.granted granted) (kept.attended.granted kept.sound granted)
        (.granted kept.sound granted)
  | starts i => exact kept.starts stepped
  | finishes i outcome =>
      cases outcome with
      | built made =>
          obtain ⟨hops, finished, rfl⟩ := Option.map_eq_some_iff.mp stepped
          exact kept.built finished
      | raised exc permanent =>
          obtain ⟨hops, finished, rfl⟩ := Option.map_eq_some_iff.mp stepped
          split
          · exact kept.raised finished _ _
          · exact kept.raised finished _ _
  | returns i => exact kept.returns stepped
  | cancel i =>
      obtain ⟨hops, cancelled, rfl⟩ := Option.map_eq_some_iff.mp stepped
      exact kept.moves (kept.sound.cancel cancelled) (kept.attended.cancel cancelled)
        (Hops.Follows.cancel cancelled).quiet kept.handed
  | unwind i =>
      obtain ⟨hops, unwound, rfl⟩ := Option.map_eq_some_iff.mp stepped
      exact kept.moves (kept.sound.unwind unwound) (kept.attended.unwind unwound minds)
        (Hops.Follows.unwind unwound).quiet kept.handed
  | passes seconds =>
      simp only [proxy] at stepped
      split at stepped
      · cases stepped
        exact ⟨kept.sound, kept.attended, kept.vacant, kept.handed, kept.results⟩
      · cases stepped

theorem Kept.run (kept : Kept p) (run : (proxy ι ε).Run (fun p l _ => Attending p l) p q) :
    Kept q :=
  run.keeps (P := fun (p : LazyConnectorProxy ι ε) => Kept p)
    (fun _ _ _ stepped minds kept => kept.step stepped minds) kept

/-- A caller unwinds while its factory runs, and the next one runs the factory again. -/
theorem Kept.overlaps_of_unwind (kept : Kept p) {i : Nat} (attends : p.hops.Attends i)
    (stepped : (proxy ι ε).step (.unwind i) p = some q) :
    ∃ r, (proxy ι ε).Run (fun p l _ => Attending p l) q r ∧ ¬Single r := by
  obtain ⟨hops, unwound, rfl⟩ := Option.map_eq_some_iff.mp stepped
  have sound := kept.sound.unwind unwound
  obtain ⟨free, running, -⟩ := attends.unwind unwound
  have vacant : Vacant { p with hops := hops } := kept.vacant i attends.2.isBusy
  have looks := looks_of_vacant vacant
  have starts (hops' v : Hops Unit (Except ε ι)) (j : Nat) (started : hops'.starts j = some v) :
      LazyConnectorProxy.starts { p with hops := hops' } j = some { p with hops := v } := by
    have again : Vacant { p with hops := hops' } := vacant
    rw [LazyConnectorProxy.starts, looks_of_vacant again]
    exact Option.map_eq_some_iff.mpr ⟨v, started, rfl⟩
  rcases sound.second_runs free running () with
    ⟨opens, v, started, overlaps⟩ | ⟨j, m, v, granted, started, overlaps⟩
  · have asks : (proxy ι ε).step .aresolve { p with hops := hops } =
        some { p with hops := hops.call () true } := by
      refine congrArg some ?_
      rw [LazyConnectorProxy.aresolve, looks]
      exact (if_pos opens).trans (by rw [looks]; rfl)
    exact ⟨_, .step (.starts hops.next) (.step .aresolve (.refl _) asks trivial)
      (starts _ v _ started) trivial, fun single => overlaps single.factory⟩
  · have goes : (proxy ι ε).step .granted { p with hops := hops } = some { p with hops := m } := by
      refine Option.map_eq_some_iff.mpr ⟨m, ?_, by rw [looks]; rfl⟩
      rw [looks]
      exact granted
    exact ⟨_, .step (.starts j) (.step .granted (.refl _) goes trivial) (starts _ v j started)
      trivial, fun single => overlaps single.factory⟩

end Steps

/-- As long as no caller unwinds while its factory runs, one factory runs at a time and one instance
is handed out; once one does, the factory may run twice at a time. -/
theorem single_iff {ι ε : Type} {p : LazyConnectorProxy ι ε}
    (run : (proxy ι ε).Run (fun p l _ => Attending p l) .fresh p) :
    Single p ∧ ∀ l q, (proxy ι ε).step l p = some q →
      ((∀ r, (proxy ι ε).Run (fun p l _ => Attending p l) q r → Single r) ↔ Attending p l) := by
  have kept := kept_fresh.run run
  refine ⟨kept.single, fun l q stepped => ⟨fun always => ?_, fun minds r later => ?_⟩⟩
  · cases l with
    | unwind i =>
        intro attends
        obtain ⟨r, later, overlaps⟩ := kept.overlaps_of_unwind attends stepped
        exact overlaps (always r later)
    | aresolve => trivial
    | granted => trivial
    | starts i => trivial
    | finishes i outcome => trivial
    | returns i => trivial
    | cancel i => trivial
    | passes seconds => trivial
  · exact ((kept.step stepped minds).run later).single

/-- One operation at a time on a device, by the connector's calls and by its proxy. -/
theorem serial_iff {ι ε : Type} {s : SunSpec.Calls} {p : LazyConnectorProxy ι ε}
    (called : SunSpec.calls.Run (fun s l _ => SunSpec.Attending s l) .fresh s)
    (resolved : (proxy ι ε).Run (fun p l _ => Attending p l) .fresh p) :
    (s.Exclusive ∧ ∀ l t, SunSpec.calls.step l s = some t →
      ((∀ u, SunSpec.calls.Run (fun s l _ => SunSpec.Attending s l) t u → u.Exclusive) ↔
        SunSpec.Attending s l)) ∧
    (Single p ∧ ∀ l q, (proxy ι ε).step l p = some q →
      ((∀ r, (proxy ι ε).Run (fun p l _ => Attending p l) q r → Single r) ↔ Attending p l)) :=
  ⟨SunSpec.oneCore_iff called, single_iff resolved⟩

/-- A poller's read is with its thread when a write that waits is cancelled, and leaves; the poller
is cancelled too, and leaves when its thread is done; then another read goes on. -/
def cancelledCalls : List SunSpec.CallStep :=
  [.fetch .monitoring, .update (.connect false), .fetch .status, .starts 0, .cancel 1, .unwind 1,
    .cancel 0, .finishes 0, .unwind 0, .granted, .starts 2]

/-- The same of the proxy's callers: the first leaves when the factory has built, and the others get
what it built. -/
def cancelledCallers : List (Step Nat String) :=
  [.aresolve, .aresolve, .aresolve, .starts 0, .cancel 1, .unwind 1, .cancel 0,
    .finishes 0 (.built 7), .unwind 0, .granted, .aresolve]

/-- At the end a thread has the last read, and one instance was handed out twice. -/
theorem serial_reading : ∃ (s : SunSpec.Calls) (p : LazyConnectorProxy Nat String),
    (SunSpec.calls.execMeeting (fun s l _ => SunSpec.Attending s l) .fresh cancelledCalls = some s ∧
      (s.task 2).worker.IsRunning) ∧
    ((proxy Nat String).execMeeting (fun p l _ => Attending p l) .fresh cancelledCallers = some p ∧
      p.handed = [7, 7]) ∧
    (Hops.Exclusive s ∧ ∀ l t, SunSpec.calls.step l s = some t →
      ((∀ u, SunSpec.calls.Run (fun s l _ => SunSpec.Attending s l) t u → Hops.Exclusive u) ↔
        SunSpec.Attending s l)) ∧
    (Single p ∧ ∀ l q, (proxy Nat String).step l p = some q →
      ((∀ r, (proxy Nat String).Run (fun p l _ => Attending p l) q r → Single r) ↔
        Attending p l)) := by
  obtain ⟨s, called, running⟩ : ∃ s : SunSpec.Calls, SunSpec.calls.execMeeting
      (fun s l _ => SunSpec.Attending s l) .fresh cancelledCalls = some s ∧
        (s.task 2).worker.IsRunning := ⟨_, rfl, trivial⟩
  obtain ⟨p, resolved, handed⟩ : ∃ p : LazyConnectorProxy Nat String, (proxy Nat String).execMeeting
      (fun p l _ => Attending p l) .fresh cancelledCallers = some p ∧ p.handed = [7, 7] :=
    ⟨_, rfl, rfl⟩
  exact ⟨s, p, ⟨called, running⟩, ⟨resolved, handed⟩,
    serial_iff (Machine.run_of_meeting _ called) (Machine.run_of_meeting _ resolved)⟩

/-- A poller that is cancelled during a read lets a write run beside it; a caller that is cancelled
during the first construction lets another construct too, and callers get both instances. -/
theorem twoAtATime :
    (∃ s, SunSpec.calls.Run Machine.Free .fresh s ∧ ¬Hops.Exclusive s) ∧
      ∃ p : LazyConnectorProxy Nat String, (proxy Nat String).Run Machine.Free .fresh p ∧
        p.handed = [1, 2] := by
  constructor
  · refine ⟨_, Machine.run_of_exec [.fetch .monitoring, .update (.connect false), .starts 0,
      .cancel 0, .unwind 0, .granted, .starts 1] rfl, fun exclusive => ?_⟩
    exact absurd (exclusive 0 1 trivial trivial) (by decide)
  · exact ⟨_, Machine.run_of_exec [.aresolve, .aresolve, .starts 0, .cancel 0, .unwind 0, .granted,
      .starts 1, .finishes 0 (.built 1), .aresolve, .finishes 1 (.built 2), .returns 1] rfl, rfl⟩

end Py20305.Registry
