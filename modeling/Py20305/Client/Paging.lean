import Py20305.Client.State

/-!
Paged list retrieval (`Sep2Client.get_list`) and the DERControl list refresh
built on it (`discovery.py`).

The server is the list of outcomes its successive page GETs have, in the order
they are made. `getList` reads them until the loop's own stop test holds; a run
that has used up the outcomes is still waiting for an answer.

The stop test compares declared counts only: the sum of the pages' `results`
attributes against `all`, or a `results` of zero. Whether the pages hold that
many entries is never looked at. `DeliversAll` says when it makes no
difference, and `getList_holdsAll_iff` that it is exactly then that a list
returned as whole holds as many entries as `all` says.
-/

namespace Py20305

/-- How a GET fails: a `Sep2ProtocolError` with its status, a body that does
not parse (`Sep2PayloadError`), or any other exception. -/
inductive Fault where
  | protocol (status : Nat)
  | payload
  | other
  deriving DecidableEq, Repr

/-- `_paging_fault`. -/
def pagingFault (status : Nat) : Bool := status = 404 || status = 204

/-- One page of a list resource: its two count attributes and its entries. -/
structure Page (α : Type) where
  all : Int
  results : Int
  items : List α

section GetList

variable {α : Type}

/-- The entries of the pages, in order. -/
def collected (pages : List (Page α)) : List α := pages.flatMap (·.items)

/-- The loop of `get_list`, from the offset `start` with `read` pages behind it. -/
def getListFrom (start : Int) (read : List (Page α)) :
    List (Except Fault (Page α)) → Option (Except Fault (List (Page α)))
  | [] => none
  | .error (.protocol status) :: _ =>
      -- A 404 or 204 before anything was read means that there is no list.
      if start = 0 ∧ pagingFault status = true then some (.ok [])
      else some (.error (.protocol status))
  | .error fault :: _ => some (.error fault)
  | .ok page :: rest =>
      if page.all ≤ start + page.results ∨ page.results = 0 then some (.ok (read ++ [page]))
      else getListFrom (start + page.results) (read ++ [page]) rest

/-- `Sep2Client.get_list`. -/
def getList (answers : List (Except Fault (Page α))) : Option (Except Fault (List (Page α))) :=
  getListFrom 0 [] answers

/-- The pages hold as many entries as each of them says the list has. An absent
list declares no count. -/
def HoldsAll (pages : List (Page α)) : Prop := ∀ page ∈ pages, page.all ≤ (collected pages).length

/-- No page read under-delivers: where the declared counts reach `all`, or a
page declares no results, the entries received reach every `all` that was
declared up to there. -/
def DeliversAllFrom (declared held most : Int) : List (Except Fault (Page α)) → Prop
  | [] => True
  | .error _ :: _ => True
  | .ok page :: rest =>
      if page.all ≤ declared + page.results ∨ page.results = 0 then
        max most page.all ≤ held + page.items.length
      else
        DeliversAllFrom (declared + page.results) (held + page.items.length) (max most page.all)
          rest

/-- `DeliversAllFrom` over a whole retrieval. -/
def DeliversAll (answers : List (Except Fault (Page α))) : Prop := DeliversAllFrom 0 0 0 answers

instance decidableDeliversAllFrom (answers : List (Except Fault (Page α))) :
    ∀ declared held most, Decidable (DeliversAllFrom declared held most answers) :=
  match answers with
  | [] => fun _ _ _ => isTrue trivial
  | .error _ :: _ => fun _ _ _ => isTrue trivial
  | .ok page :: rest => fun declared held most =>
      if stop : page.all ≤ declared + page.results ∨ page.results = 0 then
        decidable_of_iff (max most page.all ≤ held + page.items.length)
          (by simp only [DeliversAllFrom, if_pos stop])
      else
        have : Decidable (DeliversAllFrom (declared + page.results) (held + page.items.length)
            (max most page.all) rest) :=
          decidableDeliversAllFrom rest _ _ _
        decidable_of_iff
          (DeliversAllFrom (declared + page.results) (held + page.items.length)
            (max most page.all) rest)
          (by simp only [DeliversAllFrom, if_neg stop])

instance (answers : List (Except Fault (Page α))) : Decidable (DeliversAll answers) :=
  decidableDeliversAllFrom answers 0 0 0

@[simp] theorem collected_append (xs ys : List (Page α)) :
    collected (xs ++ ys) = collected xs ++ collected ys :=
  List.flatMap_append

@[simp] theorem collected_singleton (page : Page α) : collected [page] = page.items := by
  simp [collected]

/-- `most` is the largest count that the pages declare. -/
def Most (pages : List (Page α)) (most : Int) : Prop :=
  ∀ n : Int, 0 ≤ n → (most ≤ n ↔ ∀ page ∈ pages, page.all ≤ n)

theorem most_nil : Most ([] : List (Page α)) 0 := fun n nonneg => by simp [nonneg]

theorem Most.snoc {read : List (Page α)} {most : Int} (h : Most read most) (page : Page α) :
    Most (read ++ [page]) (max most page.all) := fun n nonneg => by
  rw [max_le_iff, h n nonneg]
  simp [or_imp, forall_and]

theorem Most.holdsAll_iff {pages : List (Page α)} {most : Int} (h : Most pages most) :
    HoldsAll pages ↔ most ≤ (collected pages).length :=
  (h _ (Int.natCast_nonneg _)).symm

/-- The pages `get_list` returns, from any point of its loop, hold as many
entries as they declare exactly when no page read under-delivers. -/
theorem getListFrom_holdsAll_iff (answers : List (Except Fault (Page α))) (start : Int)
    {read : List (Page α)} {most : Int} (h : Most read most) :
    (∀ pages, getListFrom start read answers = some (.ok pages) → HoldsAll pages) ↔
      DeliversAllFrom start (collected read).length most answers := by
  induction answers generalizing start read most with
  | nil => simp [getListFrom, DeliversAllFrom]
  | cons answer rest ih =>
      cases answer with
      | error fault =>
          simp only [DeliversAllFrom, iff_true]
          intro pages returned
          cases fault with
          | protocol status =>
              simp only [getListFrom] at returned
              split at returned
              · cases returned
                simp [HoldsAll]
              · cases returned
          | payload => cases returned
          | other => cases returned
      | ok page =>
          have length : ((collected (read ++ [page])).length : Int) =
              (collected read).length + page.items.length := by
            simp
          by_cases stop : page.all ≤ start + page.results ∨ page.results = 0
          · simp only [getListFrom, DeliversAllFrom, if_pos stop, Option.some.injEq,
              Except.ok.injEq, forall_eq']
            rw [(h.snoc page).holdsAll_iff, length]
          · simp only [getListFrom, DeliversAllFrom, if_neg stop]
            rw [ih _ (h.snoc page), length]

theorem getList_holdsAll_iff (answers : List (Except Fault (Page α))) :
    (∀ pages, getList answers = some (.ok pages) → HoldsAll pages) ↔ DeliversAll answers :=
  getListFrom_holdsAll_iff answers 0 most_nil

/-- A last page that declares nothing does not make up for an earlier one. -/
example : ¬ DeliversAll ([.ok ⟨3, 2, [1, 2]⟩, .ok ⟨0, 0, []⟩] : List (Except Fault (Page Nat))) := by
  decide

/-! ### Servers that page one list -/

/-- The answers page the list `entries` from `offset` on: each page holds the
next entries, says in `results` how many it holds and in `all` how many the list
has, and "there is no list" is answered only where there is none. How many
entries a page holds, none included, is the server's choice. -/
def PagesOf (entries : List α) (offset : Nat) : List (Except Fault (Page α)) → Prop
  | [] => True
  | .error (.protocol status) :: _ => offset = 0 → pagingFault status = true → entries = []
  | .error _ :: _ => True
  | .ok page :: rest =>
      page.all = entries.length ∧ page.results = page.items.length ∧
        page.items = (entries.drop offset).take page.items.length ∧
          PagesOf entries (offset + page.items.length) rest

theorem getListFrom_eq_entries {entries : List α} (answers : List (Except Fault (Page α)))
    {offset : Nat} {read pages : List (Page α)} {most : Int}
    (paged : PagesOf entries offset answers)
    (sofar : collected read = entries.take offset) (bound : offset ≤ entries.length)
    (delivers : DeliversAllFrom offset (collected read).length most answers)
    (returned : getListFrom offset read answers = some (.ok pages)) :
    collected pages = entries := by
  induction answers generalizing offset read most with
  | nil => cases returned
  | cons answer rest ih =>
      cases answer with
      | error fault =>
          cases fault with
          | protocol status =>
              simp only [getListFrom] at returned
              split at returned
              · rename_i absent
                cases returned
                simp only [PagesOf] at paged
                rw [paged (by exact_mod_cast absent.1) absent.2]
                rfl
              · cases returned
          | payload => cases returned
          | other => cases returned
      | ok page =>
          obtain ⟨total, declared, slice, later⟩ := paged
          have grown : collected (read ++ [page]) = entries.take (offset + page.items.length) := by
            rw [collected_append, collected_singleton, sofar, List.take_add, ← slice]
          have fits : offset + page.items.length ≤ entries.length := by
            have := congrArg List.length slice
            rw [List.length_take, List.length_drop] at this
            omega
          have held : (collected read).length = offset := by
            rw [sofar, List.length_take]
            omega
          by_cases stop : page.all ≤ offset + page.results ∨ page.results = 0
          · simp only [DeliversAllFrom, if_pos stop] at delivers
            replace delivers := le_trans (le_max_right _ _) delivers
            rw [total, held] at delivers
            simp only [getListFrom, if_pos stop, Option.some.injEq, Except.ok.injEq] at returned
            rw [← returned, grown]
            exact List.take_of_length_le (by exact_mod_cast delivers)
          · simp only [getListFrom, if_neg stop] at returned
            simp only [DeliversAllFrom, if_neg stop] at delivers
            refine @ih (offset + page.items.length) _ (max most page.all) later grown fits ?_ ?_
            · rw [collected_append, List.length_append, collected_singleton]
              simpa [declared] using delivers
            · simpa [declared] using returned

/-- A list that is paged and delivered in full is read in full. -/
theorem getList_eq_entries {entries : List α} {answers : List (Except Fault (Page α))}
    {pages : List (Page α)} (paged : PagesOf entries 0 answers) (delivers : DeliversAll answers)
    (returned : getList answers = some (.ok pages)) : collected pages = entries :=
  @getListFrom_eq_entries _ _ answers 0 [] _ 0 paged rfl (Nat.zero_le _) delivers returned

end GetList

/-! ### Control lists -/

/-- How a fetching coroutine ended, if it did. -/
inductive Ended where
  | returned
  | raised (fault : Fault)
  | waiting
  deriving DecidableEq

/-- What the server answers to the GETs made for one program. Curves are passed
through unread, so their pages carry no entries here. -/
structure ProgramFetch where
  dderc : Except Fault DefaultDercontrol
  curves : List (Except Fault (Page Unit))
  controls : List (Except Fault (Page Dercontrol))

/-- The program with the list just read, marked as whole. -/
def DerProgramState.withControls (ps : DerProgramState) (pages : List (Page Dercontrol)) :
    DerProgramState :=
  { ps with derControls := collected pages, derControlsComplete := true }

/-- The DefaultDERControl part of a refresh. -/
def refreshDefault (ps : DerProgramState) (answer : Except Fault DefaultDercontrol) :
    DerProgramState × Ended :=
  match extractHref ps.program.defaultDercontrolLink with
  | none => ({ ps with defaultDercontrol := none }, .returned)
  | some _ =>
      match answer with
      | .ok dderc => ({ ps with defaultDercontrol := some dderc }, .returned)
      | .error (.protocol status) =>
          if pagingFault status then ({ ps with defaultDercontrol := none }, .returned)
          else (ps, .raised (.protocol status))
      | .error _ => (ps, .returned)

/-- `_refresh_curves_for_program`, which can still raise or wait. -/
def refreshCurves (ps : DerProgramState) (answers : List (Except Fault (Page Unit))) : Ended :=
  match extractHref ps.program.dercurveListLink with
  | none => .returned
  | some _ =>
      match getList answers with
      | none => .waiting
      | some (.error (.protocol status)) =>
          if pagingFault status then .returned else .raised (.protocol status)
      | some _ => .returned

/-- The control list part of a refresh: a fault between pages, an unparseable
page and any other failure keep the list held; another protocol error is
raised. -/
def refreshControlList (ps : DerProgramState)
    (answers : List (Except Fault (Page Dercontrol))) : DerProgramState × Ended :=
  match extractHref ps.program.dercontrolListLink with
  | none => (ps, .returned)
  | some _ =>
      match getList answers with
      | none => (ps, .waiting)
      | some (.ok pages) => (ps.withControls pages, .returned)
      | some (.error (.protocol status)) =>
          if pagingFault status then (ps, .returned) else (ps, .raised (.protocol status))
      | some (.error _) => (ps, .returned)

/-- The body shared by `refresh_der_controls`, once per program, and
`refresh_der_controls_for_program`. -/
def refreshProgram (ps : DerProgramState) (fetch : ProgramFetch) : DerProgramState × Ended :=
  match refreshDefault ps fetch.dderc with
  | (ps, .returned) =>
      match refreshCurves ps fetch.curves with
      | .returned => refreshControlList ps fetch.controls
      | ended => (ps, ended)
  | stopped => stopped

/-- The loop of `refresh_der_controls` over the programs still ahead. -/
def refreshDerControlsFrom (fetch : Href → ProgramFetch) :
    List Href → DiscoveredState → DiscoveredState × Ended
  | [], state => (state, .returned)
  | p :: rest, state =>
      match state.derPrograms.get? p with
      | none => refreshDerControlsFrom fetch rest state
      | some ps =>
          let r := refreshProgram ps (fetch p)
          let state := { state with derPrograms := state.derPrograms.set p r.1 }
          match r.2 with
          | .returned => refreshDerControlsFrom fetch rest state
          | ended => (state, ended)

/-- `refresh_der_controls`. -/
def refreshDerControls (fetch : Href → ProgramFetch) (state : DiscoveredState) :
    DiscoveredState × Ended :=
  refreshDerControlsFrom fetch state.derPrograms.keys state

/-- `refresh_der_controls_for_program`: an unknown program is left alone. -/
def refreshDerControlsForProgram (fetch : ProgramFetch) (state : DiscoveredState) (p : Href) :
    DiscoveredState × Ended :=
  match state.derPrograms.get? p with
  | none => (state, .returned)
  | some ps =>
      let r := refreshProgram ps fetch
      ({ state with derPrograms := state.derPrograms.set p r.1 }, r.2)

/-- The control list part of `_discover_program`, which lets no failure out. -/
def discoverControlList (ps : DerProgramState)
    (answers : List (Except Fault (Page Dercontrol))) : DerProgramState × Ended :=
  match extractHref ps.program.dercontrolListLink with
  | none => (ps, .returned)
  | some _ =>
      match getList answers with
      | none => (ps, .waiting)
      | some (.ok pages) => (ps.withControls pages, .returned)
      | some (.error _) => (ps, .returned)

/-- `_discover_program`: from an empty control list. -/
def discoverProgram (derp : Derprogram) (href : Href) (fetch : ProgramFetch) :
    DerProgramState × Ended :=
  let ps : DerProgramState := { program := derp, href := href, primacy := derp.primacy.getD 0 }
  match extractHref derp.defaultDercontrolLink with
  | none => discoverControlList ps fetch.controls
  | some _ =>
      match fetch.dderc with
      | .ok dderc => discoverControlList { ps with defaultDercontrol := some dderc } fetch.controls
      | .error (.protocol status) =>
          if pagingFault status then discoverControlList ps fetch.controls
          else (ps, .raised (.protocol status))
      | .error .payload => discoverControlList ps fetch.controls
      | .error .other => (ps, .raised .other)

/-- `ps'` holds the list `ps` held, or the pages of one complete retrieval. -/
def ControlsFrom (answers : List (Except Fault (Page Dercontrol))) (ps ps' : DerProgramState) :
    Prop :=
  (ps'.derControls = ps.derControls ∧ ps'.derControlsComplete = ps.derControlsComplete) ∨
    ∃ pages, getList answers = some (.ok pages) ∧
      ps'.derControls = collected pages ∧ ps'.derControlsComplete = true

theorem refreshDefault_controls (ps : DerProgramState) (answer : Except Fault DefaultDercontrol) :
    (refreshDefault ps answer).1.derControls = ps.derControls ∧
      (refreshDefault ps answer).1.derControlsComplete = ps.derControlsComplete := by
  unfold refreshDefault
  split
  · exact ⟨rfl, rfl⟩
  · split
    · exact ⟨rfl, rfl⟩
    · split <;> exact ⟨rfl, rfl⟩
    · exact ⟨rfl, rfl⟩

theorem refreshControlList_controls (ps : DerProgramState)
    (answers : List (Except Fault (Page Dercontrol))) :
    ControlsFrom answers ps (refreshControlList ps answers).1 := by
  unfold refreshControlList
  split
  · exact Or.inl ⟨rfl, rfl⟩
  · split
    · exact Or.inl ⟨rfl, rfl⟩
    · rename_i pages returned
      exact Or.inr ⟨pages, returned, rfl, rfl⟩
    · split <;> exact Or.inl ⟨rfl, rfl⟩
    · exact Or.inl ⟨rfl, rfl⟩

theorem refreshProgram_controls (ps : DerProgramState) (fetch : ProgramFetch) :
    ControlsFrom fetch.controls ps (refreshProgram ps fetch).1 := by
  have kept := refreshDefault_controls ps fetch.dderc
  unfold refreshProgram
  split
  · rename_i ps₁ first
    rw [first] at kept
    split
    · have replaced := refreshControlList_controls ps₁ fetch.controls
      unfold ControlsFrom at replaced ⊢
      rwa [kept.1, kept.2] at replaced
    · exact Or.inl kept
  · exact Or.inl kept

/-- The loop leaves a program that is not ahead of it alone. -/
theorem refreshDerControlsFrom_get?_of_notMem (fetch : Href → ProgramFetch) {p : Href}
    (programs : List Href) (state : DiscoveredState) (absent : p ∉ programs) :
    (refreshDerControlsFrom fetch programs state).1.derPrograms.get? p =
      state.derPrograms.get? p := by
  induction programs generalizing state with
  | nil => rfl
  | cons q rest ih =>
      simp only [List.mem_cons, not_or] at absent
      unfold refreshDerControlsFrom
      split
      · exact ih state absent.2
      · simp only
        split
        · rw [ih _ absent.2]
          exact Dict.get?_set_ne _ _ absent.1
        · exact Dict.get?_set_ne _ _ absent.1

theorem refreshDerControlsFrom_controls (fetch : Href → ProgramFetch) (programs : List Href)
    (distinct : programs.Nodup) (state : DiscoveredState) {p : Href} {ps' : DerProgramState}
    (after : (refreshDerControlsFrom fetch programs state).1.derPrograms.get? p = some ps') :
    ∃ ps, state.derPrograms.get? p = some ps ∧ ControlsFrom (fetch p).controls ps ps' := by
  induction programs generalizing state with
  | nil => exact ⟨ps', after, Or.inl ⟨rfl, rfl⟩⟩
  | cons q rest ih =>
      obtain ⟨fresh, distinct⟩ := List.nodup_cons.mp distinct
      unfold refreshDerControlsFrom at after
      split at after
      · exact ih distinct state after
      · rename_i old found
        have here : ∀ ps₁, (state.derPrograms.set q (refreshProgram old (fetch q)).1).get? p =
            some ps₁ → ∃ ps, state.derPrograms.get? p = some ps ∧
              ControlsFrom (fetch p).controls ps ps₁ := by
          intro ps₁ read
          rw [Dict.get?_set] at read
          split at read
          · rename_i same
            cases read
            rw [same]
            exact ⟨old, found, refreshProgram_controls old (fetch q)⟩
          · exact ⟨ps₁, read, Or.inl ⟨rfl, rfl⟩⟩
        simp only at after
        split at after
        · by_cases same : p = q
          · subst same
            rw [refreshDerControlsFrom_get?_of_notMem fetch rest _ fresh] at after
            exact here ps' after
          · obtain ⟨ps, before, controls⟩ := ih distinct _ after
            rw [Dict.get?_set_ne _ _ same] at before
            exact ⟨ps, before, controls⟩
        · exact here ps' after

theorem refreshDerControls_controls {fetch : Href → ProgramFetch} {state : DiscoveredState}
    {p : Href} {ps' : DerProgramState}
    (after : (refreshDerControls fetch state).1.derPrograms.get? p = some ps') :
    ∃ ps, state.derPrograms.get? p = some ps ∧ ControlsFrom (fetch p).controls ps ps' :=
  refreshDerControlsFrom_controls fetch _ state.derPrograms.nodup state after

theorem refreshDerControlsForProgram_controls {fetch : ProgramFetch} {state : DiscoveredState}
    {p : Href} {ps' : DerProgramState}
    (after : (refreshDerControlsForProgram fetch state p).1.derPrograms.get? p = some ps') :
    ∃ ps, state.derPrograms.get? p = some ps ∧ ControlsFrom fetch.controls ps ps' := by
  unfold refreshDerControlsForProgram at after
  split at after
  · exact ⟨ps', after, Or.inl ⟨rfl, rfl⟩⟩
  · rename_i ps found
    simp only [Dict.get?_set_self, Option.some.injEq] at after
    exact ⟨ps, found, after ▸ refreshProgram_controls ps fetch⟩

theorem discoverControlList_controls (ps : DerProgramState)
    (answers : List (Except Fault (Page Dercontrol))) :
    ControlsFrom answers ps (discoverControlList ps answers).1 := by
  unfold discoverControlList
  split
  · exact Or.inl ⟨rfl, rfl⟩
  · split
    · exact Or.inl ⟨rfl, rfl⟩
    · rename_i pages returned
      exact Or.inr ⟨pages, returned, rfl, rfl⟩
    · exact Or.inl ⟨rfl, rfl⟩

theorem discoverControlList_program (ps : DerProgramState)
    (answers : List (Except Fault (Page Dercontrol))) :
    (discoverControlList ps answers).1.program = ps.program ∧
      (discoverControlList ps answers).1.primacy = ps.primacy := by
  unfold discoverControlList
  split
  · exact ⟨rfl, rfl⟩
  · split <;> exact ⟨rfl, rfl⟩

theorem discoverProgram_controls (derp : Derprogram) (href : Href) (fetch : ProgramFetch) :
    ControlsFrom fetch.controls { program := derp, href := href, primacy := derp.primacy.getD 0 }
      (discoverProgram derp href fetch).1 := by
  unfold discoverProgram
  simp only
  split
  · exact discoverControlList_controls _ _
  · split
    · exact discoverControlList_controls _ fetch.controls
    · split
      · exact discoverControlList_controls _ _
      · exact Or.inl ⟨rfl, rfl⟩
    · exact discoverControlList_controls _ _
    · exact Or.inl ⟨rfl, rfl⟩

theorem discoverProgram_program (derp : Derprogram) (href : Href) (fetch : ProgramFetch) :
    (discoverProgram derp href fetch).1.program = derp ∧
      (discoverProgram derp href fetch).1.primacy = derp.primacy.getD 0 := by
  unfold discoverProgram
  simp only
  split
  · exact discoverControlList_program _ _
  · split
    · exact discoverControlList_program _ fetch.controls
    · split
      · exact discoverControlList_program _ _
      · exact ⟨rfl, rfl⟩
    · exact discoverControlList_program _ _
    · exact ⟨rfl, rfl⟩

end Py20305
