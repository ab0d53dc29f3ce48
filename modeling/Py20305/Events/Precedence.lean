import Mathlib
import Py20305.Events.AllPairs
import Py20305.Events.Chains

/-!
Supersession as an order (`compute_supersession` of `events/supersession.py`).

Events are ranked by primacy, then by their tie-break time, newest first, whichever clock it comes
from. Where no two events that are compared with each other tie, the results are the pairs in which
one outranks the other (`mem_results`), so they follow the order, whatever order the events were
found in (`supersession_strict_order`).

Events tie by their place in the list where the two have no compared mode, and connect, energize and
the CSIP-AUS limits are not compared (`supersession_ties`).
-/

namespace Py20305

/-! ### The best of a group -/

section Best

variable {α β : Type} [LinearOrder β]

/-- Of a group in which no two rank the same, exactly one is not beaten by another. -/
theorem exists_unique_unbeaten (rank : α → β) {group : List α} {beats : α → α → Prop}
    (some_member : group ≠ [])
    (ranked : ∀ a ∈ group, ∀ b ∈ group, beats a b ↔ rank a < rank b)
    (apart : ∀ a ∈ group, ∀ b ∈ group, rank a = rank b → a = b) :
    ∃! a, a ∈ group ∧ ∀ b ∈ group, ¬ beats b a := by
  obtain ⟨best, listed, least⟩ := Set.exists_min_image {a | a ∈ group} rank
    (List.finite_toSet group) (List.exists_mem_of_ne_nil group some_member)
  refine ⟨best, ⟨listed, fun b other beaten => ?_⟩, fun a unbeaten => ?_⟩
  · exact absurd ((ranked b other best listed).mp beaten) (not_lt.mpr (least b other))
  · have notLess : ¬ rank best < rank a := fun less =>
      unbeaten.2 best listed ((ranked best listed a unbeaten.1).mpr less)
    exact apart a unbeaten.1 best listed (le_antisymm (not_lt.mp notLess) (least a unbeaten.1))

end Best

/-! ### Ranks -/

/-- Lower primacy first, then newer. -/
def EventRecord.rank (a : EventRecord) : ℕ ×ₗ ℤ := toLex (a.primacy, -tieBreakTime a)

theorem outranks_iff (a b : EventRecord) : a.Outranks b ↔ a.rank < b.rank := by
  simp only [EventRecord.Outranks, EventRecord.rank, Prod.Lex.toLex_lt_toLex, neg_lt_neg_iff]

/-- A program of the event reaches the device. -/
def EventRecord.Reaches (map : ProgramDevices) (a : EventRecord) (d : Href) : Prop :=
  d ∈ map.getD a.programHref []

/-- No two events that are compared on a common device rank the same. -/
def Untied (map : ProgramDevices) (events : List EventRecord) : Prop :=
  ∀ a ∈ events, ∀ b ∈ events, a.mrid ≠ b.mrid → Meet a b →
    (∃ d, a.Reaches map d ∧ b.Reaches map d) → a.rank ≠ b.rank

theorem Meet.symm {a b : EventRecord} (meet : Meet a b) : Meet b a := by
  refine ⟨⟨meet.1.2, meet.1.1⟩, meet.2.imp Eq.symm fun common => ?_⟩
  rwa [Finset.inter_comm]

theorem Meet.supersedes {map : ProgramDevices} {a b : EventRecord} (meet : Meet a b)
    (shared : ∃ d, a.Reaches map d ∧ b.Reaches map d) (rank : a.rank < b.rank) :
    Supersedes map a b where
  rank := (outranks_iff a b).mpr rank
  time := by simpa [timeOverlaps] using meet.1
  modes := meet.2.imp id Finset.nonempty_iff_ne_empty.mp
  devices := shared

/-! ### The results -/

section Results

variable {map : ProgramDevices} {events : List EventRecord}

theorem eq_of_mrid_eq (distinct : (events.map (·.mrid)).Nodup) {a b : EventRecord}
    (first : a ∈ events) (second : b ∈ events) (same : a.mrid = b.mrid) : a = b :=
  List.inj_on_of_nodup_map distinct first second same

theorem pairResult_untied {a b : EventRecord} {r : SupersessionResult}
    (rank : (∃ d, a.Reaches map d ∧ b.Reaches map d) → Meet a b → a.rank ≠ b.rank)
    (found : compareEvents map a b = some r) :
    (Supersedes map a b ∧ r = resultOf map a b) ∨ (Supersedes map b a ∧ r = resultOf map b a) := by
  have both := found
  rw [compareEvents_eq, pairResult] at both
  split at both
  · rename_i compared
    obtain ⟨meet, shared⟩ := compared
    rcases lt_or_gt_of_ne (rank shared meet) with less | more
    · have wins := meet.supersedes shared less
      rw [(compareEvents_supersedes wins).1] at found
      exact .inl ⟨wins, (Option.some.inj found).symm⟩
    · have wins := meet.symm.supersedes (shared.imp fun d both => both.symm) more
      rw [(compareEvents_supersedes wins).2] at found
      exact .inr ⟨wins, (Option.some.inj found).symm⟩
  · cases both

/-- The results are the pairs in which one supersedes the other, wherever they stand. -/
theorem mem_results (settings : Settings) (distinct : (events.map (·.mrid)).Nodup)
    (untied : Untied map events) (r : SupersessionResult) :
    r ∈ SupersessionIndex.computeSupersession settings events map ↔
      ∃ a ∈ events, ∃ b ∈ events, Supersedes map a b ∧ r = resultOf map a b := by
  rw [SupersessionIndex.computeSupersession_eq, mem_computeSupersession distinct]
  constructor
  · rintro ⟨i, j, a, b, before, first, second, found⟩
    have listed := List.mem_of_getElem? first
    have listed' := List.mem_of_getElem? second
    have other : a.mrid ≠ b.mrid := fun same =>
      absurd (index_unique distinct first second same) before.ne
    rcases pairResult_untied (fun shared meet => untied a listed b listed' other meet shared) found
      with ⟨wins, same⟩ | ⟨wins, same⟩
    · exact ⟨a, listed, b, listed', wins, same⟩
    · exact ⟨b, listed', a, listed, wins, same⟩
  · rintro ⟨a, listed, b, listed', wins, rfl⟩
    obtain ⟨i, first⟩ := List.mem_iff_getElem?.mp listed
    obtain ⟨j, second⟩ := List.mem_iff_getElem?.mp listed'
    obtain ⟨forth, back⟩ := compareEvents_supersedes wins
    rcases lt_trichotomy i j with before | rfl | after
    · exact ⟨i, j, a, b, before, first, second, forth⟩
    · rw [first, Option.some.injEq] at second
      subst second
      exact absurd ((outranks_iff a a).mp wins.rank) (lt_irrefl _)
    · exact ⟨j, i, b, a, after, second, first, back⟩

/-- Some result has the one mRID superseding the other. -/
def SupersedesIn (results : List SupersessionResult) (winner loser : Mrid) : Prop :=
  ∃ r ∈ results, r.supersedingMrid = winner ∧ r.supersededMrid = loser

/-- What supersedes outranks, over any number of results. -/
theorem outranks_of_chain (settings : Settings) (distinct : (events.map (·.mrid)).Nodup)
    (untied : Untied map events) {winner loser : Mrid}
    (chain : Relation.TransGen
      (SupersedesIn (SupersessionIndex.computeSupersession settings events map)) winner loser) :
    ∃ a ∈ events, ∃ b ∈ events, a.mrid = winner ∧ b.mrid = loser ∧ a.rank < b.rank := by
  have one {x y : Mrid} (first : SupersedesIn
      (SupersessionIndex.computeSupersession settings events map) x y) :
      ∃ a ∈ events, ∃ b ∈ events, a.mrid = x ∧ b.mrid = y ∧ a.rank < b.rank := by
    obtain ⟨r, listed, rfl, rfl⟩ := first
    obtain ⟨a, ina, b, inb, wins, rfl⟩ := (mem_results settings distinct untied r).mp listed
    exact ⟨a, ina, b, inb, rfl, rfl, (outranks_iff a b).mp wins.rank⟩
  induction chain with
  | single first => exact one first
  | tail _ last ih =>
      obtain ⟨a, ina, b, inb, named, middle, less⟩ := ih
      obtain ⟨b', inb', c, inc, middle', named', less'⟩ := one last
      obtain rfl := eq_of_mrid_eq distinct inb inb' (middle.trans middle'.symm)
      exact ⟨a, ina, c, inc, named, named', less.trans less'⟩

end Results

/-! ### Every pair once -/

theorem mem_of_mem_pairsOf {α : Type} {xs : List α} {pair : α × α} (listed : pair ∈ pairsOf xs) :
    pair.1 ∈ xs ∧ pair.2 ∈ xs := by
  induction xs with
  | nil => cases listed
  | cons x rest ih =>
      rw [pairsOf, List.mem_append, List.mem_map] at listed
      rcases listed with ⟨y, later, rfl⟩ | later
      · exact ⟨List.mem_cons_self, List.mem_cons_of_mem x later⟩
      · exact ⟨List.mem_cons_of_mem x (ih later).1, List.mem_cons_of_mem x (ih later).2⟩

theorem pairsOf_map {α β : Type} (f : α → β) (xs : List α) :
    pairsOf (xs.map f) = (pairsOf xs).map fun pair => (f pair.1, f pair.2) := by
  induction xs with
  | nil => rfl
  | cons x rest ih => simp [pairsOf, ih, Function.comp_def]

/-- The pairs of distinct elements are distinct, in either order. -/
theorem nodup_pairsOf {α : Type} {xs : List α} (distinct : xs.Nodup) :
    ((pairsOf xs).map fun pair => s(pair.1, pair.2)).Nodup := by
  induction xs with
  | nil => exact List.nodup_nil
  | cons x rest ih =>
      obtain ⟨fresh, distinct⟩ := List.nodup_cons.mp distinct
      rw [pairsOf, List.map_append, List.map_map, List.nodup_append]
      refine ⟨distinct.map fun b c same => ?_, ih distinct, ?_⟩
      · exact Sym2.congr_right.mp (show s(x, b) = s(x, c) from same)
      · rintro key first _ second rfl
        obtain ⟨b, -, rfl⟩ := List.mem_map.mp first
        obtain ⟨pair, later, same⟩ := List.mem_map.mp second
        -- a later pair that has `x` in it
        have within : x ∈ s(pair.1, pair.2) := same ▸ Sym2.mem_mk_left x b
        rcases Sym2.mem_iff.mp within with rfl | rfl
        · exact fresh (mem_of_mem_pairsOf later).1
        · exact fresh (mem_of_mem_pairsOf later).2

theorem map_filterMap_sublist {α β γ : Type} {f : α → Option β} {key : β → γ} {key' : α → γ}
    (same : ∀ x y, f x = some y → key y = key' x) (xs : List α) :
    ((xs.filterMap f).map key).Sublist (xs.map key') := by
  induction xs with
  | nil => exact List.Sublist.refl _
  | cons x rest ih =>
      rw [List.filterMap_cons, List.map_cons]
      cases found : f x with
      | none => exact ih.cons _
      | some y =>
          rw [List.map_cons, same x y found]
          exact ih.cons_cons _

/-- The parties of a result, in either order. -/
def SupersessionResult.parties (r : SupersessionResult) : Sym2 Mrid :=
  s(r.supersedingMrid, r.supersededMrid)

theorem pairResult_parties {map : ProgramDevices} {a b : EventRecord} {r : SupersessionResult}
    (found : pairResult map a b = some r) : r.parties = s(a.mrid, b.mrid) := by
  rw [pairResult] at found
  split at found
  · cases found
    split
    · rfl
    · exact Sym2.eq_swap
  · cases found

theorem nodup_parties (settings : Settings) {events : List EventRecord} (map : ProgramDevices)
    (distinct : (events.map (·.mrid)).Nodup) :
    ((SupersessionIndex.computeSupersession settings events map).map
      SupersessionResult.parties).Nodup := by
  rw [supersession_eq_allPairs settings events map distinct, allPairs]
  refine (map_filterMap_sublist (fun _ _ found => pairResult_parties found) _).nodup ?_
  have pairs := nodup_pairsOf distinct
  rwa [pairsOf_map, List.map_map] at pairs

/-! ### Groups -/

/-- Events of the list that set the mode, reach the device and run at a common time, two by two. -/
structure IsGroup (map : ProgramDevices) (events : List EventRecord) (d : Href) (m : Mode)
    (group : List EventRecord) : Prop where
  listed : ∀ a ∈ group, a ∈ events
  sets : ∀ a ∈ group, m ∈ a.derc.base.present
  reaches : ∀ a ∈ group, a.Reaches map d
  overlap : ∀ a ∈ group, ∀ b ∈ group, a.mrid ≠ b.mrid → timeOverlaps a b = true

/-- Some result has the one event superseded by the other, on the device and for the mode. -/
def SupersededThere (results : List SupersessionResult) (d : Href) (m : Mode)
    (winner loser : EventRecord) : Prop :=
  ∃ r ∈ results, r.supersedingMrid = winner.mrid ∧ r.supersededMrid = loser.mrid ∧
    d ∈ r.affectedDevices ∧ m ∈ r.affectedModes

section Groups

variable {map : ProgramDevices} {events : List EventRecord} {d : Href} {m : Mode}
  {group : List EventRecord}

theorem IsGroup.compared (isGroup : IsGroup map events d m group) (compared : m.isCompared = true)
    {a : EventRecord} (member : a ∈ group) : m ∈ comparedModeKeys a.derc.base :=
  Finset.mem_filter.mpr ⟨isGroup.sets a member, compared⟩

theorem IsGroup.meet (isGroup : IsGroup map events d m group) (compared : m.isCompared = true)
    {a b : EventRecord} (first : a ∈ group) (second : b ∈ group) (other : a.mrid ≠ b.mrid) :
    Meet a b := by
  refine ⟨by simpa [timeOverlaps] using isGroup.overlap a first b second other, .inr ⟨m, ?_⟩⟩
  exact Finset.mem_inter.mpr
    ⟨isGroup.compared compared first, isGroup.compared compared second⟩

/-- In a group, what outranks supersedes there. -/
theorem IsGroup.supersededThere_iff (isGroup : IsGroup map events d m group) (settings : Settings)
    (distinct : (events.map (·.mrid)).Nodup) (untied : Untied map events)
    (compared : m.isCompared = true) {a b : EventRecord} (first : a ∈ group) (second : b ∈ group) :
    SupersededThere (SupersessionIndex.computeSupersession settings events map) d m a b ↔
      a.rank < b.rank := by
  constructor
  · rintro ⟨r, listed, winner, loser, -, -⟩
    obtain ⟨a', ina, b', inb, wins, rfl⟩ := (mem_results settings distinct untied r).mp listed
    obtain rfl := eq_of_mrid_eq distinct ina (isGroup.listed a first) winner
    obtain rfl := eq_of_mrid_eq distinct inb (isGroup.listed b second) loser
    exact (outranks_iff a' b').mp wins.rank
  · intro less
    have other : a.mrid ≠ b.mrid := by
      intro same
      rw [eq_of_mrid_eq distinct (isGroup.listed a first) (isGroup.listed b second) same] at less
      exact lt_irrefl _ less
    have wins := (isGroup.meet compared first second other).supersedes
      ⟨d, isGroup.reaches a first, isGroup.reaches b second⟩ less
    refine ⟨resultOf map a b, (mem_results settings distinct untied _).mpr
      ⟨a, isGroup.listed a first, b, isGroup.listed b second, wins, rfl⟩, rfl, rfl, ?_, ?_⟩
    · exact List.mem_filter.mpr ⟨isGroup.reaches a first, decide_eq_true (isGroup.reaches b second)⟩
    · exact Finset.mem_inter.mpr
        ⟨isGroup.compared compared first, isGroup.compared compared second⟩

/-- In a group, one event stands. -/
theorem IsGroup.exists_unique (isGroup : IsGroup map events d m group) (settings : Settings)
    (distinct : (events.map (·.mrid)).Nodup) (untied : Untied map events)
    (compared : m.isCompared = true) (some_member : group ≠ []) :
    ∃! a, a ∈ group ∧ ∀ b ∈ group,
      ¬ SupersededThere (SupersessionIndex.computeSupersession settings events map) d m b a := by
  refine exists_unique_unbeaten EventRecord.rank some_member
    (fun a first b second =>
      isGroup.supersededThere_iff settings distinct untied compared first second)
    (fun a first b second same => ?_)
  refine eq_of_mrid_eq distinct (isGroup.listed a first) (isGroup.listed b second) ?_
  by_contra other
  exact untied a (isGroup.listed a first) b (isGroup.listed b second) other
    (isGroup.meet compared first second other)
    ⟨d, isGroup.reaches a first, isGroup.reaches b second⟩ same

end Groups

/-- Where no two events that are compared on a common device tie, supersession has no cycle and
each pair of events once, does not depend on the order of the list (nor on that of sets), and
leaves one event of each group, for each compared mode. -/
theorem supersession_strict_order (settings : Settings) (map : ProgramDevices)
    (events : List EventRecord) (distinct : (events.map (·.mrid)).Nodup)
    (untied : Untied map events) :
    (∀ mrid, ¬ Relation.TransGen
      (SupersedesIn (SupersessionIndex.computeSupersession settings events map)) mrid mrid) ∧
    ((SupersessionIndex.computeSupersession settings events map).map
      SupersessionResult.parties).Nodup ∧
    (∀ settings' events', events'.Perm events → ∀ r,
      r ∈ SupersessionIndex.computeSupersession settings' events' map ↔
        r ∈ SupersessionIndex.computeSupersession settings events map) ∧
    ∀ d m group, m.isCompared = true → group ≠ [] → IsGroup map events d m group →
      ∃! a, a ∈ group ∧ ∀ b ∈ group,
        ¬ SupersededThere (SupersessionIndex.computeSupersession settings events map) d m b a := by
  refine ⟨fun mrid cycle => ?_, nodup_parties settings map distinct, ?_, ?_⟩
  · obtain ⟨a, ina, b, inb, named, named', less⟩ :=
      outranks_of_chain settings distinct untied cycle
    rw [eq_of_mrid_eq distinct ina inb (named.trans named'.symm)] at less
    exact lt_irrefl _ less
  · intro settings' events' perm r
    have distinct' : (events'.map (·.mrid)).Nodup := (perm.map _).nodup_iff.mpr distinct
    have untied' : Untied map events' := fun a ina b inb =>
      untied a (perm.mem_iff.mp ina) b (perm.mem_iff.mp inb)
    rw [mem_results settings' distinct' untied' r, mem_results settings distinct untied r]
    simp only [perm.mem_iff]
  · intro d m group compared some_member isGroup
    exact isGroup.exists_unique settings distinct untied compared some_member

/-! ### Short lists -/

/-- An event of a program of the given primacy that sets the modes. -/
def modesEvent (mrid : Mrid) (primacy : Nat) (created status : Int) (modes : Finset Mode) :
    EventRecord where
  mrid := mrid
  derc := { plainControl mrid 0 100 .opModConnect with base := ⟨modes⟩ }
  programHref := "/derp/1"
  primacy := primacy
  state := .scheduled
  start := 0
  duration := 100
  serverStatusTime := status
  creationTime := created

def onlyProgram : ProgramDevices := Dict.empty.set "/derp/1" ["/edev/1"]

/-- A volt-var event, and two that limit power: one created at 5, one without a creation time whose
status changed at 9. -/
def mixedClocks : List EventRecord :=
  [modesEvent 1 2 5 8 {.opModMaxLimW}, modesEvent 2 2 0 9 {.opModMaxLimW, .opModVoltVar},
    modesEvent 3 1 4 4 {.opModVoltVar}]

theorem untied_mixedClocks : Untied onlyProgram mixedClocks := by
  have apart : ∀ a ∈ mixedClocks, ∀ b ∈ mixedClocks, a.mrid ≠ b.mrid → a.rank ≠ b.rank := by
    decide +kernel
  exact fun a ina b inb other _ _ => apart a ina b inb other

/-- The event whose status is newer wins over the one created, and loses to the one of better
primacy. -/
theorem supersession_strict_order_mixed :
    (SupersessionIndex.computeSupersession .plain mixedClocks onlyProgram).map
        (fun r => (r.supersedingMrid, r.supersededMrid)) = [(2, 1), (3, 2)] ∧
      ∀ events', events'.Perm mixedClocks → ∀ r,
        r ∈ SupersessionIndex.computeSupersession .plain events' onlyProgram ↔
          r ∈ SupersessionIndex.computeSupersession .plain mixedClocks onlyProgram :=
  ⟨by decide +kernel,
    (supersession_strict_order .plain onlyProgram mixedClocks (by decide)
      untied_mixedClocks).2.2.1 .plain⟩

/-- A connect and an energize event that tie, on one device: the one that comes first wins, and the
two share no mode. Of two connect events, one of which also limits power, neither is superseded,
though the one has better primacy. -/
theorem supersession_ties :
    (let connect := modesEvent 1 2 5 5 {.opModConnect}
      let energize := modesEvent 2 2 5 5 {.opModEnergize}
      Disjoint connect.derc.base.present energize.derc.base.present ∧
        (SupersessionIndex.computeSupersession .plain [connect, energize] onlyProgram).map
          (fun r => (r.supersedingMrid, r.supersededMrid)) = [(1, 2)] ∧
        (SupersessionIndex.computeSupersession .plain [energize, connect] onlyProgram).map
          (fun r => (r.supersedingMrid, r.supersededMrid)) = [(2, 1)]) ∧
    (let connect := modesEvent 1 1 5 5 {.opModConnect}
      let limits := modesEvent 2 2 6 6 {.opModConnect, .opModMaxLimW}
      IsGroup onlyProgram [connect, limits] "/edev/1" .opModConnect [connect, limits] ∧
        ¬ ∃! a, a ∈ [connect, limits] ∧ ∀ b ∈ [connect, limits], ¬ SupersededThere
          (SupersessionIndex.computeSupersession .plain [connect, limits] onlyProgram)
          "/edev/1" .opModConnect b a) := by
  refine ⟨⟨by decide, by decide +kernel, by decide +kernel⟩, ⟨?_, ?_⟩⟩
  · refine ⟨fun a listed => listed, ?_, ?_, ?_⟩
    · decide
    · unfold EventRecord.Reaches
      decide
    · decide
  · have no_results : SupersessionIndex.computeSupersession .plain
        [modesEvent 1 1 5 5 {.opModConnect}, modesEvent 2 2 6 6 {.opModConnect, .opModMaxLimW}]
        onlyProgram = [] := by
      rw [← List.length_eq_zero_iff]
      decide +kernel
    rintro ⟨one, -, only⟩
    have stands (a b : EventRecord) : ¬ SupersededThere [] "/edev/1" .opModConnect b a := by
      rintro ⟨r, listed, -⟩
      cases listed
    rw [no_results] at only
    have first := only (modesEvent 1 1 5 5 {.opModConnect})
      ⟨List.mem_cons_self, fun b _ => stands _ b⟩
    have second := only (modesEvent 2 2 6 6 {.opModConnect, .opModMaxLimW})
      ⟨List.mem_cons_of_mem _ List.mem_cons_self, fun b _ => stands _ b⟩
    exact absurd (congrArg EventRecord.mrid (first.trans second.symm)) (by decide)

end Py20305
