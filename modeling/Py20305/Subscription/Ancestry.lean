import Mathlib.Algebra.Order.Field.Rat
import Mathlib.Data.List.Basic
import Py20305.Lib.Dict
import Py20305.Lib.Segments
import Py20305.Sep.Resources

/-!
The ancestors of a control notification (`subscription/manager.py`), and the paths that stand for
a structural change (`client/csip_client.py`).

A control notification puts the paths above its resource into the cache of duplicates, up to a
segment `derp`. Where there is none, or an `edev` stands next to it or below it, a path above is
structural, and its notification is dropped. `ancestry_keeps_structural_iff` says for which
resources none is.
-/

namespace Py20305.Subscription

/-! ### Paths -/

/-- `path.rstrip("/").strip("/").split("/")`. -/
def pathParts (path : Href) : List String := (segments '/' path.toList).map String.ofList

/-- `"/" + "/".join(parts)`. -/
def parentPath (parts : List String) : Href :=
  String.ofList ('/' :: ['/'].intercalate (parts.map String.toList))

/-- `_is_structural_resource`, on the parts of the path (of which there always is one). -/
def structuralParts (parts : List String) : Bool :=
  let hasControl := "derc" ∈ parts ∨ "dderc" ∈ parts
  let hasProgram := "derp" ∈ parts
  if "edev" ∈ parts ∧ parts.length - parts.idxOf "edev" ≤ 2 then true
  else decide ("fsa" ∈ parts ∧ ¬ hasProgram ∧ ¬ hasControl)

/-- `_is_structural_resource`. -/
def isStructuralResource (path : Href) : Bool := structuralParts (pathParts path)

/-! ### Duplicates -/

/-- `_dedup_cache`: when a path was last seen. -/
abbrev DedupCache := Dict Href ℚ

/-- `_DEDUP_WINDOW`. -/
def dedupWindow : ℚ := 5

/-- `is_duplicate_notification`. -/
def isDuplicateNotification (cache : DedupCache) (now : ℚ) (resource : Href) :
    Bool × DedupCache :=
  if (cache.get? resource).any fun last => now - last < dedupWindow then (true, cache)
  else (false, cache.set resource now)

/-- The loop of `record_notification_ancestry`, from the first `i` parts on. -/
def ancestorsFrom (parts : List String) : ℕ → List Href
  | 0 => []
  | i + 1 => parentPath (parts.take (i + 1)) ::
      if parts[i]? = some "derp" then [] else ancestorsFrom parts i

/-- The paths that `record_notification_ancestry` records. -/
def ancestors (path : Href) : List Href :=
  ancestorsFrom (pathParts path) ((pathParts path).length - 1)

/-- `record_notification_ancestry`. -/
def recordNotificationAncestry (cache : DedupCache) (now : ℚ) (path : Href) : DedupCache :=
  (ancestors path).foldl (fun cache parent => cache.set parent now) cache

/-- What comes in: a control notification, or another one. -/
inductive Arrival where
  | control (resource : Href)
  | other (resource : Href)
  deriving DecidableEq

def Arrival.isControl : Arrival → Bool
  | control _ => true
  | other _ => false

/-- What an arrival does to the cache. -/
def arrive (cache : DedupCache) (a : ℚ × Arrival) : DedupCache :=
  match a.2 with
  | .control resource => recordNotificationAncestry cache a.1 resource
  | .other resource => (isDuplicateNotification cache a.1 resource).2

/-! ### Which resources -/

/-- The last place of a segment. -/
def lastIdxOf (segment : String) (parts : List String) : ℕ :=
  parts.length - 1 - parts.reverse.idxOf segment

/-- Above the last segment there is a `derp`, with no `edev` below it or next to it, or there is
neither `derp` nor `edev`, and a `derc` or `dderc` comes before any `fsa`. -/
def Scoped (above : List String) : Prop :=
  if "derp" ∈ above then "edev" ∈ above → above.idxOf "edev" + 1 < lastIdxOf "derp" above
  else "edev" ∉ above ∧ ("fsa" ∈ above →
    "derc" ∈ above.take (above.idxOf "fsa") ∨ "dderc" ∈ above.take (above.idxOf "fsa"))

instance (above : List String) : Decidable (Scoped above) := by
  unfold Scoped
  infer_instance

/-! ### The parts of an ancestor -/

theorem rdropWhile_map {α β : Type} (f : α → β) (p : β → Bool) (l : List α) :
    (l.map f).rdropWhile p = (l.rdropWhile (p ∘ f)).map f := by
  simp only [List.rdropWhile, ← List.map_reverse, List.dropWhile_map]

/-- An ancestor of a path has the parts of the path up to its place, without the empty ones that
would come last. -/
theorem pathParts_parentPath (path : Href) {i : ℕ} (pos : 0 < i)
    (bound : i ≤ (pathParts path).dropLast.length) :
    pathParts (parentPath ((pathParts path).dropLast.take i)) =
      ((pathParts path).dropLast.take i).rdropWhile (· = "") := by
  set segs := (segments '/' path.toList).dropLast.take i with taken
  have parts : (pathParts path).dropLast.take i = segs.map String.ofList := by
    rw [taken, pathParts, ← List.map_dropLast, List.map_take]
  have back : (segs.map String.ofList).map String.toList = segs := by
    simp [Function.comp_def]
  have initial : segs <+: segments '/' path.toList :=
    (List.take_prefix _ _).trans (List.dropLast_prefix _)
  rw [parts, parentPath, back, pathParts, String.toList_ofList]
  cases shape : segs with
  | nil =>
      have count := congrArg List.length taken
      rw [shape] at count
      simp [pathParts] at count bound
      omega
  | cons first more =>
      have full : first ≠ [] := by
        rintro rfl
        obtain ⟨rest, whole⟩ := shape ▸ initial
        have single : more ++ rest = [] := segments_head '/' whole.symm
        obtain ⟨rfl, rfl⟩ := List.append_eq_nil_iff.mp single
        simp [pathParts, ← whole] at bound
        omega
      have free : ∀ segment ∈ first :: more, '/' ∉ segment := fun segment within =>
        not_mem_of_mem_splitOn (initial.subset (shape ▸ within))
      rw [segments_join '/' full more free, rdropWhile_map]
      congr 2
      funext segment
      simp [String.ofList_eq_empty_iff]

/-- The walk goes up until a `derp` is the last part. -/
theorem mem_ancestorsFrom {parts : List String} {n : ℕ} {parent : Href} :
    parent ∈ ancestorsFrom parts n ↔ ∃ i, 0 < i ∧ i ≤ n ∧ parent = parentPath (parts.take i) ∧
      ∀ k, i ≤ k → k < n → parts[k]? ≠ some "derp" := by
  induction n with
  | zero =>
      constructor
      · intro none
        cases none
      · rintro ⟨i, pos, bound, -⟩
        omega
  | succ n ih =>
      rw [ancestorsFrom, List.mem_cons]
      constructor
      · rintro (rfl | above)
        · exact ⟨n + 1, n.succ_pos, le_rfl, rfl, fun k low high => absurd high (by omega)⟩
        · split at above
          · cases above
          · rename_i other
            obtain ⟨i, pos, bound, here, between⟩ := ih.mp above
            refine ⟨i, pos, by omega, here, fun k low high => ?_⟩
            by_cases last : k = n
            · exact last ▸ other
            · exact between k low (by omega)
      · rintro ⟨i, pos, bound, rfl, between⟩
        by_cases last : i = n + 1
        · exact .inl (last ▸ rfl)
        · rw [if_neg (between n (by omega) (by omega))]
          exact .inr (ih.mpr ⟨i, pos, by omega, rfl, fun k low high =>
            between k low (by omega)⟩)

theorem mem_ancestors {path parent : Href} :
    parent ∈ ancestors path ↔ ∃ i, 0 < i ∧ i ≤ (pathParts path).dropLast.length ∧
      parent = parentPath ((pathParts path).dropLast.take i) ∧
      "derp" ∉ (pathParts path).dropLast.drop i := by
  rw [ancestors, mem_ancestorsFrom, List.length_dropLast]
  refine exists_congr fun i => and_congr_right fun _ => and_congr_right fun bound => ?_
  have same : (pathParts path).dropLast.take i = (pathParts path).take i := by
    rw [List.dropLast_eq_take, List.take_take, min_eq_left bound]
  rw [same]
  refine and_congr_right fun _ => ?_
  rw [List.mem_iff_getElem?, not_exists]
  constructor
  · intro between k found
    rw [List.getElem?_drop, List.getElem?_dropLast] at found
    split at found
    · rename_i low
      exact between (i + k) (Nat.le_add_right i k) low found
    · cases found
  · intro absent k low high found
    refine absent (k - i) ?_
    rw [List.getElem?_drop, List.getElem?_dropLast, if_pos (by omega), ← found]
    congr 1
    omega

/-! ### Structural ancestors -/

/-- A start that ends in a segment is kept whole. -/
theorem rdropWhile_take {parts : List String} {k : ℕ} {segment : String}
    (found : parts[k]? = some segment) (full : segment ≠ "") :
    (parts.take (k + 1)).rdropWhile (· = "") = parts.take (k + 1) := by
  rw [List.take_add_one, found, Option.toList_some]
  exact List.rdropWhile_concat_neg _ _ _ (by simpa using full)

/-- What is left of a start is a start, up to the last segment in it at least. -/
theorem exists_rdropWhile_take (parts : List String) (i : ℕ) :
    ∃ n ≤ i, (parts.take i).rdropWhile (· = "") = parts.take n ∧
      ∀ k segment, k < i → parts[k]? = some segment → segment ≠ "" → k < n := by
  set kept := (parts.take i).rdropWhile (· = "") with keeps
  have initial : kept <+: parts.take i := List.rdropWhile_prefix _ _
  have count : kept.length ≤ (parts.take i).length := initial.length_le
  have start : kept = parts.take kept.length :=
    List.prefix_iff_eq_take.mp (initial.trans (List.take_prefix i parts))
  refine ⟨kept.length, by rw [List.length_take] at count; omega, start, ?_⟩
  intro k segment low found full
  by_contra beyond
  -- past what is kept there are empty segments only
  have whole : kept ++ (parts.take i).rtakeWhile (· = "") = parts.take i :=
    List.rdropWhile_append_rtakeWhile
  have late : (parts.take i)[k]? = some segment := by rw [List.getElem?_take_of_lt low, found]
  rw [← whole, List.getElem?_append_right (by omega)] at late
  have empty := List.mem_rtakeWhile_imp (List.mem_of_getElem? late)
  exact full (by simpa using empty)

theorem exists_last_split {segment : String} {parts : List String} (within : segment ∈ parts) :
    ∃ pre post, parts = pre ++ segment :: post ∧ segment ∉ post ∧
      lastIdxOf segment parts = pre.length := by
  obtain ⟨pre, post, whole, absent⟩ :=
    List.eq_append_cons_of_mem (List.mem_reverse.mpr within)
  have turned : parts = post.reverse ++ segment :: pre.reverse := by
    rw [← List.reverse_reverse parts, whole]
    simp
  refine ⟨post.reverse, pre.reverse, turned, by simpa using absent, ?_⟩
  rw [lastIdxOf, whole, List.idxOf_append_of_notMem absent, List.idxOf_cons_self, turned]
  simp

theorem structuralParts_eq_false_iff (parts : List String) : structuralParts parts = false ↔
    ("edev" ∈ parts → 2 < parts.length - parts.idxOf "edev") ∧
      ("fsa" ∈ parts → "derp" ∈ parts ∨ "derc" ∈ parts ∨ "dderc" ∈ parts) := by
  unfold structuralParts
  dsimp only
  split
  · rename_i near
    constructor
    · intro none
      cases none
    · intro far
      exact absurd (far.1 near.1) (by omega)
  · rename_i far
    rw [decide_eq_false_iff_not]
    constructor
    · intro none
      refine ⟨fun device => ?_, fun fsa => ?_⟩
      · by_contra near
        exact far ⟨device, by omega⟩
      · by_contra outside
        push Not at outside
        exact none ⟨fsa, outside.1, fun control => control.elim outside.2.1 outside.2.2⟩
    · rintro ⟨-, within⟩ ⟨fsa, program, control⟩
      exact control ((within fsa).resolve_left program)

theorem idxOf_take {segment : String} {parts : List String} {n : ℕ}
    (within : segment ∈ parts.take n) : (parts.take n).idxOf segment = parts.idxOf segment := by
  conv_rhs => rw [← List.take_append_drop n parts, List.idxOf_append_of_mem within]

theorem getElem?_idxOf_self {segment : String} {parts : List String} (within : segment ∈ parts) :
    parts[parts.idxOf segment]? = some segment := by
  rw [List.getElem?_eq_getElem (List.idxOf_lt_length_of_mem within), List.getElem_idxOf]

/-- A start is structural that ends in a segment next to an `edev`. -/
theorem near_device {above : List String} {m : ℕ} {segment : String}
    (found : above[m]? = some segment) (full : segment ≠ "") (device : "edev" ∈ above)
    (low : above.idxOf "edev" ≤ m) (near : m ≤ above.idxOf "edev" + 1) :
    structuralParts ((above.take (m + 1)).rdropWhile (· = "")) = true := by
  rw [rdropWhile_take found full]
  by_contra none
  rw [Bool.not_eq_true, structuralParts_eq_false_iff] at none
  have within : "edev" ∈ above.take (m + 1) := by
    rw [List.mem_take_iff_idxOf_lt device]
    omega
  have far := none.1 within
  have length : m < above.length := (List.getElem?_eq_some_iff.mp found).1
  rw [idxOf_take within, List.length_take] at far
  omega

/-- No ancestor of the walk is structural if and only if the resource is in scope. -/
theorem none_structural_iff (above : List String) :
    (∀ i, 0 < i → i ≤ above.length → "derp" ∉ above.drop i →
        structuralParts ((above.take i).rdropWhile (· = "")) = false) ↔ Scoped above := by
  constructor
  · intro none
    -- the first parts up to `m`, where the walk still is
    have walk {m : ℕ} (length : m < above.length) (absent : "derp" ∉ above.drop (m + 1)) :=
      none (m + 1) m.succ_pos length absent
    unfold Scoped
    split
    · rename_i program
      intro device
      by_contra near
      obtain ⟨pre, post, whole, absent, last⟩ := exists_last_split program
      have below {m : ℕ} (low : pre.length ≤ m) : "derp" ∉ above.drop (m + 1) := by
        obtain ⟨d, rfl⟩ := Nat.exists_eq_add_of_le low
        have rest : above.drop (pre.length + d + 1) = post.drop d := by
          rw [whole, Nat.add_assoc, ← List.drop_drop, List.drop_left, List.drop_succ_cons]
        rw [rest]
        exact fun within => absent (List.mem_of_mem_drop within)
      have here : above[pre.length]? = some "derp" := by simp [whole]
      rcases le_total (above.idxOf "edev") pre.length with before | after
      · have clear := walk (List.getElem?_eq_some_iff.mp here).1 (below le_rfl)
        rw [near_device here (by decide) device before (by omega)] at clear
        cases clear
      · have clear := walk (List.idxOf_lt_length_of_mem device) (below after)
        rw [near_device (getElem?_idxOf_self device) (by decide) device le_rfl
          (by omega)] at clear
        cases clear
    · rename_i program
      have absent (m : ℕ) : "derp" ∉ above.drop m := fun within =>
        program (List.mem_of_mem_drop within)
      refine ⟨fun device => ?_, fun fsa => ?_⟩
      · have clear := walk (List.idxOf_lt_length_of_mem device) (absent _)
        rw [near_device (getElem?_idxOf_self device) (by decide) device le_rfl
          (by omega)] at clear
        cases clear
      · have clear := walk (List.idxOf_lt_length_of_mem fsa) (absent _)
        have found := getElem?_idxOf_self fsa
        rw [rdropWhile_take found (by decide), structuralParts_eq_false_iff] at clear
        have within : "fsa" ∈ above.take (above.idxOf "fsa" + 1) :=
          (List.mem_take_iff_idxOf_lt fsa).mpr (by omega)
        have shorter {segment : String} (other : segment ≠ "fsa")
            (control : segment ∈ above.take (above.idxOf "fsa" + 1)) :
            segment ∈ above.take (above.idxOf "fsa") := by
          rw [List.take_add_one, found, List.mem_append] at control
          exact control.resolve_right (by simpa using other)
        rcases clear.2 within with derp | derc | dderc
        · exact absurd (List.mem_of_mem_take derp) program
        · exact .inl (shorter (by decide) derc)
        · exact .inr (shorter (by decide) dderc)
  · intro inScope i pos bound absent
    obtain ⟨n, low, start, keeps⟩ := exists_rdropWhile_take above i
    rw [start, structuralParts_eq_false_iff]
    unfold Scoped at inScope
    split at inScope
    · rename_i program
      obtain ⟨pre, post, whole, -, last⟩ := exists_last_split program
      have here : above[pre.length]? = some "derp" := by simp [whole]
      have passed : pre.length < i := by
        by_contra later
        refine absent (List.mem_iff_getElem?.mpr ⟨pre.length - i, ?_⟩)
        rw [List.getElem?_drop, ← here]
        congr 1
        omega
      have kept := keeps pre.length "derp" passed here (by decide)
      refine ⟨fun device => ?_, fun _ => .inl ?_⟩
      · have far := inScope (List.mem_of_mem_take device)
        rw [last] at far
        rw [idxOf_take device, List.length_take]
        omega
      · rw [List.mem_iff_getElem?]
        exact ⟨pre.length, by rw [List.getElem?_take_of_lt kept, here]⟩
    · refine ⟨fun device => absurd (List.mem_of_mem_take device) inScope.1, fun fsa => .inr ?_⟩
      have place := (List.mem_take_iff_idxOf_lt (List.mem_of_mem_take fsa)).mp fsa
      have longer : above.take (above.idxOf "fsa") ⊆ above.take n :=
        (List.take_prefix_take_left place.le).subset
      exact (inScope.2 (List.mem_of_mem_take fsa)).imp (fun c => longer c) (fun c => longer c)

theorem ancestors_structural_iff (path : Href) :
    (∀ parent ∈ ancestors path, isStructuralResource parent = false) ↔
      Scoped (pathParts path).dropLast := by
  rw [← none_structural_iff]
  constructor
  · intro none i pos bound absent
    rw [← pathParts_parentPath path pos bound]
    exact none _ (mem_ancestors.mpr ⟨i, pos, bound, rfl, absent⟩)
  · intro none parent above
    obtain ⟨i, pos, bound, rfl, absent⟩ := mem_ancestors.mp above
    rw [isStructuralResource, pathParts_parentPath path pos bound]
    exact none i pos bound absent

/-! ### Bursts -/

theorem get?_foldl_set (parents : List Href) (now : ℚ) (cache : DedupCache) (resource : Href) :
    (parents.foldl (fun cache parent => cache.set parent now) cache).get? resource =
      if resource ∈ parents then some now else cache.get? resource := by
  induction parents generalizing cache with
  | nil => simp
  | cons parent rest ih =>
      rw [List.foldl_cons, ih, Dict.get?_set]
      by_cases later : resource ∈ rest
      · simp [later]
      · simp [later]

theorem get?_record (cache : DedupCache) (now : ℚ) (path resource : Href) :
    (recordNotificationAncestry cache now path).get? resource =
      if resource ∈ ancestors path then some now else cache.get? resource :=
  get?_foldl_set (ancestors path) now cache resource

/-- The verdict on a resource, and what is kept of it, depend on its own entry only. -/
theorem isDuplicateNotification_congr {cache cache' : DedupCache} {resource : Href}
    (same : cache.get? resource = cache'.get? resource) (now : ℚ) (seen : Href) :
    (isDuplicateNotification cache now resource).1 =
        (isDuplicateNotification cache' now resource).1 ∧
      (isDuplicateNotification cache now seen).2.get? resource =
        (isDuplicateNotification cache' now seen).2.get? resource := by
  constructor
  · unfold isDuplicateNotification
    rw [same]
    split <;> rfl
  · unfold isDuplicateNotification
    by_cases own : resource = seen
    · subst own
      rw [same]
      split
      · exact same
      · simp
    · split <;> split <;> simp [Dict.get?_set, own, same]

/-- Control notifications that record no structural path leave what is known of one as it is. -/
theorem burst_keeps {resource : Href} (structural : isStructuralResource resource = true)
    (burst : List (ℚ × Arrival))
    (clear : ∀ a ∈ burst, ∀ path, a.2 = .control path →
      ∀ parent ∈ ancestors path, isStructuralResource parent = false)
    {cache cache' : DedupCache} (same : cache.get? resource = cache'.get? resource) :
    (burst.foldl arrive cache).get? resource =
      ((burst.filter fun a => !a.2.isControl).foldl arrive cache').get? resource := by
  induction burst generalizing cache cache' with
  | nil => exact same
  | cons a rest ih =>
      have later := fun a' within => clear a' (List.mem_cons_of_mem a within)
      obtain ⟨now, arrival⟩ := a
      cases arrival with
      | control path =>
          have absent : resource ∉ ancestors path := fun above => by
            rw [clear _ List.mem_cons_self path rfl resource above] at structural
            cases structural
          rw [List.filter_cons_of_neg (by simp [Arrival.isControl]), List.foldl_cons]
          refine ih later ?_
          rw [arrive, get?_record, if_neg absent, same]
      | other seen =>
          rw [List.filter_cons_of_pos (by simp [Arrival.isControl]), List.foldl_cons,
            List.foldl_cons]
          exact ih later (isDuplicateNotification_congr same now seen).2

/-- The notifications of a control resource mute no structural change if and only if the resource
is in scope. -/
theorem ancestry_keeps_structural_iff (path : Href) :
    ((∀ parent ∈ ancestors path, isStructuralResource parent = false) ∧
      ∀ (cache : DedupCache) (burst : List (ℚ × Arrival)),
        (∀ a ∈ burst, ∀ resource, a.2 = .control resource → resource = path) →
        ∀ (now : ℚ) (resource : Href), isStructuralResource resource = true →
          (isDuplicateNotification (burst.foldl arrive cache) now resource).1 =
            (isDuplicateNotification
              ((burst.filter fun a => !a.2.isControl).foldl arrive cache) now resource).1) ↔
      Scoped (pathParts path).dropLast := by
  rw [← ancestors_structural_iff]
  refine ⟨And.left, fun none => ⟨none, ?_⟩⟩
  intro cache burst only now resource structural
  have same : cache.get? resource = cache.get? resource := rfl
  have kept := burst_keeps structural burst
    (fun a within control known => only a within control known ▸ none) same
  exact (isDuplicateNotification_congr kept now resource).1

/-- Where the programs are under another name, the FSAs above them are muted. -/
theorem unnamedProgram_mutes :
    isStructuralResource "/edev/1/fsa" = true ∧
      "/edev/1/fsa" ∈ ancestors "/edev/1/fsa/1/program/3/derc" ∧
      (isDuplicateNotification
        (recordNotificationAncestry .empty 0 "/edev/1/fsa/1/program/3/derc") 1 "/edev/1/fsa").1 =
          true ∧
      (isDuplicateNotification .empty 1 "/edev/1/fsa").1 = false := by
  decide +kernel

end Py20305.Subscription
