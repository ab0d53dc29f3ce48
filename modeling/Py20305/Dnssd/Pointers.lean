import Py20305.Dnssd.Names

/-!
How often `read_name` follows a compression pointer.

A pointer has to point backwards, but the labels behind its target lead forwards again, and may
lead to the same pointer. Reading ends all the same, since the labels are limited
(`readName_ends`); no pointer is followed twice if and only if the items of the name do not lead
back to a pointer within the labels that are read (`followed_once_iff`).
-/

namespace Py20305.Dnssd

/-! ### The rounds of a call -/

/-- The variables after some rounds. -/
def rounds (data : Bytes) : Nat → Reading → Option Reading
  | 0, s => some s
  | n + 1, s =>
      match s.round data with
      | .goesOn next => rounds data n next
      | _ => none

/-- A call of `read_name` starts. -/
def Reading.start (offset : Nat) : Reading := { offset := offset, endOffset := offset }

/-- A pointer stands at the offset. -/
def isPointer (data : Bytes) (offset : Nat) : Bool :=
  data[offset]?.any fun byte => byte &&& 0xC0 = 0xC0

/-- The next round follows a pointer. -/
def Reading.Follows (data : Bytes) (s : Reading) : Prop :=
  isPointer data s.offset = true ∧ ∃ next, s.round data = .goesOn next

/-- No pointer is followed in two rounds of a call. -/
def FollowsOnce (data : Bytes) (offset : Nat) : Prop :=
  ∀ m n s t, rounds data m (.start offset) = some s → rounds data n (.start offset) = some t →
    s.Follows data → t.Follows data → s.offset = t.offset → m = n

/-- A call comes to an end: it returns labels and an offset inside the message, or raises. -/
def Ends (data : Bytes) (offset : Nat) : Prop :=
  ∃ n s, rounds data n (.start offset) = some s ∧
    ((∃ labels last, s.round data = .returns labels last ∧
        readName data offset = .ok (labels, last) ∧ last ≤ data.length) ∨
      ∃ e, s.round data = .raises e ∧ readName data offset = .error e)

/-! ### The items of a name -/

/-- Where the item at an offset leads: behind a label, or to the target of a pointer that points
backwards. -/
def hop (data : Bytes) (offset : Nat) : Option Nat :=
  match data[offset]? with
  | none => none
  | some length =>
      if length &&& 0xC0 = 0xC0 then
        match data[offset + 1]? with
        | none => none
        | some low =>
            if pointerTarget length low < offset then some (pointerTarget length low) else none
      else if length &&& 0xC0 = 0 ∧ length ≠ 0 ∧
          (slice data (offset + 1) (offset + 1 + length.toNat)).length = length.toNat then
        some (offset + 1 + length.toNat)
      else none

/-- Where some items lead, one after the other. -/
def hops (data : Bytes) : Nat → Nat → Option Nat
  | 0, offset => some offset
  | n + 1, offset => (hop data offset).bind (hops data n)

/-- How many of them are labels. -/
def labelsOn (data : Bytes) : Nat → Nat → Nat
  | 0, _ => 0
  | n + 1, offset =>
      (if isPointer data offset then 0 else 1) +
        match hop data offset with
        | none => 0
        | some next => labelsOn data n next

/-- The items lead to a pointer after `first` of them, and back to it after `second`. -/
def LeadsBack (data : Bytes) (offset first second : Nat) : Prop :=
  ∃ pointer, isPointer data pointer = true ∧ hops data first offset = some pointer ∧
    hops data second offset = some pointer

/-! ### Ending -/

section Ending

variable {data : Bytes} {s t next : Reading} {n : Nat}

/-- Once a pointer was followed, the end of the name is known and inside the message. -/
def Reading.Inside (data : Bytes) (s : Reading) : Prop :=
  s.jumped = true → s.endOffset ≤ data.length

theorem lt_length_of_byte {offset : Nat} {byte : UInt8} (found : data[offset]? = some byte) :
    offset < data.length := (List.getElem?_eq_some_iff.mp found).1

theorem Reading.Inside.round (inside : s.Inside data) (goes : s.round data = .goesOn next) :
    next.Inside data := by
  rcases Reading.round_goesOn goes with ⟨high, low, -, second, -, -, rfl⟩ | ⟨length, -, -, -, -, -, rfl⟩
  · intro _
    by_cases jumped : s.jumped = true
    · simpa [jumped] using inside jumped
    · have := lt_length_of_byte second
      simp only [jumped]
      exact this
  · exact inside

theorem Reading.round_returns {labels : Name} {last : Nat}
    (returned : s.round data = .returns labels last) :
    s.offset < data.length ∧ last = if s.jumped then s.endOffset else s.offset + 1 := by
  unfold round at returned
  split at returned
  · cases returned
  · rename_i length found
    refine ⟨lt_length_of_byte found, ?_⟩
    split at returned
    · split at returned
      · cases returned
      · dsimp only at returned
        split at returned <;> cases returned
    · split at returned
      · cases returned
      · split at returned
        · cases returned
          rfl
        · dsimp only at returned
          split at returned
          · cases returned
          · split at returned <;> cases returned

theorem Reading.Inside.returns (inside : s.Inside data) {labels : Name} {last : Nat}
    (returned : s.round data = .returns labels last) : last ≤ data.length := by
  obtain ⟨within, rfl⟩ := Reading.round_returns returned
  split
  · rename_i jumped
    exact inside jumped
  · exact within

theorem readFrom_raises {e : DnsDecodeError} (raised : s.round data = .raises e) :
    readFrom data s = .error e := by
  rw [readFrom]
  split <;> simp_all

/-- From any round on, the loop comes to an end. -/
theorem readFrom_ends (s : Reading) (inside : s.Inside data) :
    ∃ n t, rounds data n s = some t ∧
      ((∃ labels last, t.round data = .returns labels last ∧
          readFrom data s = .ok (labels, last) ∧ last ≤ data.length) ∨
        ∃ e, t.round data = .raises e ∧ readFrom data s = .error e) := by
  induction s using readFrom.induct data with
  | case1 s e met => exact ⟨0, s, rfl, .inr ⟨e, met, readFrom_raises met⟩⟩
  | case2 s labels last met =>
      exact ⟨0, s, rfl, .inl ⟨labels, last, met, readFrom_returns met, inside.returns met⟩⟩
  | case3 s next met ih =>
      obtain ⟨n, t, reached, ended⟩ := ih (inside.round met)
      refine ⟨n + 1, t, by simp [rounds, met, reached], ?_⟩
      rwa [readFrom_goesOn met]

theorem readName_ends (data : Bytes) (offset : Nat) : Ends data offset :=
  readFrom_ends (.start offset) fun jumped => by cases jumped

end Ending

/-! ### Rounds and items -/

section Items

variable {data : Bytes} {s t next : Reading} {n : Nat}

theorem hop_of_round (goes : s.round data = .goesOn next) :
    hop data s.offset = some next.offset ∧
      next.labels.length = s.labels.length + (if isPointer data s.offset then 0 else 1) ∧
      (s.labels.length ≤ maxLabels → next.labels.length ≤ maxLabels) := by
  rcases Reading.round_goesOn goes with ⟨high, low, first, second, pointer, back, rfl⟩ |
    ⟨length, found, plain, nonzero, whole, few, rfl⟩
  · simp [hop, isPointer, first, second, pointer, back]
  · have ordinary : isPointer data s.offset = false := by simp [isPointer, found, plain]
    refine ⟨?_, ?_, fun _ => ?_⟩
    · simp [hop, found, plain, nonzero, whole]
    · simp [ordinary]
    · rw [List.length_append]
      exact few

theorem round_of_hop {o : Nat} (leads : hop data s.offset = some o)
    (few : s.labels.length + (if isPointer data s.offset then 0 else 1) ≤ maxLabels) :
    ∃ next, s.round data = .goesOn next ∧ next.offset = o := by
  unfold hop at leads
  split at leads
  · cases leads
  · rename_i length found
    split at leads
    · rename_i pointer
      split at leads
      · cases leads
      · rename_i low second
        split at leads
        · rename_i back
          cases leads
          have goes : s.round data = .goesOn { s with
              offset := pointerTarget length low
              endOffset := if s.jumped then s.endOffset else s.offset + 2
              jumped := true } := by
            simp [Reading.round, found, pointer, second, Nat.not_le.mpr back]
          exact ⟨_, goes, rfl⟩
        · cases leads
    · split at leads
      · rename_i label
        obtain ⟨plain, nonzero, whole⟩ := label
        cases leads
        have ordinary : isPointer data s.offset = false := by simp [isPointer, found, plain]
        have limit : ¬ maxLabels < s.labels.length + 1 := by
          simp only [ordinary] at few
          exact Nat.not_lt.mpr few
        have goes : s.round data = .goesOn { s with
            labels := s.labels ++ [slice data (s.offset + 1) (s.offset + 1 + length.toNat)]
            offset := s.offset + 1 + length.toNat } := by
          simp [Reading.round, found, plain, nonzero, whole, limit]
        exact ⟨_, goes, rfl⟩
      · cases leads

theorem hops_of_rounds (reached : rounds data n s = some t) :
    hops data n s.offset = some t.offset ∧
      t.labels.length = s.labels.length + labelsOn data n s.offset ∧
      (s.labels.length ≤ maxLabels → t.labels.length ≤ maxLabels) := by
  induction n generalizing s with
  | zero =>
      cases reached
      exact ⟨rfl, rfl, id⟩
  | succ n ih =>
      simp only [rounds] at reached
      split at reached
      · rename_i next goes
        obtain ⟨leads, counted, limited⟩ := hop_of_round goes
        obtain ⟨later, labels, few⟩ := ih reached
        refine ⟨?_, ?_, fun start => few (limited start)⟩
        · rw [hops, leads]
          exact later
        · simp only [labelsOn, leads]
          omega
      · cases reached

theorem rounds_of_hops {o : Nat} (leads : hops data n s.offset = some o)
    (few : s.labels.length + labelsOn data n s.offset ≤ maxLabels) :
    ∃ t, rounds data n s = some t ∧ t.offset = o := by
  induction n generalizing s with
  | zero => exact ⟨s, rfl, Option.some.inj leads⟩
  | succ n ih =>
      obtain ⟨mid, first, later⟩ := Option.bind_eq_some_iff.mp leads
      simp only [labelsOn, first] at few
      obtain ⟨next, goes, rfl⟩ := round_of_hop first (by omega)
      obtain ⟨-, counted, -⟩ := hop_of_round goes
      obtain ⟨t, reached, same⟩ := ih later (by omega)
      exact ⟨t, by simp [rounds, goes, reached], same⟩

theorem labelsOn_mono {m : Nat} (earlier : m ≤ n) (o : Nat) :
    labelsOn data m o ≤ labelsOn data n o := by
  induction m generalizing n o with
  | zero => exact Nat.zero_le _
  | succ m ih =>
      obtain ⟨n, rfl⟩ := Nat.exists_eq_succ_of_ne_zero (Nat.ne_zero_of_lt earlier)
      cases leads : hop data o with
      | none => simp [labelsOn, leads]
      | some next =>
          have := ih (Nat.le_of_succ_le_succ earlier) next
          simp only [labelsOn, leads]
          omega

theorem hops_add {m o mid : Nat} (reached : hops data m o = some mid) :
    hops data (m + n) o = hops data n mid := by
  induction m generalizing o with
  | zero =>
      cases reached
      rw [Nat.zero_add]
  | succ m ih =>
      obtain ⟨next, first, later⟩ := Option.bind_eq_some_iff.mp reached
      rw [Nat.succ_add, hops, first]
      exact ih later

end Items

/-- Reading a name ends, and it follows no pointer twice if and only if the items of the name do
not lead back to a pointer before the 129th label. -/
theorem followed_once_iff (data : Bytes) (offset : Nat) :
    Ends data offset ∧ FollowsOnce data offset ↔
      ∀ first second, first < second → LeadsBack data offset first second →
        maxLabels < labelsOn data second offset := by
  constructor
  · rintro ⟨-, once⟩ first second earlier ⟨q, pointer, here, again⟩
    by_contra few
    have few := Nat.le_of_not_lt few
    have fewer : labelsOn data first offset ≤ maxLabels :=
      (labelsOn_mono (Nat.le_of_lt earlier) offset).trans few
    have start : (Reading.start offset).labels.length = 0 := rfl
    obtain ⟨s, reached, sAt⟩ :=
      rounds_of_hops (s := .start offset) here (by rw [start, Nat.zero_add]; exact fewer)
    obtain ⟨t, later, tAt⟩ :=
      rounds_of_hops (s := .start offset) again (by rw [start, Nat.zero_add]; exact few)
    -- The pointer leads somewhere, as it leads back to itself.
    obtain ⟨k, rfl⟩ := Nat.exists_eq_add_of_lt earlier
    rw [Nat.add_assoc, hops_add here] at again
    obtain ⟨next, leads, -⟩ := Option.bind_eq_some_iff.mp again
    have follows : ∀ {n : Nat} {r : Reading}, rounds data n (.start offset) = some r →
        r.offset = q → r.Follows data := by
      rintro n r ran rfl
      obtain ⟨-, -, limited⟩ := hops_of_rounds ran
      obtain ⟨after, goes, -⟩ :=
        round_of_hop leads (by simpa [pointer] using limited (Nat.zero_le _))
      exact ⟨pointer, after, goes⟩
    have same := once _ _ s t reached later (follows reached sAt) (follows later tAt)
      (sAt.trans tAt.symm)
    omega
  · intro apart
    refine ⟨readName_ends data offset, fun m n s t reached later follows _ same => ?_⟩
    obtain ⟨here, counted, limited⟩ := hops_of_rounds reached
    obtain ⟨there, counted', limited'⟩ := hops_of_rounds later
    have start : (Reading.start offset).labels.length = 0 := rfl
    have few := limited (Nat.zero_le _)
    have few' := limited' (Nat.zero_le _)
    rw [start, Nat.zero_add] at counted counted'
    rcases Nat.lt_trichotomy m n with less | equal | greater
    · have := apart m n less ⟨s.offset, follows.1, here, same ▸ there⟩
      change maxLabels < labelsOn data n (Reading.start offset).offset at this
      omega
    · exact equal
    · have := apart n m greater ⟨s.offset, follows.1, same ▸ there, here⟩
      change maxLabels < labelsOn data m (Reading.start offset).offset at this
      omega

/-- A message whose name is the label `a` and a pointer to it. -/
def circular : Bytes := List.replicate 12 0 ++ [1, 97, 0xC0, 12]

/-- The pointer at offset 14 is followed in the second round, and again in the fourth. -/
theorem circular_followed_twice : ¬ (Ends circular 12 ∧ FollowsOnce circular 12) := by
  rintro ⟨-, once⟩
  have second : rounds circular 1 (.start 12) = some ⟨[[97]], 14, 12, false⟩ := by decide
  have fourth : rounds circular 3 (.start 12) = some ⟨[[97], [97]], 14, 16, true⟩ := by decide
  have same := once 1 3 _ _ second fourth ⟨by decide, _, rfl⟩ ⟨by decide, _, rfl⟩ rfl
  exact absurd same (by decide)

end Py20305.Dnssd
