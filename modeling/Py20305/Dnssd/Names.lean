import Mathlib.Order.Basic
import Py20305.Lib.Bytes

/-!
Names in DNS messages (`client/dnssd/wire.py`).

`encode_name` writes the labels of a name uncompressed. `read_name` reads a name at an offset of
a message, through compression pointers: one round of its loop is `Reading.round`, and the loop
ends because a pointer goes back while the labels are limited (`readFrom`). What it reads where
`encode_name` wrote is the name (`readName_of_standsAt`).
-/

namespace Py20305.Dnssd

/-- A name, as its labels. -/
abbrev Name := List Bytes

/-- `MAX_LABELS`. -/
def maxLabels : Nat := 128

/-- What an encoder raises. -/
inductive EncodeError where
  | valueError (message : String)
  /-- `TXT entry for {key!r} is longer than 255 bytes`. -/
  | txtEntryTooLong (key : String)
  /-- `to_bytes` of a number that does not fit. -/
  | overflowError
  deriving DecidableEq, Repr

structure DnsDecodeError where
  message : String
  deriving DecidableEq, Repr

/-- The labels of `encode_name`, one after the other. -/
def encodeLabels : Name → Except EncodeError Bytes
  | [] => .ok []
  | label :: rest =>
      if 0 < label.length ∧ label.length ≤ 63 then
        (encodeLabels rest).map fun out => UInt8.ofNat label.length :: (label ++ out)
      else .error (.valueError s!"a DNS label must be 1-63 bytes, got {label.length}")

/-- `encode_name`. -/
def encodeName (labels : Name) : Except EncodeError Bytes :=
  (encodeLabels labels).bind fun body =>
    let out := body ++ [0]
    if out.length ≤ 255 then .ok out
    else .error (.valueError s!"a DNS name must be at most 255 bytes, got {out.length}")

/-! ### Reading -/

/-- The variables of `read_name`. -/
structure Reading where
  labels : Name := []
  offset : Nat
  endOffset : Nat
  jumped : Bool := false
  deriving DecidableEq, Repr

/-- What a round of the loop comes to. -/
inductive Round where
  | goesOn (next : Reading)
  | returns (labels : Name) (endOffset : Nat)
  | raises (e : DnsDecodeError)
  deriving DecidableEq, Repr

/-- The offset that a compression pointer holds in its two bytes. -/
def pointerTarget (high low : UInt8) : Nat := (high.toNat &&& 0x3F) <<< 8 ||| low.toNat

/-- `f"{byte:#04x}"`. -/
def hexByte (byte : UInt8) : String :=
  let digits := Nat.toDigits 16 byte.toNat
  "0x" ++ String.ofList (List.replicate (2 - digits.length) '0' ++ digits)

/-- One round of the loop of `read_name`. -/
def Reading.round (data : Bytes) (s : Reading) : Round :=
  match data[s.offset]? with
  | none => .raises ⟨"name runs past the end of the message"⟩
  | some length =>
      if length &&& 0xC0 = 0xC0 then
        match data[s.offset + 1]? with
        | none => .raises ⟨"truncated compression pointer"⟩
        | some low =>
            let pointer := pointerTarget length low
            if s.offset ≤ pointer then .raises ⟨"compression pointer does not point backwards"⟩
            else .goesOn { s with
              offset := pointer
              endOffset := if s.jumped then s.endOffset else s.offset + 2
              jumped := true }
      else if length &&& 0xC0 ≠ 0 then .raises ⟨"reserved label type " ++ hexByte length⟩
      else if length = 0 then
        .returns s.labels (if s.jumped then s.endOffset else s.offset + 1)
      else
        let label := slice data (s.offset + 1) (s.offset + 1 + length.toNat)
        if label.length ≠ length.toNat then .raises ⟨"label runs past the end of the message"⟩
        else if maxLabels < s.labels.length + 1 then .raises ⟨"name has too many labels"⟩
        else .goesOn { s with
          labels := s.labels ++ [label]
          offset := s.offset + 1 + length.toNat }

/-- What a round that goes on has met: a pointer back, or a label that the limit allows. -/
theorem Reading.round_goesOn {data : Bytes} {s next : Reading}
    (goes : s.round data = .goesOn next) :
    (∃ high low, data[s.offset]? = some high ∧ data[s.offset + 1]? = some low ∧
      high &&& 0xC0 = 0xC0 ∧ pointerTarget high low < s.offset ∧
      next = { s with
        offset := pointerTarget high low
        endOffset := if s.jumped then s.endOffset else s.offset + 2
        jumped := true }) ∨
    ∃ length, data[s.offset]? = some length ∧ length &&& 0xC0 = 0 ∧ length ≠ 0 ∧
      (slice data (s.offset + 1) (s.offset + 1 + length.toNat)).length = length.toNat ∧
      s.labels.length + 1 ≤ maxLabels ∧
      next = { s with
        labels := s.labels ++ [slice data (s.offset + 1) (s.offset + 1 + length.toNat)]
        offset := s.offset + 1 + length.toNat } := by
  unfold round at goes
  split at goes
  · cases goes
  · rename_i length found
    split at goes
    · rename_i isPointer
      split at goes
      · cases goes
      · rename_i low second
        dsimp only at goes
        split at goes
        · cases goes
        · rename_i backwards
          cases goes
          exact .inl ⟨length, low, found, second, isPointer, Nat.lt_of_not_le backwards, rfl⟩
    · split at goes
      · cases goes
      · rename_i plain
        split at goes
        · cases goes
        · rename_i nonzero
          dsimp only at goes
          split at goes
          · cases goes
          · rename_i whole
            split at goes
            · cases goes
            · rename_i few
              cases goes
              exact .inr ⟨length, found, not_not.mp plain, nonzero, not_not.mp whole,
                Nat.le_of_not_lt few, rfl⟩

/-- The loop of `read_name` from some round on. -/
def readFrom (data : Bytes) (s : Reading) : Except DnsDecodeError (Name × Nat) :=
  match met : s.round data with
  | .raises e => .error e
  | .returns labels endOffset => .ok (labels, endOffset)
  | .goesOn next => readFrom data next
termination_by (maxLabels + 1 - s.labels.length, s.offset)
decreasing_by
  rcases Reading.round_goesOn met with ⟨high, low, -, -, -, back, rfl⟩ | ⟨length, -, -, -, -, few, rfl⟩
  · exact Prod.Lex.right _ back
  · refine Prod.Lex.left _ _ ?_
    simp only [List.length_append, List.length_cons, List.length_nil]
    omega

/-- `read_name`. -/
def readName (data : Bytes) (offset : Nat) : Except DnsDecodeError (Name × Nat) :=
  readFrom data { offset := offset, endOffset := offset }

/-! ### What is written is read -/

theorem bind_eq_ok {ε α β : Type} {x : Except ε α} {f : α → Except ε β} {b : β} :
    x >>= f = .ok b ↔ ∃ a, x = .ok a ∧ f a = .ok b := by
  cases x <;> simp [bind, Except.bind]

theorem readFrom_goesOn {data : Bytes} {s next : Reading} (goes : s.round data = .goesOn next) :
    readFrom data s = readFrom data next := by
  rw [readFrom]
  split <;> simp_all

theorem readFrom_returns {data : Bytes} {s : Reading} {labels : Name} {endOffset : Nat}
    (returned : s.round data = .returns labels endOffset) :
    readFrom data s = .ok (labels, endOffset) := by
  rw [readFrom]
  split <;> simp_all

/-- A label's length is no pointer and no reserved byte. -/
theorem lengthByte {n : Nat} (short : n ≤ 63) :
    (UInt8.ofNat n).toNat = n ∧ UInt8.ofNat n &&& 0xC0 = 0 := by
  refine ⟨UInt8.toNat_ofNat_of_lt' (by change n < 256; omega), ?_⟩
  have masked : ∀ k : Fin 64, UInt8.ofNat k.val &&& 0xC0 = 0 := by decide
  exact masked ⟨n, by omega⟩

theorem encodeLabels_cons {label : Bytes} {rest : Name} {out : Bytes}
    (encoded : encodeLabels (label :: rest) = .ok out) :
    ∃ body, encodeLabels rest = .ok body ∧ 0 < label.length ∧ label.length ≤ 63 ∧
      out = UInt8.ofNat label.length :: (label ++ body) := by
  unfold encodeLabels at encoded
  split_ifs at encoded with fits
  cases more : encodeLabels rest with
  | error e =>
      rw [more] at encoded
      cases encoded
  | ok body =>
      rw [more] at encoded
      cases encoded
      exact ⟨body, rfl, fits.1, fits.2, rfl⟩

theorem encodeName_ok {labels : Name} {out : Bytes} (encoded : encodeName labels = .ok out) :
    ∃ body, encodeLabels labels = .ok body ∧ out = body ++ [0] ∧ out.length ≤ 255 := by
  unfold encodeName at encoded
  cases found : encodeLabels labels with
  | error e =>
      rw [found] at encoded
      cases encoded
  | ok body =>
      rw [found] at encoded
      simp only [Except.bind] at encoded
      split_ifs at encoded with fits
      cases encoded
      exact ⟨body, rfl, rfl, fits⟩

theorem encodeName_length_pos {labels : Name} {out : Bytes} (encoded : encodeName labels = .ok out) :
    0 < out.length := by
  obtain ⟨body, -, rfl, -⟩ := encodeName_ok encoded
  simp

/-- Labels are no more than half as many as their bytes. -/
theorem two_mul_labels_le {labels : Name} {body : Bytes} (encoded : encodeLabels labels = .ok body) :
    2 * labels.length ≤ body.length := by
  induction labels generalizing body with
  | nil => simp
  | cons label rest ih =>
      obtain ⟨later, more, positive, -, rfl⟩ := encodeLabels_cons encoded
      have := ih more
      simp only [List.length_cons, List.length_append]
      omega

/-- Reading goes through the labels that stand at its offset, as long as the limit allows. -/
theorem readFrom_labels {data body : Bytes} {labels : Name} (s : Reading)
    (encoded : encodeLabels labels = .ok body) (few : s.labels.length + labels.length ≤ maxLabels)
    (stands : StandsAt data s.offset body) :
    readFrom data s = readFrom data
      { s with labels := s.labels ++ labels, offset := s.offset + body.length } := by
  induction labels generalizing s body with
  | nil =>
      cases encoded
      simp
  | cons label rest ih =>
      obtain ⟨later, more, positive, short, rfl⟩ := encodeLabels_cons encoded
      obtain ⟨byte, content⟩ := standsAt_cons stands
      obtain ⟨this, follows⟩ := standsAt_append content
      obtain ⟨value, plain⟩ := lengthByte short
      let next : Reading :=
        { s with labels := s.labels ++ [label], offset := s.offset + 1 + label.length }
      have goes : s.round data = .goesOn next := by
        have nonzero : UInt8.ofNat label.length ≠ 0 := by
          intro zero
          rw [zero] at value
          exact Nat.ne_of_lt positive value
        have limit : ¬ maxLabels < s.labels.length + 1 := by
          rw [List.length_cons] at few
          omega
        simp [Reading.round, byte, plain, nonzero, value, this.slice_eq rfl, limit, next]
      rw [readFrom_goesOn goes, ih next more ?_ follows]
      · simp only [next, List.append_assoc, List.singleton_append, List.length_cons,
          List.length_append]
        congr 2
        omega
      · simp only [next, List.length_append, List.length_cons, List.length_nil] at few ⊢
        omega

/-- A name that `encode_name` wrote is read where it stands, up to its end. -/
theorem readName_of_standsAt {data out : Bytes} {labels : Name} {offset : Nat}
    (encoded : encodeName labels = .ok out) (stands : StandsAt data offset out) :
    readName data offset = .ok (labels, offset + out.length) := by
  obtain ⟨body, found, rfl, fits⟩ := encodeName_ok encoded
  obtain ⟨first, root⟩ := standsAt_append stands
  have few : labels.length ≤ maxLabels := by
    have := two_mul_labels_le found
    rw [List.length_append] at fits
    unfold maxLabels
    omega
  rw [readName, readFrom_labels _ found (by simpa using few) first]
  have returned : Reading.round data
      { labels := [] ++ labels, offset := offset + body.length, endOffset := offset } =
      .returns labels (offset + body.length + 1) := by
    simp [Reading.round, (standsAt_cons root).1]
  rw [readFrom_returns returned, List.length_append]
  rfl

end Py20305.Dnssd
