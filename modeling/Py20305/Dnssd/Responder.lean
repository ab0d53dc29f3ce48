import Mathlib.Tactic.Linarith
import Py20305.Dnssd.Advertise
import Py20305.Lib.Machine
import Py20305.Lib.Pacing

/-!
A responder over time (`client/dnssd/advertise.py`).

`_serve` announces the records three times, a second apart, and answers queries in between; when it
ends, `_say_goodbye` takes the records back. `Responder` is one socket of an advertiser: its sockets
share the times of the announcements and nothing else. A step is one thing that the thread does, at
any time and in any order.

An answer keeps a second away from what was sent to the group before it, and an announcement does
not keep away from an answer (`responder_paced`). The goodbye is the last thing sent and takes back
all that was said (`goodbye_takes_back`).
-/

namespace Py20305.Dnssd

/-- `_ANNOUNCE_COUNT`. -/
def announceCount : Nat := 3

/-- `_ANNOUNCE_INTERVAL`. -/
def announceInterval : ℚ := 1

/-- What a datagram is sent for. An answer goes to the group, a reply to who asked. -/
inductive Purpose where
  | announcement
  | answer
  | reply
  | goodbye
  deriving DecidableEq, Repr

structure Entry where
  purpose : Purpose
  time : ℚ
  payload : Bytes

/-- The thread of an advertiser at one socket, with what it has sent, the last first. -/
structure Responder where
  binding : Binding
  clock : ℚ
  nextAnnouncement : ℚ
  announcements : Nat := 0
  serving : Bool := true
  log : List Entry := []

namespace Responder

variable (s : Responder)

/-- `_say_goodbye`, on the way out of the loop. -/
def sayGoodbye : Responder :=
  match encodeResponse (s.binding.publication.records.map (Record.withTtl · 0)) 0 [] with
  | .error _ => { s with serving := false }
  | .ok payload => { s with
      serving := false
      log := ⟨.goodbye, s.clock, payload⟩ :: s.log }

/-- The top of the loop of `_serve`: an announcement, if one is due. It does not ask the limit for
permission, but lets it know. -/
def turn : Responder :=
  if s.announcements < announceCount ∧ s.nextAnnouncement ≤ s.clock then
    match encodeResponse s.binding.publication.records 0 [] with
    | .error _ => s.sayGoodbye
    | .ok payload => { s with
        binding := (s.binding.mayRespond false s.clock).2
        announcements := s.announcements + 1
        nextAnnouncement := s.clock + announceInterval
        log := ⟨.announcement, s.clock, payload⟩ :: s.log }
  else s

/-- A datagram is handled. -/
def receive (payload : Bytes) (source : Endpoint) : Responder :=
  match s.binding.handle payload source s.clock with
  | .error _ => s.sayGoodbye
  | .ok (none, binding) => { s with binding := binding }
  | .ok (some sent, binding) => { s with
      binding := binding
      log := ⟨if sent.receiver.isSome then .reply else .answer, s.clock, sent.payload⟩ :: s.log }

inductive Step where
  | passes (time : ℚ)
  | turns
  | receives (payload : Bytes) (source : Endpoint)
  | stops

/-- A step, where it can be taken. A datagram is read after the first announcement. -/
def step : Step → Responder → Option Responder
  | .passes time, s => if 0 ≤ time then some { s with clock := s.clock + time } else none
  | .turns, s => if s.serving then some s.turn else none
  | .receives payload source, s =>
      if s.serving ∧ 0 < s.announcements then some (s.receive payload source) else none
  | .stops, s => if s.serving then some s.sayGoodbye else none

def machine : Machine := ⟨Responder, Step, step⟩

/-- The thread has opened its sockets. -/
structure Fresh (s : Responder) : Prop where
  announcements : s.announcements = 0
  serving : s.serving = true
  log : s.log = []
  lastMulticast : s.binding.lastMulticast = none
  unicastWindowStart : s.binding.unicastWindowStart = none
  unicastSent : s.binding.unicastSent = 0

/-- The states of a responder. -/
def Reached (s t : Responder) : Prop := Fresh s ∧ machine.Run Machine.Free s t

end Responder

/-! ### What one step does -/

section Limits

variable {b b' : Binding} {now : ℚ}

/-- What the limit of answers to the group allows, and remembers. -/
theorem mayRespond_multicast : b.mayRespond false now =
    if elapsed b.lastMulticast multicastMinInterval now then
      (true, { b with lastMulticast := some now })
    else (false, b) := rfl

/-- What it does where an answer to one host goes out. -/
theorem mayRespond_unicast (may : b.mayRespond true now = (true, b')) :
    (elapsed b.unicastWindowStart unicastWindow now = true ∧
      b' = { b with unicastWindowStart := some now, unicastSent := 1 }) ∨
    (elapsed b.unicastWindowStart unicastWindow now = false ∧ b.unicastSent < unicastBurst ∧
      b' = { b with unicastSent := b.unicastSent + 1 }) := by
  unfold Binding.mayRespond at may
  rw [if_pos rfl] at may
  cases late : elapsed b.unicastWindowStart unicastWindow now with
  | true =>
      rw [late, if_pos rfl] at may
      exact .inl ⟨rfl, (Prod.ext_iff.mp may).2.symm⟩
  | false =>
      rw [late] at may
      simp only [Bool.false_eq_true, if_false] at may
      split at may
      · cases may
      · rename_i room
        exact .inr ⟨rfl, Nat.lt_of_not_le room, (Prod.ext_iff.mp may).2.symm⟩

/-- A limit that does not allow a datagram stays as it is. -/
theorem mayRespond_refused {unicast : Bool} (refused : b.mayRespond unicast now = (false, b')) :
    b' = b := by
  unfold Binding.mayRespond at refused
  grind [unicastBurst]

end Limits

/-- The payload is a response with some of the records. -/
def Carries (records : List Record) (payload : Bytes) : Prop :=
  ∃ answers ident questions, List.Sublist answers records ∧
    encodeResponse answers ident questions = .ok payload

namespace Responder

variable {s t : Responder}

/-- What a step does. -/
inductive Does (s : Responder) : Responder → Prop where
  | waits (time : ℚ) (forward : 0 ≤ time) : Does s { s with clock := s.clock + time }
  | keepsQuiet : Does s s
  | announces (payload : Bytes) (serving : s.serving = true)
      (few : s.announcements < announceCount) (due : s.nextAnnouncement ≤ s.clock)
      (encoded : encodeResponse s.binding.publication.records 0 [] = .ok payload) :
      Does s { s with
        binding := (s.binding.mayRespond false s.clock).2
        announcements := s.announcements + 1
        nextAnnouncement := s.clock + announceInterval
        log := ⟨.announcement, s.clock, payload⟩ :: s.log }
  | answers (payload : Bytes) (b : Binding) (serving : s.serving = true)
      (announced : 0 < s.announcements) (carries : Carries s.binding.publication.records payload)
      (may : s.binding.mayRespond false s.clock = (true, b)) :
      Does s { s with binding := b, log := ⟨.answer, s.clock, payload⟩ :: s.log }
  | replies (payload : Bytes) (b : Binding) (serving : s.serving = true)
      (announced : 0 < s.announcements) (carries : Carries s.binding.publication.records payload)
      (may : s.binding.mayRespond true s.clock = (true, b)) :
      Does s { s with binding := b, log := ⟨.reply, s.clock, payload⟩ :: s.log }
  | ends (serving : s.serving = true) : Does s s.sayGoodbye

theorem handle_quiet {b b' : Binding} {payload : Bytes} {source : Endpoint} {now : ℚ}
    (quiet : b.handle payload source now = .ok (none, b')) : b' = b := by
  cases asked : decodeQuestions payload with
  | error e =>
      rw [handle_malformed asked] at quiet
      cases quiet
      rfl
  | ok questions =>
      by_cases nothing : answersFor b.publication.records questions = []
      · rw [handle_other asked nothing] at quiet
        cases quiet
        rfl
      · rw [handle_asked asked nothing] at quiet
        dsimp only at quiet
        cases may : (b.mayRespond (b.unicasts source questions) now).1 with
        | false =>
            rw [may] at quiet
            cases quiet
            exact mayRespond_refused (Prod.ext may rfl)
        | true =>
            rw [may, if_pos rfl] at quiet
            cases encoded : b.respond payload source questions <;> rw [encoded] at quiet <;>
              cases quiet

theorem carries_respond {b : Binding} {payload out : Bytes} {source : Endpoint}
    {questions : List Question} (encoded : b.respond payload source questions = .ok out) :
    Carries b.publication.records out := by
  have few : (answersFor b.publication.records questions).Sublist b.publication.records := by
    rw [answersFor_eq]
    exact List.filter_sublist
  unfold Binding.respond at encoded
  split at encoded
  · exact ⟨_, _, _, few, encoded⟩
  · exact ⟨_, _, _, few, encoded⟩

theorem does_of_step {l : Step} (stepped : step l s = some t) : Does s t := by
  cases l with
  | passes time =>
      obtain ⟨forward, same⟩ := Option.ite_none_right_eq_some.mp stepped
      cases same
      exact .waits time forward
  | turns =>
      obtain ⟨serving, same⟩ := Option.ite_none_right_eq_some.mp stepped
      cases same
      unfold turn
      split
      · rename_i due
        cases encoded : encodeResponse s.binding.publication.records 0 [] with
        | error e => exact .ends serving
        | ok payload => exact .announces payload serving due.1 due.2 encoded
      · exact .keepsQuiet
  | stops =>
      obtain ⟨serving, same⟩ := Option.ite_none_right_eq_some.mp stepped
      cases same
      exact .ends serving
  | receives payload source =>
      obtain ⟨⟨serving, announced⟩, same⟩ := Option.ite_none_right_eq_some.mp stepped
      cases same
      unfold receive
      cases handled : s.binding.handle payload source s.clock with
      | error e => exact .ends serving
      | ok result =>
          obtain ⟨sent, b⟩ := result
          cases sent with
          | none =>
              rw [handle_quiet handled]
              exact .keepsQuiet
          | some sent =>
              obtain ⟨questions, -, -, may, receiver, encoded⟩ := handle_spoke handled
              have carries := carries_respond encoded
              cases direct : s.binding.unicasts source questions with
              | true =>
                  rw [direct] at may receiver
                  simp only [receiver, if_true, Option.isSome_some]
                  exact .replies sent.payload b serving announced carries may
              | false =>
                  rw [direct] at may receiver
                  simp only [receiver, Bool.false_eq_true, if_false, Option.isSome_none]
                  exact .answers sent.payload b serving announced carries may

end Responder

/-! ### Times -/

/-- A datagram for the group, the goodbye apart. -/
def Entry.Multicast (e : Entry) : Prop := e.purpose = .announcement ∨ e.purpose = .answer

/-- An answer comes a second after what was sent before it, or that is an announcement that came
less than a second after an answer, and the answer a second after that one. -/
def Entry.Clears (before : List Entry) (e sent : Entry) : Prop :=
  sent.time + 1 ≤ e.time ∨ sent.purpose = .announcement ∧
    ∃ a ∈ before, a.purpose = .answer ∧ a.time ≤ sent.time ∧ sent.time < a.time + 1 ∧
      a.time + 1 ≤ e.time

/-- How far the datagrams for the group are apart. -/
def Spaced : List Entry → Prop
  | [] => True
  | e :: before => Spaced before ∧
      (e.purpose = .answer → ∀ sent ∈ before, sent.Multicast → e.Clears before sent) ∧
      (e.purpose = .announcement →
        ∀ sent ∈ before, sent.purpose = .announcement → sent.time + 1 ≤ e.time)

/-- The times of the replies to one host. -/
def replyTimes (log : List Entry) : List ℚ :=
  (log.filter fun e => e.purpose = .reply).map Entry.time

/-- How many announcements there were. -/
def announced (log : List Entry) : Nat := log.countP fun e => e.purpose = .announcement

namespace Responder

/-- What the limit for the group knows of the datagrams sent. -/
structure Marks (s : Responder) : Prop where
  nothing : s.binding.lastMulticast = none → ∀ e ∈ s.log, ¬ e.Multicast
  before : ∀ mark, s.binding.lastMulticast = some mark → ∀ e ∈ s.log, e.Multicast →
    e.time ≤ mark ∨ e.purpose = .announcement ∧ mark ≤ e.time ∧ e.time < mark + 1 ∧
      ∃ a ∈ s.log, a.purpose = .answer ∧ a.time = mark
  by_ : ∀ mark, s.binding.lastMulticast = some mark →
    (∃ a ∈ s.log, a.purpose = .answer ∧ a.time = mark) ∨ mark + 1 ≤ s.nextAnnouncement

/-- What the limit for single hosts knows of the replies sent. -/
structure Counts (s : Responder) : Prop where
  nothing : s.binding.unicastWindowStart = none →
    s.binding.unicastSent = 0 ∧ replyTimes s.log = []
  window : ∀ start, s.binding.unicastWindowStart = some start → start ≤ s.clock ∧
    Windowed unicastWindow unicastBurst start s.binding.unicastSent (replyTimes s.log)

/-- What every step keeps of the times. -/
structure Timed (s : Responder) : Prop where
  past : ∀ e ∈ s.log, e.time ≤ s.clock
  spaced : Spaced s.log
  due : ∀ e ∈ s.log, e.purpose = .announcement → e.time + 1 ≤ s.nextAnnouncement
  count : announced s.log = s.announcements
  few : s.announcements ≤ announceCount
  marks : s.serving = true → Marks s
  counts : s.serving = true → Counts s
  replies : ∀ first, timesIn first (first + 1) (replyTimes s.log) ≤ 20

section Timed

variable {s t : Responder} {payload : Bytes} {b : Binding}

theorem Timed.waits (timed : Timed s) {time : ℚ} (forward : 0 ≤ time) :
    Timed { s with clock := s.clock + time } where
  past e listed := (timed.past e listed).trans (le_add_of_nonneg_right forward)
  spaced := timed.spaced
  due := timed.due
  count := timed.count
  few := timed.few
  marks serving := ⟨(timed.marks serving).nothing, (timed.marks serving).before,
    (timed.marks serving).by_⟩
  counts serving := ⟨(timed.counts serving).nothing, fun start opened =>
    ⟨((timed.counts serving).window start opened).1.trans (le_add_of_nonneg_right forward),
      ((timed.counts serving).window start opened).2⟩⟩
  replies := timed.replies

/-- What is sent now joins what was sent before. -/
theorem Timed.past_cons (timed : Timed s) {e : Entry} (now : e.time = s.clock) :
    ∀ sent ∈ e :: s.log, sent.time ≤ s.clock := by
  intro sent listed
  rcases List.mem_cons.mp listed with rfl | old
  · exact now.le
  · exact timed.past sent old

theorem Timed.due_cons (timed : Timed s) {e : Entry} (other : e.purpose ≠ .announcement) :
    ∀ sent ∈ e :: s.log, sent.purpose = .announcement → sent.time + 1 ≤ s.nextAnnouncement := by
  intro sent listed is
  rcases List.mem_cons.mp listed with rfl | old
  · exact absurd is other
  · exact timed.due sent old is

theorem Timed.ends (timed : Timed s) : Timed s.sayGoodbye := by
  unfold sayGoodbye
  split
  · exact { timed with
      marks := fun on => absurd on Bool.false_ne_true
      counts := fun on => absurd on Bool.false_ne_true }
  · exact {
      past := timed.past_cons rfl
      spaced := ⟨timed.spaced, fun is => absurd is (by simp), fun is => absurd is (by simp)⟩
      due := timed.due_cons (by simp)
      count := by simpa [announced] using timed.count
      few := timed.few
      marks := fun on => absurd on Bool.false_ne_true
      counts := fun on => absurd on Bool.false_ne_true
      replies := by simpa [replyTimes] using timed.replies }

theorem elapsed_none (span now : ℚ) : elapsed none span now = true := rfl

theorem elapsed_some (time span now : ℚ) :
    elapsed (some time) span now = true ↔ span ≤ now - time := by
  simp [elapsed]

/-- An announcement that the limit would not have allowed comes less than a second after an answer,
since the announcement before is a second ago. -/
theorem Marks.announces (marks : Marks s) (past : ∀ e ∈ s.log, e.time ≤ s.clock)
    (due : s.nextAnnouncement ≤ s.clock) :
    Marks { s with
      binding := (s.binding.mayRespond false s.clock).2
      announcements := s.announcements + 1
      nextAnnouncement := s.clock + announceInterval
      log := ⟨.announcement, s.clock, payload⟩ :: s.log } := by
  rw [mayRespond_multicast]
  cases late : elapsed s.binding.lastMulticast multicastMinInterval s.clock with
  | true =>
      refine ⟨fun none_ => (nomatch none_), fun mark marked e listed _ => .inl ?_,
        fun mark marked => .inr ?_⟩
      · cases marked
        rcases List.mem_cons.mp listed with rfl | old
        · exact le_rfl
        · exact past e old
      · cases marked
        exact le_rfl
  | false =>
      simp only [Bool.false_eq_true, if_false]
      cases marked : s.binding.lastMulticast with
      | none =>
          rw [marked, elapsed_none] at late
          cases late
      | some mark =>
          have soon : s.clock - mark < 1 := by
            rw [marked] at late
            refine not_le.mp fun over_ => ?_
            rw [(elapsed_some mark multicastMinInterval s.clock).mpr over_] at late
            cases late
          obtain ⟨a, listed, answer, time⟩ :
              ∃ a ∈ s.log, a.purpose = .answer ∧ a.time = mark := by
            rcases marks.by_ mark marked with answered | before
            · exact answered
            · linarith
          have earlier : mark ≤ s.clock := time ▸ past a listed
          refine ⟨fun none_ => ?_, fun mark' marked' e there is => ?_,
            fun mark' marked' => .inl ⟨a, List.mem_cons_of_mem _ listed, answer, ?_⟩⟩
          · rw [marked] at none_
            cases none_
          · obtain rfl := Option.some.inj (marked.symm.trans marked')
            rcases List.mem_cons.mp there with rfl | old
            · exact .inr ⟨rfl, earlier, by linarith, a, List.mem_cons_of_mem _ listed, answer, time⟩
            · refine (marks.before mark marked e old is).imp_right ?_
              rintro ⟨announcement, from_, until_, -⟩
              exact ⟨announcement, from_, until_, a, List.mem_cons_of_mem _ listed, answer, time⟩
          · rw [time]
            exact Option.some.inj (marked.symm.trans marked')

theorem Timed.announces (timed : Timed s) (serving : s.serving = true)
    (few : s.announcements < announceCount) (due : s.nextAnnouncement ≤ s.clock) :
    Timed { s with
      binding := (s.binding.mayRespond false s.clock).2
      announcements := s.announcements + 1
      nextAnnouncement := s.clock + announceInterval
      log := ⟨.announcement, s.clock, payload⟩ :: s.log } where
  past := timed.past_cons rfl
  spaced := ⟨timed.spaced, fun is => absurd is (by simp),
    fun _ sent listed is => (timed.due sent listed is).trans due⟩
  due e listed is := by
    rcases List.mem_cons.mp listed with rfl | old
    · exact le_rfl
    · exact ((timed.due e old is).trans due).trans (le_add_of_nonneg_right (by decide))
  count := by simpa [announced] using timed.count
  few := few
  marks _ := (timed.marks serving).announces timed.past due
  counts _ := by
    have counts := timed.counts serving
    rw [mayRespond_multicast]
    split
    · exact ⟨by simpa [replyTimes] using counts.nothing, by simpa [replyTimes] using counts.window⟩
    · exact ⟨by simpa [replyTimes] using counts.nothing, by simpa [replyTimes] using counts.window⟩
  replies := by simpa [replyTimes] using timed.replies

theorem Timed.answers (timed : Timed s) (serving : s.serving = true)
    (may : s.binding.mayRespond false s.clock = (true, b)) :
    Timed { s with binding := b, log := ⟨.answer, s.clock, payload⟩ :: s.log } := by
  have marks := timed.marks serving
  have counts := timed.counts serving
  rw [mayRespond_multicast] at may
  split at may
  · rename_i late
    obtain rfl := (Prod.ext_iff.mp may).2
    exact {
      past := timed.past_cons rfl
      spaced := by
        refine ⟨timed.spaced, fun _ sent listed is => ?_, fun is => absurd is (by simp)⟩
        cases marked : s.binding.lastMulticast with
        | none => exact absurd is (marks.nothing marked sent listed)
        | some mark =>
            rw [marked] at late
            have second : 1 ≤ s.clock - mark := (elapsed_some mark _ _).mp late
            rcases marks.before mark marked sent listed is with before |
              ⟨announcement, from_, until_, a, there, answer, time⟩
            · exact .inl (by simp only; linarith)
            · exact .inr ⟨announcement, a, there, answer, by linarith, by linarith,
                by simp only; linarith⟩
      due := timed.due_cons (by simp)
      count := by simpa [announced] using timed.count
      few := timed.few
      marks := fun _ => by
        refine ⟨fun none_ => (nomatch none_), fun mark marked e listed _ => .inl ?_,
          fun mark marked => .inl ⟨_, List.mem_cons_self, rfl, ?_⟩⟩
        · cases marked
          rcases List.mem_cons.mp listed with rfl | old
          · exact le_rfl
          · exact timed.past e old
        · cases marked
          rfl
      counts := fun _ => ⟨by simpa [replyTimes] using counts.nothing,
        by simpa [replyTimes] using counts.window⟩
      replies := by simpa [replyTimes] using timed.replies }
  · cases may

/-- The window of the limit after a reply. -/
theorem Counts.replies (counts : Counts s) (may : s.binding.mayRespond true s.clock = (true, b)) :
    ∃ start, b.unicastWindowStart = some start ∧ start ≤ s.clock ∧
      Windowed unicastWindow unicastBurst start b.unicastSent (s.clock :: replyTimes s.log) := by
  rcases mayRespond_unicast may with ⟨late, rfl⟩ | ⟨soon, room, rfl⟩
  · have opened : Windowed unicastWindow unicastBurst s.clock 0 (replyTimes s.log) := by
      cases started : s.binding.unicastWindowStart with
      | none =>
          rw [(counts.nothing started).2]
          exact windowed_nil _ _ _
      | some start =>
          rw [started, elapsed_some] at late
          exact (counts.window start started).2.opens (by linarith) (by decide)
    exact ⟨s.clock, rfl, le_rfl, opened.admits (by decide) le_rfl
      (lt_add_of_pos_right _ (by decide))⟩
  · cases started : s.binding.unicastWindowStart with
    | none =>
        rw [started, elapsed_none] at soon
        cases soon
    | some start =>
        obtain ⟨earlier, windowed⟩ := counts.window start started
        refine ⟨start, rfl, earlier, windowed.admits room earlier ?_⟩
        refine not_le.mp fun over_ => ?_
        rw [started, (elapsed_some start unicastWindow s.clock).mpr (by linarith)] at soon
        cases soon

theorem Timed.replying (timed : Timed s) (serving : s.serving = true)
    (may : s.binding.mayRespond true s.clock = (true, b)) :
    Timed { s with binding := b, log := ⟨.reply, s.clock, payload⟩ :: s.log } := by
  obtain ⟨start, opened, earlier, windowed⟩ := (timed.counts serving).replies may
  have same : b.lastMulticast = s.binding.lastMulticast := by
    rcases mayRespond_unicast may with ⟨-, rfl⟩ | ⟨-, -, rfl⟩ <;> rfl
  have marks := timed.marks serving
  have times : replyTimes (⟨.reply, s.clock, payload⟩ :: s.log) = s.clock :: replyTimes s.log := by
    simp [replyTimes]
  exact {
    past := timed.past_cons rfl
    spaced := ⟨timed.spaced, fun is => absurd is (by simp), fun is => absurd is (by simp)⟩
    due := timed.due_cons (by simp)
    count := by simpa [announced] using timed.count
    few := timed.few
    marks := fun _ => by
      refine ⟨fun none_ e listed is => ?_, fun mark marked e listed is => ?_, fun mark marked => ?_⟩
      · rcases List.mem_cons.mp listed with rfl | old
        · simp [Entry.Multicast] at is
        · exact marks.nothing (same ▸ none_) e old is
      · rcases List.mem_cons.mp listed with rfl | old
        · simp [Entry.Multicast] at is
        · refine (marks.before mark (same ▸ marked) e old is).imp_right ?_
          rintro ⟨announcement, from_, until_, a, there, answer⟩
          exact ⟨announcement, from_, until_, a, List.mem_cons_of_mem _ there, answer⟩
      · refine (marks.by_ mark (same ▸ marked)).imp_left ?_
        rintro ⟨a, there, answer⟩
        exact ⟨a, List.mem_cons_of_mem _ there, answer⟩
    counts := fun _ => by
      refine ⟨fun none_ => ?_, fun start' opened' => ?_⟩
      · rw [opened] at none_
        cases none_
      · obtain rfl := Option.some.inj (opened.symm.trans opened')
        exact ⟨earlier, times ▸ windowed⟩
    replies := fun first => by
      rw [times]
      exact windowed.each first }

theorem Timed.step (timed : Timed s) (does : Does s t) : Timed t := by
  cases does with
  | waits time forward => exact timed.waits forward
  | keepsQuiet => exact timed
  | announces payload serving few due encoded => exact timed.announces serving few due
  | answers payload b serving announced carries may => exact timed.answers serving may
  | replies payload b serving announced carries may => exact timed.replying serving may
  | ends serving => exact timed.ends

theorem Fresh.timed (fresh : Fresh s) : Timed s where
  past := by simp [fresh.log]
  spaced := by
    rw [fresh.log]
    trivial
  due := by simp [fresh.log]
  count := by simp [fresh.log, fresh.announcements, announced]
  few := by simp [fresh.announcements]
  marks _ := ⟨by simp [fresh.log], by simp [fresh.lastMulticast], by simp [fresh.lastMulticast]⟩
  counts _ := ⟨fun _ => ⟨fresh.unicastSent, by simp [fresh.log, replyTimes]⟩,
    by simp [fresh.unicastWindowStart]⟩
  replies := by simp [fresh.log, replyTimes, timesIn]

end Timed

end Responder

/-! ### What is said -/

section Said

variable {records : List Record}

theorem mayRespond_publication (b : Binding) (unicast : Bool) (now : ℚ) :
    (b.mayRespond unicast now).2.publication = b.publication := by
  unfold Binding.mayRespond
  grind

/-- Records that can be announced can be taken back. -/
theorem encodeGoodbye {data : Bytes} (announced : encodeResponse records 0 [] = .ok data) :
    ∃ out, encodeResponse (records.map (Record.withTtl · 0)) 0 [] = .ok out := by
  obtain ⟨_, _, -, -, recordsFit, -, each, -⟩ := encodeResponse_ok announced
  obtain ⟨answers, encoded⟩ : ∃ out, encodeAll (encodeRecord (!([] : List Question).isEmpty))
      (records.map (Record.withTtl · 0)) = .ok out := by
    refine encodeAll_of_each fun record listed => ?_
    obtain ⟨r, there, rfl⟩ := List.mem_map.mp listed
    obtain ⟨out, fine⟩ := encodeAll_each each r there
    obtain ⟨name, named, typeFits, -, lengthFits, -⟩ := encodeRecord_ok fine
    exact ⟨_, bind_eq_ok.mpr ⟨name, named, bind_eq_ok.mpr ⟨_, toBytes?_of_lt typeFits,
      bind_eq_ok.mpr ⟨toBytes 4 0, rfl, bind_eq_ok.mpr ⟨_, toBytes?_of_lt lengthFits, rfl⟩⟩⟩⟩⟩
  exact ⟨_, encodeResponse_of_sections (by decide) (by decide) (by rwa [List.length_map]) rfl
    encoded⟩

theorem exists_right {α β : Type} {R : α → β → Prop} {left : List α} {right : List β}
    (each : List.Forall₂ R left right) {a : α} (listed : a ∈ left) : ∃ b ∈ right, R a b := by
  induction each with
  | nil => cases listed
  | cons related _ ih =>
      rcases List.mem_cons.mp listed with rfl | there
      · exact ⟨_, List.mem_cons_self, related⟩
      · obtain ⟨b, here, related'⟩ := ih there
        exact ⟨b, List.mem_cons_of_mem _ here, related'⟩

end Said

namespace Responder

/-- What every step keeps of what is said. -/
structure Saying (s : Responder) : Prop where
  announced : 0 < s.announcements →
    ∃ data, encodeResponse s.binding.publication.records 0 [] = .ok data
  first : s.serving = true → s.log ≠ [] → 0 < s.announcements
  serving : s.serving = true →
    ∀ e ∈ s.log, e.purpose ≠ .goodbye ∧ Carries s.binding.publication.records e.payload
  ended : s.serving = false → s.log = [] ∨ ∃ bye before, s.log = bye :: before ∧
    bye.purpose = .goodbye ∧
    encodeResponse (s.binding.publication.records.map (Record.withTtl · 0)) 0 [] = .ok bye.payload ∧
    ∀ e ∈ before, e.purpose ≠ .goodbye ∧ Carries s.binding.publication.records e.payload

variable {s t : Responder}

theorem Saying.ends (saying : Saying s) (serving : s.serving = true) : Saying s.sayGoodbye := by
  have said := saying.serving serving
  unfold sayGoodbye
  cases encoded : encodeResponse (s.binding.publication.records.map (Record.withTtl · 0)) 0 [] with
  | error e =>
      have nothing : s.log = [] := by
        by_contra some_
        obtain ⟨data, announced⟩ := saying.announced (saying.first serving some_)
        obtain ⟨out, fine⟩ := encodeGoodbye announced
        rw [encoded] at fine
        cases fine
      exact ⟨saying.announced, fun on => absurd on Bool.false_ne_true,
        fun on => absurd on Bool.false_ne_true, fun _ => .inl nothing⟩
  | ok payload =>
      exact ⟨saying.announced, fun on => absurd on Bool.false_ne_true,
        fun on => absurd on Bool.false_ne_true,
        fun _ => .inr ⟨⟨.goodbye, s.clock, payload⟩, s.log, rfl, rfl, encoded, said⟩⟩

/-- A datagram that is not the goodbye is sent while the thread serves. -/
theorem Saying.says (saying : Saying s) (serving : s.serving = true) {e : Entry}
    (other : e.purpose ≠ .goodbye) (carries : Carries s.binding.publication.records e.payload) :
    ∀ sent ∈ e :: s.log, sent.purpose ≠ .goodbye ∧
      Carries s.binding.publication.records sent.payload := by
  intro sent listed
  rcases List.mem_cons.mp listed with rfl | old
  · exact ⟨other, carries⟩
  · exact saying.serving serving sent old

theorem Saying.step (saying : Saying s) (does : Does s t) : Saying t := by
  cases does with
  | waits time forward =>
      exact ⟨saying.announced, saying.first, saying.serving, saying.ended⟩
  | keepsQuiet => exact saying
  | ends serving => exact saying.ends serving
  | announces payload serving few due encoded =>
      have same := mayRespond_publication s.binding false s.clock
      have carries : Carries s.binding.publication.records payload :=
        ⟨_, _, _, List.Sublist.refl _, encoded⟩
      refine ⟨fun _ => ⟨payload, same ▸ encoded⟩, fun _ _ => Nat.succ_pos _, fun _ => ?_,
        fun off => absurd (serving.symm.trans off) (by decide)⟩
      rw [same]
      exact saying.says serving (by simp) carries
  | answers payload b serving announced carries may =>
      have same : b.publication = s.binding.publication := by
        rw [← mayRespond_publication s.binding false s.clock, may]
      refine ⟨same ▸ saying.announced, fun _ _ => announced, fun _ => ?_,
        fun off => absurd (serving.symm.trans off) (by decide)⟩
      rw [same]
      exact saying.says serving (by simp) carries
  | replies payload b serving announced carries may =>
      have same : b.publication = s.binding.publication := by
        rw [← mayRespond_publication s.binding true s.clock, may]
      refine ⟨same ▸ saying.announced, fun _ _ => announced, fun _ => ?_,
        fun off => absurd (serving.symm.trans off) (by decide)⟩
      rw [same]
      exact saying.says serving (by simp) carries

theorem Fresh.saying (fresh : Fresh s) : Saying s where
  announced first := absurd first (by simp [fresh.announcements])
  first _ some_ := absurd fresh.log some_
  serving _ := by simp [fresh.log]
  ended off := absurd (fresh.serving.symm.trans off) (by decide)

end Responder

/-! ### Runs -/

/-- The question of a neighbour on the link, who listens to the group. -/
def groupQuery : Bytes :=
  (encodeQuery (serviceLabels siteTransport none) typePtr 0 false).toOption.getD []

def siteNeighbour : Endpoint := ⟨.literal (.v4 0xC0A80003), 5353⟩

theorem decodeQuestions_group :
    decodeQuestions groupQuery = .ok [⟨serviceLabels siteTransport none, typePtr, false⟩] := by
  have encodable : (⟨serviceLabels siteTransport none, typePtr, false⟩ : Question).Encodable :=
    ⟨by decide, by decide⟩
  obtain ⟨data, encoded, decoded⟩ := query_round_trip encodable (show 0 < 2 ^ 16 by decide)
  have same : encodeQuery (serviceLabels siteTransport none) typePtr 0 false = .ok groupQuery := by
    rfl
  obtain rfl := Except.ok.inj (same.symm.trans encoded)
  exact decoded

def siteResponder : Responder := { binding := siteBinding, clock := 0, nextAnnouncement := 0 }

theorem siteResponder_fresh : siteResponder.Fresh := ⟨rfl, rfl, rfl, rfl, rfl, rfl⟩

/-- What it has sent when the question comes in just before the second announcement. -/
def siteLog : List Entry :=
  [⟨.announcement, 1, siteAnnouncement⟩, ⟨.answer, 1, siteAnnouncement⟩,
    ⟨.announcement, 0, siteAnnouncement⟩]

/-- The responder after it has announced its records, and a second later. -/
def siteWaiting : Responder where
  binding := { siteBinding with lastMulticast := some 0 }
  clock := 1
  nextAnnouncement := 1
  announcements := 1
  log := [⟨.announcement, 0, siteAnnouncement⟩]

/-- The responder with its answer, as the second announcement is due. -/
def siteAnswered : Responder where
  binding := { siteBinding with lastMulticast := some 1 }
  clock := 1
  nextAnnouncement := 1
  announcements := 1
  log := [⟨.answer, 1, siteAnnouncement⟩, ⟨.announcement, 0, siteAnnouncement⟩]

theorem siteWaiting_receives : siteWaiting.receive groupQuery siteNeighbour = siteAnswered := by
  have some_ : answersFor siteWaiting.binding.publication.records
      [⟨serviceLabels siteTransport none, typePtr, false⟩] = sitePublication.records :=
    answersFor_service sitePublication_findable false
  have respond : siteWaiting.binding.respond groupQuery siteNeighbour
      [⟨serviceLabels siteTransport none, typePtr, false⟩] = .ok siteAnnouncement := by
    rw [Binding.respond, some_]
    rfl
  have handled : siteWaiting.binding.handle groupQuery siteNeighbour 1 =
      .ok (some ⟨siteAnnouncement, none⟩, siteAnswered.binding) := by
    have late : elapsed (some 0) multicastMinInterval 1 = true := by decide +kernel
    have may : siteWaiting.binding.mayRespond false 1 = (true, siteAnswered.binding) := if_pos late
    have group : siteWaiting.binding.unicasts siteNeighbour
        [⟨serviceLabels siteTransport none, typePtr, false⟩] = false := by rfl
    rw [handle_asked decodeQuestions_group (by rw [some_]; decide), respond, group, may]
    rfl
  have clock : siteWaiting.clock = 1 := rfl
  rw [Responder.receive, clock, handled]
  rfl

theorem siteResponder_turns :
    siteResponder.turn = { siteWaiting with clock := 0 } := by
  have next : (0 : ℚ) + announceInterval = 1 := by decide +kernel
  have encoded : encodeResponse siteResponder.binding.publication.records 0 [] =
      .ok siteAnnouncement := siteAnnouncement_ok
  rw [Responder.turn, if_pos ⟨by decide, le_rfl⟩, encoded]
  simp only [siteWaiting, ← next]
  rfl

theorem siteAnswered_turns :
    siteAnswered.turn.serving = true ∧ siteAnswered.turn.log = siteLog := by
  have encoded : encodeResponse siteAnswered.binding.publication.records 0 [] =
      .ok siteAnnouncement := siteAnnouncement_ok
  rw [Responder.turn, if_pos ⟨by decide, le_rfl⟩, encoded]
  exact ⟨rfl, rfl⟩

theorem site_runs :
    ∃ t, Responder.Reached siteResponder t ∧ t.serving = true ∧ t.log = siteLog := by
  have waited : (0 : ℚ) + 1 = 1 := by decide +kernel
  have first : Responder.machine.Run Machine.Free siteResponder { siteWaiting with clock := 0 } :=
    .step .turns (.refl _) (congrArg some siteResponder_turns) trivial
  have second : Responder.machine.Run Machine.Free siteResponder siteWaiting := by
    refine .step (.passes 1) first ?_ trivial
    show (if (0 : ℚ) ≤ 1 then some _ else none) = _
    rw [if_pos (by decide)]
    simp only [waited]
    rfl
  have third : Responder.machine.Run Machine.Free siteResponder siteAnswered :=
    .step (.receives groupQuery siteNeighbour) second (congrArg some siteWaiting_receives) trivial
  exact ⟨siteAnswered.turn, ⟨siteResponder_fresh, .step .turns third rfl trivial⟩,
    siteAnswered_turns⟩

/-- In every run of a responder: it announces at most three times, a second apart; its answers to
the group come a second after whatever was sent there, but for an announcement that itself came
less than a second after an answer; and in no second does it send more than twenty replies. -/
theorem responder_paced {s t : Responder} (reached : Responder.Reached s t) :
    announced t.log ≤ announceCount ∧ Spaced t.log ∧
      ∀ first, timesIn first (first + 1) (replyTimes t.log) ≤ 20 := by
  have timed : t.Timed := Machine.Run.keeps
    (fun _ _ _ stepped _ timed => timed.step (Responder.does_of_step stepped)) reached.2
    reached.1.timed
  exact ⟨timed.count ▸ timed.few, timed.spaced, timed.replies⟩

/-- Here an announcement follows an answer at once. -/
theorem responder_paced_site : ∃ t, Responder.Reached siteResponder t ∧ t.log = siteLog ∧
    announced t.log ≤ announceCount ∧ Spaced t.log ∧
      ∀ first, timesIn first (first + 1) (replyTimes t.log) ≤ 20 := by
  obtain ⟨t, reached, -, log⟩ := site_runs
  exact ⟨t, reached, log, responder_paced reached⟩

/-- When the thread has ended, whatever the reason, it has sent nothing at all, or the goodbye as
the last thing: it holds, with no time to live, every record that any datagram before it held. -/
theorem goodbye_takes_back {s t : Responder} (reached : Responder.Reached s t)
    (ended : t.serving = false) :
    t.log = [] ∨ ∃ bye before message, t.log = bye :: before ∧ bye.purpose = .goodbye ∧
      (∀ e ∈ before, e.purpose ≠ .goodbye) ∧ decodeMessage bye.payload = .ok message ∧
      (∀ taken ∈ message.records, taken.ttl = 0) ∧
      ∀ e ∈ before, ∃ told, decodeMessage e.payload = .ok told ∧ ∀ said ∈ told.records,
        ∃ taken ∈ message.records, taken.name = said.name ∧ taken.rtype = said.rtype ∧
          recordRdata message taken = recordRdata told said := by
  have saying : t.Saying := Machine.Run.keeps
    (fun _ _ _ stepped _ saying => saying.step (Responder.does_of_step stepped)) reached.2
    reached.1.saying
  rcases saying.ended ended with nothing | ⟨bye, before, log, purpose, encoded, said⟩
  · exact .inl nothing
  · obtain ⟨message, decoded, -, reads⟩ := decodeMessage_response encoded
    refine .inr ⟨bye, before, message, log, purpose, fun e listed => (said e listed).1, decoded,
      fun taken listed => ?_, fun e listed => ?_⟩
    · obtain ⟨record, there, same⟩ := exists_right reads listed
      obtain ⟨r, -, rfl⟩ := List.mem_map.mp there
      exact same.ttl
    · obtain ⟨answers, ident, questions, few, encoded'⟩ := (said e listed).2
      obtain ⟨told, decoded', -, reads'⟩ := decodeMessage_response encoded'
      refine ⟨told, decoded', fun said' there => ?_⟩
      obtain ⟨record, published, same⟩ := exists_right reads' there
      have turned : List.Forall₂ (fun record found => ReadsAs message true.not found record)
          (t.binding.publication.records.map (Record.withTtl · 0)) message.records :=
        List.Forall₂.flip reads
      obtain ⟨taken, here, same'⟩ :=
        exists_right turned (List.mem_map_of_mem (few.subset published))
      exact ⟨taken, here, same'.name.trans same.name.symm, same'.rtype.trans same.rtype.symm,
        same'.rdata.trans same.rdata.symm⟩

theorem goodbye_takes_back_site : ∃ t bye, Responder.Reached siteResponder t ∧
    t.log = bye :: siteLog ∧ bye.purpose = .goodbye := by
  obtain ⟨t, reached, serving, log⟩ := site_runs
  have stopped : Responder.Reached siteResponder t.sayGoodbye :=
    ⟨reached.1, .step .stops reached.2 (if_pos serving) trivial⟩
  obtain ⟨off, said⟩ : t.sayGoodbye.serving = false ∧
      (t.sayGoodbye.log = siteLog ∨ ∃ e, t.sayGoodbye.log = e :: siteLog) := by
    unfold Responder.sayGoodbye
    split
    · exact ⟨rfl, .inl log⟩
    · exact ⟨rfl, .inr ⟨_, congrArg _ log⟩⟩
  have last := goodbye_takes_back stopped off
  rcases said with said | ⟨e, said⟩
  · rw [said] at last
    rcases last with nothing | ⟨bye, before, message, whole, purpose, -⟩
    · cases nothing
    · cases whole
      cases purpose
  · rw [said] at last
    rcases last with nothing | ⟨bye, before, message, whole, purpose, -⟩
    · cases nothing
    · cases whole
      exact ⟨_, e, stopped, said, purpose⟩

end Py20305.Dnssd
