import Py20305.Client.Retry

/-!
Connectivity health of `Sep2Client` (`client/http.py`).

A read records each of its attempts, a write how it ended in the end, a raw request its one try.
`health_tells` says what the health says after any run of them: the failures counted are those since
the last contact or reset, the last contact is the last one since a reset, and a silence is put down
to the simulation just where every failure recorded since the last contact was the gate's own. A
reset of the session does not touch the attribution. However it is recorded, the health agrees with
what the caller of the last request was given.

Left out: the texts of the last error, the chain audit, and what is recorded for the traffic view.
-/

namespace Py20305.Retry

/-- `is_simulated_failure`. -/
def Failure.isSimulated : Failure → Bool
  | simulated => true
  | genuine => false
  | raisedFrom cause => cause.isSimulated

/-- The health a `Sep2Client` keeps. -/
structure Health where
  lastContactEpoch : Option Int := none
  lastValidatedEpoch : Option Int := none
  consecutiveFailures : Nat := 0
  serverAlive : Bool := true
  silenceSimulated : Option Bool := none
  deriving DecidableEq, Repr

/-- What is recorded. -/
inductive Note where
  | contact (now : Int)
  | failed (error : Failure)
  /-- `reset_session`. -/
  | reset
  deriving DecidableEq, Repr

/-- `_record_contact`, and `reset_session` as far as the health goes. -/
def Health.record (h : Health) : Note → Health
  | .failed error =>
      { h with
        silenceSimulated :=
          match h.silenceSimulated with
          | none => some error.isSimulated
          | some simulated => some (simulated && error.isSimulated)
        serverAlive := false
        consecutiveFailures := h.consecutiveFailures + 1 }
  | .contact now =>
      { lastContactEpoch := some now
        lastValidatedEpoch := some now
        consecutiveFailures := 0
        serverAlive := true
        silenceSimulated := none }
  | .reset =>
      { h with
        lastContactEpoch := none
        lastValidatedEpoch := none
        consecutiveFailures := 0
        serverAlive := false }

/-- The health after what was recorded. -/
def Health.after (notes : List Note) : Health := notes.foldl Health.record {}

/-! ### Requests -/

section Requests

variable {α : Type}

/-- What an attempt that records itself records: anything the server answered is contact. -/
def Attempt.note (now : Int) : Attempt α → Option Note
  | returned _ | rateLimited _ | redirected | answered => some (.contact now)
  | tls e | transport e => some (.failed e)
  | other => none

/-- What `_send_tracked` records of how `with_retry` ended. -/
def noteOfResult (now : Int) : Except Raised α → Option Note
  | .ok _ => some (.contact now)
  | .error (.tls cause) | .error (.connection cause) => some (.failed (.raisedFrom cause))
  | .error (.rateLimited _) | .error .redirected | .error .answered => some (.contact now)
  | .error .other => none

/-- The requests of a client: the stream of attempts with the time each is over. -/
inductive Request (α : Type) where
  /-- `get`, `get_with_body`. -/
  | read (op : Nat → Attempt α) (clock : Nat → Int)
  /-- `post`, `put`, `delete`. -/
  | write (op : Nat → Attempt α) (clock : Nat → Int)
  /-- `get_raw`, `request_raw`: tried once. -/
  | raw (attempt : Attempt α) (now : Int)
  | reset

/-- What its caller is given; a raw request that fails returns the status code 0. -/
def Request.result (p : RetryPolicy) : Request α → Option (Except Raised α)
  | read op _ | write op _ => some (withRetry p op).result
  | raw attempt _ => some attempt.conclude
  | reset => none

/-- When its last attempt is over. -/
def Request.ended (p : RetryPolicy) : Request α → Option Int
  | read op clock | write op clock => some (clock ((withRetry p op).attempts - 1))
  | raw _ now => some now
  | reset => none

def Request.notes (p : RetryPolicy) : Request α → List Note
  | read op clock =>
      (List.range (withRetry p op).attempts).filterMap fun k => (op k).note (clock k)
  | write op clock =>
      (noteOfResult (clock ((withRetry p op).attempts - 1)) (withRetry p op).result).toList
  | raw attempt now => (attempt.note now).toList
  | reset => [.reset]

end Requests

/-! ### What the health says -/

/-- The failures since the last contact, of what was recorded, newest first. -/
def silence : List Note → List Failure
  | [] => []
  | .contact _ :: _ => []
  | .reset :: earlier => silence earlier
  | .failed error :: earlier => error :: silence earlier

/-- The failures since the last contact or reset. -/
def failuresSince : List Note → List Failure
  | [] => []
  | .contact _ :: _ => []
  | .reset :: _ => []
  | .failed error :: earlier => error :: failuresSince earlier

/-- The last contact since a reset. -/
def lastContact : List Note → Option Int
  | [] => none
  | .contact now :: _ => some now
  | .reset :: _ => none
  | .failed _ :: earlier => lastContact earlier

/-- Whose fault the silence is, if there is one. -/
def attribution (failures : List Failure) : Option Bool :=
  if failures = [] then none else some (failures.all Failure.isSimulated)

theorem attribution_cons (error : Failure) (failures : List Failure) :
    attribution (error :: failures) =
      match attribution failures with
      | none => some error.isSimulated
      | some simulated => some (simulated && error.isSimulated) := by
  cases failures with
  | nil => simp [attribution]
  | cons first rest => simp [attribution, Bool.and_comm, Bool.and_left_comm]

/-- What the health says of what was recorded, newest first. -/
structure Tells (h : Health) (notes : List Note) : Prop where
  silence : h.silenceSimulated = attribution (silence notes)
  failures : h.consecutiveFailures = (failuresSince notes).length
  contact : h.lastContactEpoch = lastContact notes
  validated : h.lastValidatedEpoch = h.lastContactEpoch
  alive : h.serverAlive = true ↔ notes = [] ∨ ∃ now earlier, notes = .contact now :: earlier

theorem Tells.record {h : Health} {notes : List Note} (tells : Tells h notes) (note : Note) :
    Tells (h.record note) (note :: notes) := by
  cases note with
  | contact now =>
      exact ⟨by simp [attribution, Health.record, Retry.silence], rfl, rfl, rfl,
        by simp [Health.record]⟩
  | reset => exact ⟨tells.silence, rfl, rfl, rfl, by simp [Health.record]⟩
  | failed error =>
      refine ⟨?_, congrArg Nat.succ tells.failures, tells.contact, tells.validated, by
        simp [Health.record]⟩
      simp only [Health.record, Retry.silence, attribution_cons, tells.silence]

theorem tells_after (notes : List Note) : Tells (Health.after notes) notes.reverse := by
  induction notes using List.reverseRecOn with
  | nil => exact ⟨rfl, rfl, rfl, rfl, by simp [Health.after]⟩
  | append_singleton notes note ih =>
      rw [Health.after, List.foldl_append, List.reverse_append]
      exact ih.record note

/-! ### What the caller is given -/

section Callers

variable {α : Type}

/-- The health agrees with how a request ended: the server answered at `now`, or it could not be
reached, and then the silence is put down to the simulation only if what was raised is. -/
def Agrees (h : Health) (now : Int) : Except Raised α → Prop
  | .ok _ | .error (.rateLimited _) | .error .redirected | .error .answered =>
      h = { lastContactEpoch := some now, lastValidatedEpoch := some now }
  | .error (.tls cause) | .error (.connection cause) =>
      h.serverAlive = false ∧ 0 < h.consecutiveFailures ∧
        ∃ simulated, h.silenceSimulated = some simulated ∧
          (simulated = true → cause.isSimulated = true)
  | .error .other => True

/-- What was recorded last is how a request ended. -/
def Says (now : Int) (last : Option Note) : Except Raised α → Prop
  | .ok _ | .error (.rateLimited _) | .error .redirected | .error .answered =>
      last = some (.contact now)
  | .error (.tls cause) | .error (.connection cause) =>
      ∃ error, last = some (.failed error) ∧ error.isSimulated = cause.isSimulated
  | .error .other => last = none

theorem says_note (now : Int) (a : Attempt α) : Says now (a.note now) a.conclude := by
  cases a with
  | tls e => exact ⟨e, rfl, rfl⟩
  | transport e => exact ⟨e, rfl, rfl⟩
  | _ => rfl

theorem says_noteOfResult (now : Int) (result : Except Raised α) :
    Says now (noteOfResult now result) result := by
  cases result with
  | ok a => rfl
  | error raised =>
      cases raised with
      | tls cause => exact ⟨.raisedFrom cause, rfl, rfl⟩
      | connection cause => exact ⟨.raisedFrom cause, rfl, rfl⟩
      | _ => rfl

/-- The last attempt of a read, and the end of a write, is what its caller is given. -/
theorem notes_say (p : RetryPolicy) (request : Request α) {result : Except Raised α} {now : Int}
    (given : request.result p = some result) (ended : request.ended p = some now) :
    ∃ earlier last, request.notes p = earlier ++ last.toList ∧ Says now last result := by
  cases request with
  | read op clock =>
      obtain ⟨n, ends⟩ := exists_endsAt p op
      obtain rfl := Option.some.inj given
      obtain rfl := Option.some.inj ended
      refine ⟨(List.range n).filterMap fun k => (op k).note (clock k), (op n).note (clock n), ?_, ?_⟩
      · rw [Request.notes, ends.attempts, List.range_succ, List.filterMap_append]
        cases noted : (op n).note (clock n) <;> simp [noted]
      · rw [ends.attempts, Nat.add_sub_cancel, ends.result]
        exact says_note _ _
  | write op clock =>
      obtain rfl := Option.some.inj given
      obtain rfl := Option.some.inj ended
      exact ⟨[], _, rfl, says_noteOfResult _ _⟩
  | raw attempt at_ =>
      obtain rfl := Option.some.inj given
      obtain rfl := Option.some.inj ended
      exact ⟨[], _, rfl, says_note _ _⟩
  | reset => cases given

theorem Says.agrees {now : Int} {last : Option Note} {result : Except Raised α}
    (told : Says now last result) (notes : List Note) :
    Agrees (Health.after (notes ++ last.toList)) now result := by
  have failing (error : Failure) : ∃ simulated,
      ((Health.after notes).record (.failed error)).silenceSimulated = some simulated ∧
        (simulated = true → error.isSimulated = true) := by
    simp only [Health.record]
    cases (Health.after notes).silenceSimulated with
    | none => exact ⟨_, rfl, id⟩
    | some simulated => exact ⟨_, rfl, fun both => (Bool.and_eq_true_iff.mp both).2⟩
  have unreachable {cause : Failure}
      (failed : ∃ error, last = some (.failed error) ∧ error.isSimulated = cause.isSimulated) :
      (Health.after (notes ++ last.toList)).serverAlive = false ∧
        0 < (Health.after (notes ++ last.toList)).consecutiveFailures ∧
        ∃ simulated, (Health.after (notes ++ last.toList)).silenceSimulated = some simulated ∧
          (simulated = true → cause.isSimulated = true) := by
    obtain ⟨error, rfl, same⟩ := failed
    rw [Option.toList_some, Health.after, List.foldl_append, ← same]
    exact ⟨rfl, Nat.succ_pos _, failing error⟩
  have reached (contact : last = some (.contact now)) : Health.after (notes ++ last.toList) =
      { lastContactEpoch := some now, lastValidatedEpoch := some now } := by
    rw [contact, Option.toList_some, Health.after, List.foldl_append]
    rfl
  cases result with
  | ok a => exact reached told
  | error raised =>
      cases raised with
      | tls cause => exact unreachable told
      | connection cause => exact unreachable told
      | other => trivial
      | _ => exact reached told

/-- A read that comes through at its second attempt, after a write that the closed gate kept
back. -/
def comesThrough : Request Unit :=
  .read (fun k => if k = 0 then .transport .genuine else .returned ()) fun k => 100 + k

end Callers

end Py20305.Retry
