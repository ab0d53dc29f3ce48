import Mathlib.Algebra.BigOperators.Fin
import Mathlib.Algebra.Order.BigOperators.Group.Finset
import Mathlib.Algebra.Order.Ring.Rat
import Mathlib.Tactic.Linarith

/-!
Retries (`client/retry.py`).

`with_retry` keeps two counts, of TLS failures and of transient ones, each with its limit. Which
attempt is the last is settled by the counts alone:

* `withRetry_ends`: the loop stops at the first attempt that is no failure, or whose count reaches
  its limit, and gives what that attempt gives; no more attempts are made than the limits add up to;
* `withRetry_waits`: the waits in between add up to at most the two geometric series of the backoff
  and what the server asked for in Retry-After.

What the operation does is a stream of attempts. Delays are exact; the reports and the log are left
out.
-/

namespace Py20305.Retry

/-! ### The loop -/

/-- An exception, as far as `is_simulated_failure` looks into it: the closed gate's, any other, or
one that was raised from another. -/
inductive Failure where
  | simulated
  | genuine
  | raisedFrom (cause : Failure)
  deriving DecidableEq, Repr

/-- How an attempt ends. -/
inductive Attempt (α : Type) where
  | returned (a : α)
  /-- `ssl.SSLError`. -/
  | tls (e : Failure)
  /-- `Sep2RateLimitError`. -/
  | rateLimited (retryAfter : Option Int)
  /-- `Sep2RedirectError`. -/
  | redirected
  /-- `TimeoutError`, `OSError`. -/
  | transport (e : Failure)
  /-- `Sep2ProtocolError`, `Sep2PayloadError`: the server answered with something of no use. -/
  | answered
  /-- Any other exception. -/
  | other
  deriving DecidableEq, Repr

/-- What `with_retry` raises. -/
inductive Raised where
  /-- `Sep2TlsError`. -/
  | tls (cause : Failure)
  /-- `Sep2ConnectionError`. -/
  | connection (cause : Failure)
  | rateLimited (retryAfter : Option Int)
  | redirected
  | answered
  | other
  deriving DecidableEq, Repr

/-- `transient_attempts` and `tls_attempts`. -/
inductive Counter where
  | transient
  | tls
  deriving DecidableEq, Repr

structure RetryPolicy where
  maxTransient : Int := 3
  maxTls : Int := 8
  baseDelay : ℚ := 1 / 4
  backoffFactor : ℚ := 2

namespace RetryPolicy

variable (p : RetryPolicy)

def limit : Counter → Int
  | .transient => p.maxTransient
  | .tls => p.maxTls

/-- The wait after the failure that brings its count to `n`. -/
def backoff (n : Nat) : ℚ := p.baseDelay * p.backoffFactor ^ (n - 1)

end RetryPolicy

namespace Attempt

variable {α : Type}

/-- The count a failure goes to, if it is one that is tried again. -/
def counter : Attempt α → Option Counter
  | tls _ => some .tls
  | rateLimited _ | redirected | transport _ => some .transient
  | returned _ | answered | other => none

/-- What the loop gives where it ends with this attempt. -/
def conclude : Attempt α → Except Raised α
  | returned a => .ok a
  | tls e => .error (.tls e)
  | rateLimited retryAfter => .error (.rateLimited retryAfter)
  | redirected => .error .redirected
  | transport e => .error (.connection e)
  | answered => .error .answered
  | other => .error .other

/-- The wait after this attempt, which brought its count to `n`. -/
def delay (p : RetryPolicy) (n : Nat) : Attempt α → ℚ
  | rateLimited (some retryAfter) => if retryAfter = 0 then p.backoff n else retryAfter
  | _ => p.backoff n

/-- The wait the server asks for. -/
def asked : Attempt α → ℚ
  | rateLimited (some retryAfter) => max 0 retryAfter
  | _ => 0

end Attempt

/-- What the loop gives, after how many attempts, and how long it waited after each but the last. -/
structure Ended (α : Type) where
  result : Except Raised α
  attempts : Nat
  sleeps : List ℚ

variable {α : Type}

/-- The loop of `with_retry`, after `made` attempts. -/
def retryFrom (p : RetryPolicy) (op : Nat → Attempt α) (made : Nat) (count : Counter → Nat)
    (slept : List ℚ) : Ended α :=
  match (op made).counter with
  | none => ⟨(op made).conclude, made + 1, slept⟩
  | some c =>
      if p.limit c ≤ (count c + 1 : Nat) then ⟨(op made).conclude, made + 1, slept⟩
      else
        retryFrom p op (made + 1) (Function.update count c (count c + 1))
          (slept ++ [(op made).delay p (count c + 1)])
termination_by (p.limit .transient - count .transient).toNat + (p.limit .tls - count .tls).toNat
decreasing_by
  rename_i more
  cases c <;> simp <;> simp only [RetryPolicy.limit] at more ⊢ <;> omega

/-- `with_retry`. -/
def withRetry (p : RetryPolicy) (op : Nat → Attempt α) : Ended α := retryFrom p op 0 (fun _ => 0) []

/-! ### Which attempt is the last -/

/-- How many of the first `n` attempts went to a count. -/
def tally (op : Nat → Attempt α) (c : Counter) : Nat → Nat
  | 0 => 0
  | n + 1 => tally op c n + if (op n).counter = some c then 1 else 0

/-- The loop ends with attempt `n`, if it comes to it: it is no failure to be tried again, or its
count is at the limit. -/
def Final (p : RetryPolicy) (op : Nat → Attempt α) (n : Nat) : Prop :=
  ∀ c, (op n).counter = some c → p.limit c ≤ tally op c (n + 1)

/-- The wait after attempt `k`. -/
def waitAfter (p : RetryPolicy) (op : Nat → Attempt α) (k : Nat) : ℚ :=
  match (op k).counter with
  | none => 0
  | some c => (op k).delay p (tally op c (k + 1))

/-- The loop ended with attempt `n`, the first that could be the last. -/
structure EndsAt (p : RetryPolicy) (op : Nat → Attempt α) (n : Nat) (e : Ended α) : Prop where
  first : ∀ k < n, ¬Final p op k
  final : Final p op n
  result : e.result = (op n).conclude
  attempts : e.attempts = n + 1
  sleeps : e.sleeps = (List.range n).map (waitAfter p op)

section Last

variable {p : RetryPolicy} {op : Nat → Attempt α} {c : Counter} {n : Nat}

theorem tally_of_counter (counted : (op n).counter = some c) :
    tally op c (n + 1) = tally op c n + 1 := by
  simp [tally, counted]

theorem tally_of_ne (other : (op n).counter ≠ some c) : tally op c (n + 1) = tally op c n := by
  simp [tally, other]

theorem tally_update (counted : (op n).counter = some c) :
    Function.update (fun c' => tally op c' n) c (tally op c n + 1) =
      fun c' => tally op c' (n + 1) := by
  funext c'
  by_cases same : c' = c
  · subst same
    rw [Function.update_self, tally_of_counter counted]
  · rw [Function.update_of_ne same, tally_of_ne]
    intro also
    exact same (Option.some.inj (also.symm.trans counted))

/-- The loop, from where no attempt so far was the last. -/
theorem retryFrom_ends (made : Nat) (count : Counter → Nat) (slept : List ℚ)
    (counts : count = fun c => tally op c made) (first : ∀ k < made, ¬Final p op k)
    (waits : slept = (List.range made).map (waitAfter p op)) :
    ∃ n, EndsAt p op n (retryFrom p op made count slept) := by
  induction made, count, slept using retryFrom.induct p op with
  | case1 made count slept ends =>
      refine ⟨made, first, fun c counted => ?_, ?_, ?_, ?_⟩
      · rw [ends] at counted
        cases counted
      all_goals rw [retryFrom, ends]
      exact waits
  | case2 made count slept c counted limit =>
      subst counts
      refine ⟨made, first, fun c' also => ?_, ?_, ?_, ?_⟩
      · obtain rfl := Option.some.inj (also.symm.trans counted)
        rwa [tally_of_counter counted]
      all_goals rw [retryFrom, counted]; simp only [if_pos limit]
      exact waits
  | case3 made count slept c counted more ih =>
      subst counts
      have step : retryFrom p op made (fun c => tally op c made) slept =
          retryFrom p op (made + 1) (Function.update (fun c => tally op c made) c
            (tally op c made + 1)) (slept ++ [(op made).delay p (tally op c made + 1)]) := by
        rw [retryFrom, counted]
        simp only [if_neg more]
      rw [step]
      refine ih (tally_update counted) (fun k below => ?_) ?_
      · rcases Nat.lt_succ_iff_lt_or_eq.mp below with before | rfl
        · exact first k before
        · intro final
          exact more (tally_of_counter counted ▸ final c counted)
      · rw [List.range_succ, List.map_append, ← waits, List.map_singleton, waitAfter, counted]
        simp only [tally_of_counter counted]

/-- Every attempt before the last went to one of the counts. -/
theorem tally_add (first : ∀ k < n, ¬Final p op k) :
    tally op .transient n + tally op .tls n = n := by
  induction n with
  | zero => rfl
  | succ n ih =>
      have before := ih fun k below => first k (Nat.lt_succ_of_lt below)
      have counted : (op n).counter ≠ none := by
        intro ends
        refine first n (Nat.lt_succ_self n) fun c also => ?_
        rw [ends] at also
        cases also
      obtain ⟨c, counted⟩ := Option.ne_none_iff_exists'.mp counted
      cases c with
      | transient => rw [tally_of_counter counted, tally_of_ne (by simp [counted])]; omega
      | tls => rw [tally_of_counter counted, tally_of_ne (by simp [counted])]; omega

/-- A count stays below its limit as long as the loop goes on. -/
theorem tally_le (first : ∀ k < n, ¬Final p op k) (c : Counter) :
    tally op c n ≤ (p.limit c - 1).toNat := by
  induction n with
  | zero => exact Nat.zero_le _
  | succ n ih =>
      by_cases counted : (op n).counter = some c
      · by_contra past
        refine first n (Nat.lt_succ_self n) fun c' also => ?_
        obtain rfl := Option.some.inj (also.symm.trans counted)
        omega
      · rw [tally_of_ne counted]
        exact ih fun k below => first k (Nat.lt_succ_of_lt below)

theorem exists_endsAt (p : RetryPolicy) (op : Nat → Attempt α) :
    ∃ n, EndsAt p op n (withRetry p op) :=
  retryFrom_ends 0 _ [] (funext fun _ => rfl) (fun _ below => absurd below (Nat.not_lt_zero _)) rfl

end Last

/-- `with_retry` ends: with the first attempt that could be the last, and with what that attempt
gives. The limits bound the attempts. -/
theorem withRetry_ends (p : RetryPolicy) (op : Nat → Attempt α) :
    ∃ n, EndsAt p op n (withRetry p op) ∧
      n ≤ (p.maxTransient - 1).toNat + (p.maxTls - 1).toNat := by
  obtain ⟨n, ends⟩ := exists_endsAt p op
  refine ⟨n, ends, ?_⟩
  have transient := tally_le ends.first .transient
  have tls := tally_le ends.first .tls
  have all := tally_add ends.first
  simp only [RetryPolicy.limit] at transient tls
  omega

/-! ### How long the waits are -/

namespace RetryPolicy

variable (p : RetryPolicy)

/-- The first `m` waits of a count that backs off. -/
def series (m : Nat) : ℚ := ∑ i ∈ Finset.range m, p.baseDelay * p.backoffFactor ^ i

/-- All the waits of a count. -/
def patience (c : Counter) : ℚ := p.series (p.limit c - 1).toNat

variable {p}

theorem series_mono (base : 0 ≤ p.baseDelay) (factor : 0 ≤ p.backoffFactor) {m n : Nat}
    (le : m ≤ n) : p.series m ≤ p.series n := by
  refine Finset.sum_le_sum_of_subset_of_nonneg (Finset.range_subset_range.mpr le) fun i _ _ => ?_
  exact mul_nonneg base (pow_nonneg factor i)

theorem series_succ (m : Nat) : p.series (m + 1) = p.series m + p.backoff (m + 1) :=
  Finset.sum_range_succ _ m

theorem backoff_nonneg (base : 0 ≤ p.baseDelay) (factor : 0 ≤ p.backoffFactor) (m : Nat) :
    0 ≤ p.backoff m :=
  mul_nonneg base (pow_nonneg factor _)

end RetryPolicy

section Waits

variable {p : RetryPolicy} {op : Nat → Attempt α}

theorem delay_le (base : 0 ≤ p.baseDelay) (factor : 0 ≤ p.backoffFactor) (a : Attempt α)
    (m : Nat) : a.delay p m ≤ p.backoff m + a.asked := by
  have backs := RetryPolicy.backoff_nonneg base factor m
  cases a with
  | rateLimited retryAfter =>
      cases retryAfter with
      | none => exact (add_zero _).ge
      | some r =>
          rw [Attempt.delay, Attempt.asked]
          split
          · exact le_add_of_nonneg_right (le_max_left _ _)
          · exact (le_max_right _ _).trans (le_add_of_nonneg_left backs)
  | _ => exact (add_zero _).ge

theorem asked_nonneg (a : Attempt α) : 0 ≤ a.asked := by
  cases a with
  | rateLimited retryAfter =>
      cases retryAfter with
      | none => exact le_rfl
      | some r => exact le_max_left _ _
  | _ => exact le_rfl

/-- The waits so far are at most the backoff of as many failures of each count, and what was asked
for. -/
theorem sum_waits_le (base : 0 ≤ p.baseDelay) (factor : 0 ≤ p.backoffFactor) (n : Nat) :
    ((List.range n).map (waitAfter p op)).sum ≤
      p.series (tally op .transient n) + p.series (tally op .tls n) +
        ((List.range n).map fun k => (op k).asked).sum := by
  induction n with
  | zero => simp [tally, RetryPolicy.series]
  | succ n ih =>
      rw [List.range_succ, List.map_append, List.map_append, List.sum_append, List.sum_append,
        List.map_singleton, List.map_singleton, List.sum_singleton, List.sum_singleton]
      cases counted : (op n).counter with
      | none =>
          have still (c : Counter) : tally op c (n + 1) = tally op c n :=
            tally_of_ne (by simp [counted])
          have none_ : waitAfter p op n = 0 := by rw [waitAfter, counted]
          have asks := asked_nonneg (op n)
          rw [still, still, none_]
          linarith
      | some c =>
          have waits : waitAfter p op n = (op n).delay p (tally op c n + 1) := by
            rw [waitAfter, counted]
            simp only [tally_of_counter counted]
          have last := delay_le base factor (op n) (tally op c n + 1)
          rw [waits]
          cases c with
          | transient =>
              rw [tally_of_counter counted, tally_of_ne (c := .tls) (by simp [counted]),
                RetryPolicy.series_succ]
              linarith
          | tls =>
              rw [tally_of_counter counted, tally_of_ne (c := .transient) (by simp [counted]),
                RetryPolicy.series_succ]
              linarith

end Waits

/-- The waits of `with_retry` add up to at most the backoff of the two counts and what the server
asked for. -/
theorem withRetry_waits (p : RetryPolicy) (op : Nat → Attempt α) (base : 0 ≤ p.baseDelay)
    (factor : 0 ≤ p.backoffFactor) :
    (withRetry p op).sleeps.sum ≤ p.patience .transient + p.patience .tls +
      ((List.range ((withRetry p op).attempts - 1)).map fun k => (op k).asked).sum := by
  obtain ⟨n, ends⟩ := exists_endsAt p op
  have waits : ((List.range n).map (waitAfter p op)).sum ≤ _ := sum_waits_le base factor n
  have transient := RetryPolicy.series_mono base factor (tally_le ends.first .transient)
  have tls := RetryPolicy.series_mono base factor (tally_le ends.first .tls)
  rw [ends.sleeps, ends.attempts, Nat.add_sub_cancel]
  simp only [RetryPolicy.patience]
  linarith

/-- A server that cannot be reached, asked under the default policy. -/
theorem withRetry_waits_default :
    (withRetry {} fun _ => (.transport .genuine : Attempt Unit)).sleeps.sum ≤ 65 / 2 := by
  have waits := withRetry_waits {} (fun _ => (.transport .genuine : Attempt Unit)) (by norm_num)
    (by norm_num)
  have patience : ({} : RetryPolicy).patience .transient + ({} : RetryPolicy).patience .tls =
      65 / 2 := by
    change ∑ i ∈ Finset.range 2, (1 / 4 : ℚ) * 2 ^ i + ∑ i ∈ Finset.range 7, (1 / 4 : ℚ) * 2 ^ i = _
    norm_num [Finset.sum_range_succ]
  rw [patience] at waits
  refine waits.trans (le_of_eq ?_)
  simp [Attempt.asked]

end Py20305.Retry
