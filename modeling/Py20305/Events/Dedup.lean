import Py20305.Events.Responses
import Py20305.Lib.Machine

/-!
The response dedup protocol: `ResponseTracker.reserve`, `release` and `mark_sent`
with their futures, and the callers `post_der_response` and
`post_price_response`.

A claim on a key carries a future that is resolved with whether the POST landed.
Callers that find a claim wait for its future and go around again if the POST did
not land. A caller can be cancelled while it waits or posts.

`dedup_protocol`: in every run, at most one POST for a key is in flight, none
lands again before the key is forgotten, a caller is turned away only after a
POST landed, and no claim outlives the callers.
-/

namespace Py20305

open Machine

/-- `TimeTariffInterval`, as far as a response reads it. -/
structure TimeTariffInterval where
  mrid : Mrid
  responseRequired : Option Nat
  replyTo : Option Href

/-- A call that posts a response. -/
inductive PostCall where
  | der (derc : Dercontrol) (code : ResponseCode) (lfdi : Lfdi) (now : Int)
  | price (interval : TimeTariffInterval) (code : ResponseCode) (lfdi : Lfdi) (now : Int)

namespace PostCall

variable (edition : Edition)

/-- What the response is deduplicated by. -/
def key : PostCall → ResponseKey
  | der derc code lfdi _ => ⟨derc.mrid, resolveWireCode edition derc code, lfdi⟩
  | price interval code lfdi _ => ⟨interval.mrid, code, lfdi⟩

/-- The stamp of the response. -/
def now : PostCall → Int
  | der _ _ _ now => now
  | price _ _ _ now => now

/-- Whether the response is asked for, and has somewhere to go. -/
def wanted : PostCall → Bool
  | der derc code _ _ =>
      responseRequiredAllows derc.responseRequired (resolveWireCode edition derc code) &&
        (extractHref derc.replyTo).isSome
  | price interval code _ _ =>
      responseRequiredAllows interval.responseRequired code && (extractHref interval.replyTo).isSome

end PostCall

/-- How a call returns: the response is not wanted, is the server's already, has
landed, or has failed with an exception that is logged. -/
inductive Return where
  | skipped | duplicate | landed | failed
  deriving DecidableEq, Repr

/-- Where a caller is. -/
inductive CallerStage where
  | waiting (future : Nat)
  | posting
  | returned (how : Return)
  | cancelled
  deriving DecidableEq, Repr

/-- A caller that is not coming back to the tracker. -/
def CallerStage.isFinished : CallerStage → Bool
  | waiting _ | posting => false
  | returned _ | cancelled => true

/-- What happened to a key: a POST for it landed, or it was pruned. -/
inductive KeyEvent where
  | landed (key : ResponseKey)
  | forgotten (key : ResponseKey)
  deriving DecidableEq, Repr

/-- The tracker, whose claims name futures; what these were resolved with; the
callers; and the history. -/
structure Posting where
  tracker : ResponseTracker := {}
  futures : Nat → Option Bool := fun _ => none
  next : Nat := 0
  callers : Nat → Option (PostCall × CallerStage) := fun _ => none
  log : List KeyEvent := []

namespace Posting

variable (s : Posting)

/-- The caller moves on. -/
def put (p : Nat) (call : PostCall) (stage : CallerStage) : Posting :=
  { s with callers := Function.update s.callers p (some (call, stage)) }

/-- `set_result`, unless it is done already. -/
def resolve (f : Nat) (result : Bool) : Posting :=
  { s with futures := Function.update s.futures f (some ((s.futures f).getD result)) }

/-- Resolve the future of the claim on a key, if there is one. -/
def settle (key : ResponseKey) (result : Bool) : Posting :=
  match s.tracker.inFlight.get? key with
  | none => s
  | some f => s.resolve f result

/-- `ResponseTracker.release`. -/
def release (key : ResponseKey) : Posting :=
  { s.settle key false with tracker := s.tracker.release key }

/-- `ResponseTracker.mark_sent`. -/
def markSent (key : ResponseKey) (now : Int) : Posting :=
  { s.settle key true with
    tracker := s.tracker.markSent key now
    log := s.log ++ [.landed key] }

/-- The loop of `ResponseTracker.reserve`, up to its await or its return; where
it claims the key, the POST is on its way before the caller next waits. -/
def reserve (p : Nat) (call : PostCall) (key : ResponseKey) : Posting :=
  if key ∈ s.tracker.sent.keys then s.put p call (.returned .duplicate)
  else
    match s.tracker.inFlight.get? key with
    | some f => s.put p call (.waiting f)
    | none =>
        { s with
          tracker := s.tracker.claim key s.next
          futures := Function.update s.futures s.next none
          next := s.next + 1 }.put p call .posting

/-- Drop the entries of `_sent` that `keep` does not hold on to. -/
def forget (keep : ResponseKey → Int → Bool) : Posting :=
  { s with
    tracker := { s.tracker with sent := s.tracker.sent.filter keep }
    log := s.log ++ (s.tracker.sent.keys.filter
      fun key => key ∉ (s.tracker.sent.filter keep).keys).map .forgotten }

end Posting

/-- What can happen next. -/
inductive PostLabel where
  | call (p : Nat) (call : PostCall)
  | wake (p : Nat)
  | land (p : Nat)
  | fail (p : Nat)
  | cancel (p : Nat)
  | prune (now : Int)
  | retainMrids (live : List Mrid)

/-- One step. A caller that is cancelled while it waits leaves the future alone
(`asyncio.shield`); one that is cancelled or fails while it posts releases its
claim. -/
def postStep (edition : Edition) : PostLabel → Posting → Option Posting
  | .call p call, s =>
      if (s.callers p).isSome then none
      else if call.wanted edition then some (s.reserve p call (call.key edition))
      else some (s.put p call (.returned .skipped))
  | .wake p, s =>
      match s.callers p with
      | some (call, .waiting f) =>
          match s.futures f with
          | none => none
          | some true => some (s.put p call (.returned .duplicate))
          | some false => some (s.reserve p call (call.key edition))
      | _ => none
  | .land p, s =>
      match s.callers p with
      | some (call, .posting) =>
          some ((s.markSent (call.key edition) call.now).put p call (.returned .landed))
      | _ => none
  | .fail p, s =>
      match s.callers p with
      | some (call, .posting) =>
          some ((s.release (call.key edition)).put p call (.returned .failed))
      | _ => none
  | .cancel p, s =>
      match s.callers p with
      | some (call, .waiting _) => some (s.put p call .cancelled)
      | some (call, .posting) => some ((s.release (call.key edition)).put p call .cancelled)
      | _ => none
  | .prune now, s => some (s.forget fun _ at_ => !(7200 < now - at_))
  | .retainMrids live, s => some (s.forget fun key _ => key.mrid ∈ live)

/-- The callers and the tracker. -/
@[reducible] def posting (edition : Edition) : Machine where
  State := Posting
  Label := PostLabel
  step := postStep edition

/-- Only the caller that moved is elsewhere. -/
theorem callers_put {s : Posting} {p q : Nat} {call call' : PostCall} {stage stage' : CallerStage}
    (found : (s.put p call stage).callers q = some (call', stage')) :
    (q = p ∧ call' = call ∧ stage' = stage) ∨ (q ≠ p ∧ s.callers q = some (call', stage')) := by
  change Function.update s.callers p (some (call, stage)) q = some (call', stage') at found
  by_cases here : q = p
  · rw [here, Function.update_self] at found
    cases found
    exact .inl ⟨here, rfl, rfl⟩
  · rw [Function.update_of_ne here] at found
    exact .inr ⟨here, found⟩

theorem callers_put_ne (s : Posting) {p q : Nat} (call : PostCall) (stage : CallerStage) (other : q ≠ p) :
    (s.put p call stage).callers q = s.callers q := Function.update_of_ne other _ _

/-- An entry of a history that was extended is an old one or a new one. -/
theorem split_history {α : Type} {old new before after : List α} {x : α}
    (split : old ++ new = before ++ x :: after) :
    (∃ after', after = after' ++ new ∧ old = before ++ x :: after') ∨
      ∃ before', before = old ++ before' ∧ new = before' ++ x :: after := by
  rcases List.append_eq_append_iff.mp split with ⟨before', rfl, rest⟩ | ⟨tail, rfl, rest⟩
  · exact .inr ⟨before', rfl, rest⟩
  · cases tail with
    | nil => exact .inr ⟨[], by simp, by simpa using rest.symm⟩
    | cons y after' =>
        obtain ⟨rfl, rfl⟩ := List.cons.inj rest
        exact .inl ⟨after', rfl, rfl⟩

/-! ### The invariant -/

/-- A claim is held by the one caller that posts, and is pending; who waits, waits
for a claim on its own key or for a future that is resolved. -/
structure Dedup (edition : Edition) (s : Posting) : Prop where
  claims : ∀ key f, s.tracker.inFlight.get? key = some f → f < s.next ∧ s.futures f = none ∧
    key ∉ s.tracker.sent.keys ∧
    ∃ p call, s.callers p = some (call, .posting) ∧ call.key edition = key
  apart : ∀ key key' f, s.tracker.inFlight.get? key = some f →
    s.tracker.inFlight.get? key' = some f → key = key'
  posts : ∀ p call, s.callers p = some (call, .posting) →
    ∃ f, s.tracker.inFlight.get? (call.key edition) = some f
  alone : ∀ p q call call', s.callers p = some (call, .posting) →
    s.callers q = some (call', .posting) → call.key edition = call'.key edition → p = q
  waits : ∀ p call f, s.callers p = some (call, .waiting f) → f < s.next ∧
    (s.tracker.inFlight.get? (call.key edition) = some f ∨
      ∃ result, s.futures f = some result ∧
        (result = true → .landed (call.key edition) ∈ s.log))
  turned : ∀ p call, s.callers p = some (call, .returned .duplicate) →
    .landed (call.key edition) ∈ s.log
  skipped : ∀ p call, s.callers p = some (call, .returned .skipped) → call.wanted edition = false
  sent : ∀ key ∈ s.tracker.sent.keys, .landed key ∈ s.log
  known : ∀ key before after, s.log = before ++ .landed key :: after →
    .forgotten key ∈ after ∨ key ∈ s.tracker.sent.keys
  once : ∀ key before mid after,
    s.log = before ++ .landed key :: (mid ++ .landed key :: after) → .forgotten key ∈ mid

namespace Dedup

variable {edition : Edition} {s : Posting} {p : Nat} {call : PostCall}

theorem start : Dedup edition {} := by
  constructor
  case claims => rintro key f ⟨⟩
  case apart => rintro key key' f ⟨⟩
  case posts => rintro p call ⟨⟩
  case alone => rintro p q call call' ⟨⟩
  case waits => rintro p call f ⟨⟩
  case turned => rintro p call ⟨⟩
  case skipped => rintro p call ⟨⟩
  case sent => rintro key ⟨⟩
  case known =>
    intro key before after same
    simp at same
  case once =>
    intro key before mid after same
    simp at same

/-- A caller that does not post moves on to wait or to return. -/
theorem put (dedup : Dedup edition s) {stage : CallerStage}
    (idle : ∀ call', s.callers p ≠ some (call', .posting)) (other : stage ≠ .posting)
    (waiting : ∀ f, stage = .waiting f →
      s.tracker.inFlight.get? (call.key edition) = some f)
    (duplicate : stage = .returned .duplicate → .landed (call.key edition) ∈ s.log)
    (skips : stage = .returned .skipped → call.wanted edition = false) :
    Dedup edition (s.put p call stage) := by
  have posters : ∀ q call', (s.put p call stage).callers q = some (call', .posting) →
      s.callers q = some (call', .posting) := by
    intro q call' found
    rcases callers_put found with ⟨-, -, same⟩ | ⟨-, old⟩
    · exact absurd same.symm other
    · exact old
  refine ⟨fun key f found => ?_, dedup.apart, fun q c found => dedup.posts q c (posters q c found),
    fun q q' c c' found found' => dedup.alone q q' c c' (posters q c found) (posters q' c' found'),
    fun q call' f found => ?_, fun q call' found => ?_, fun q call' found => ?_, dedup.sent,
    dedup.known, dedup.once⟩
  · obtain ⟨made, pending, unsent, q, call', posts, own⟩ := dedup.claims key f found
    refine ⟨made, pending, unsent, q, call', ?_, own⟩
    rw [callers_put_ne]
    · exact posts
    · rintro rfl
      exact idle call' posts
  · rcases callers_put found with ⟨rfl, rfl, same⟩ | ⟨-, old⟩
    · have claimed := waiting f same.symm
      exact ⟨(dedup.claims _ f claimed).1, .inl claimed⟩
    · exact dedup.waits q call' f old
  · rcases callers_put found with ⟨rfl, rfl, same⟩ | ⟨-, old⟩
    · exact duplicate same.symm
    · exact dedup.turned q call' old
  · rcases callers_put found with ⟨rfl, rfl, same⟩ | ⟨-, old⟩
    · exact skips same.symm
    · exact dedup.skipped q call' old

/-- A caller claims a free key and posts. -/
theorem claim (dedup : Dedup edition s) (idle : ∀ call', s.callers p ≠ some (call', .posting))
    (unsent : call.key edition ∉ s.tracker.sent.keys)
    (free : s.tracker.inFlight.get? (call.key edition) = none) :
    Dedup edition ({ s with
      tracker := s.tracker.claim (call.key edition) s.next
      futures := Function.update s.futures s.next none
      next := s.next + 1 }.put p call .posting) := by
  have inFlight : ∀ key, (s.tracker.inFlight.set (call.key edition) s.next).get? key =
      if key = call.key edition then some s.next else s.tracker.inFlight.get? key :=
    fun key => Dict.get?_set _ _ _ _
  -- Nobody else posts the key.
  have first : ∀ q call', s.callers q = some (call', .posting) →
      call'.key edition ≠ call.key edition := by
    intro q call' found same
    obtain ⟨f, claimed⟩ := dedup.posts q call' found
    rw [same, free] at claimed
    cases claimed
  have old : ∀ f, f < s.next → Function.update s.futures s.next none f = s.futures f :=
    fun f made => Function.update_of_ne (Nat.ne_of_lt made) _ _
  refine ⟨fun key f found => ?_, fun key key' f found found' => ?_, fun q c found => ?_,
    fun q q' c c' found found' same => ?_, fun q c f found => ?_, fun q c found => ?_,
    fun q c found => ?_, dedup.sent, dedup.known, dedup.once⟩
  · change (s.tracker.inFlight.set _ _).get? key = some f at found
    rw [inFlight] at found
    split at found
    · rename_i here
      cases found
      refine ⟨Nat.lt_succ_self _, Function.update_self _ _ _, here ▸ unsent, p, call, ?_, here.symm⟩
      exact Function.update_self _ _ _
    · obtain ⟨made, pending, unsent', q, c, posts, own⟩ := dedup.claims key f found
      refine ⟨Nat.lt_succ_of_lt made, (old f made).trans pending, unsent', q, c, ?_, own⟩
      rw [callers_put_ne]
      · exact posts
      · rintro rfl
        exact idle c posts
  · change (s.tracker.inFlight.set _ _).get? key = some f at found
    change (s.tracker.inFlight.set _ _).get? key' = some f at found'
    rw [inFlight] at found found'
    split at found <;> split at found'
    · rename_i here there
      rw [here, there]
    · cases found
      exact absurd (dedup.claims _ _ found').1 (Nat.lt_irrefl _)
    · cases found'
      exact absurd (dedup.claims _ _ found).1 (Nat.lt_irrefl _)
    · exact dedup.apart key key' f found found'
  · change ∃ f, (s.tracker.inFlight.set _ _).get? _ = some f
    rw [inFlight]
    split
    · exact ⟨s.next, rfl⟩
    · rename_i other
      rcases callers_put found with ⟨-, rfl, -⟩ | ⟨-, posts⟩
      · exact absurd rfl other
      · exact dedup.posts q c posts
  · rcases callers_put found with ⟨rfl, rfl, -⟩ | ⟨-, posts⟩ <;>
      rcases callers_put found' with ⟨rfl, rfl, -⟩ | ⟨-, posts'⟩
    · rfl
    · exact absurd same.symm (first q' c' posts')
    · exact absurd same (first q c posts)
    · exact dedup.alone q q' c c' posts posts' same
  · rcases callers_put found with ⟨-, -, same⟩ | ⟨-, waits⟩
    · cases same
    · obtain ⟨made, claimed | ⟨result, resolved, landed⟩⟩ := dedup.waits q c f waits
      · refine ⟨Nat.lt_succ_of_lt made, .inl ?_⟩
        change (s.tracker.inFlight.set _ _).get? _ = some f
        rw [inFlight, if_neg]
        · exact claimed
        · intro same
          rw [same, free] at claimed
          cases claimed
      · exact ⟨Nat.lt_succ_of_lt made, .inr ⟨result, (old f made).trans resolved, landed⟩⟩
  · rcases callers_put found with ⟨-, -, same⟩ | ⟨-, turned⟩
    · cases same
    · exact dedup.turned q c turned
  · rcases callers_put found with ⟨-, -, same⟩ | ⟨-, skipped⟩
    · cases same
    · exact dedup.skipped q c skipped

/-- A caller's POST is over: `t` has its claim taken back and its future resolved,
and, if it landed, has the key marked. -/
theorem finish (dedup : Dedup edition s) (posts : s.callers p = some (call, .posting))
    {stage : CallerStage} (finished : stage.isFinished = true) (plain : stage ≠ .returned .duplicate)
    (tried : stage ≠ .returned .skipped) {t : Posting} {result : Bool} {f : Nat}
    (claimed : s.tracker.inFlight.get? (call.key edition) = some f)
    (inFlight : t.tracker.inFlight = s.tracker.inFlight.erase (call.key edition))
    (sent : ∀ key, key ∈ t.tracker.sent.keys ↔
      (result = true ∧ key = call.key edition) ∨ key ∈ s.tracker.sent.keys)
    (futures : t.futures = Function.update s.futures f (some result)) (next : t.next = s.next)
    (callers : t.callers = s.callers)
    (log : t.log = s.log ++ if result = true then [.landed (call.key edition)] else []) :
    Dedup edition (t.put p call stage) := by
  obtain ⟨-, -, unsent, -⟩ := dedup.claims _ _ claimed
  have flying : ∀ key, t.tracker.inFlight.get? key =
      if key = call.key edition then none else s.tracker.inFlight.get? key := by
    intro key
    rw [inFlight]
    exact Dict.get?_erase _ _ _
  have later : ∀ e, e ∈ s.log → e ∈ t.log := by
    intro e member
    rw [log]
    exact List.mem_append_left _ member
  -- Whoever is elsewhere now was there before.
  have others : ∀ {q c stage'}, (t.put p call stage).callers q = some (c, stage') →
      stage'.isFinished = false → q ≠ p ∧ s.callers q = some (c, stage') := by
    intro q c stage' found running
    rcases callers_put found with ⟨-, -, rfl⟩ | ⟨other, old⟩
    · rw [finished] at running
      cases running
    · exact ⟨other, callers ▸ old⟩
  refine ⟨fun key g found => ?_, fun key key' g found found' => ?_, fun q c found => ?_,
    fun q q' c c' found found' same => ?_, fun q c g found => ?_, fun q c found => ?_,
    fun q c found => ?_, fun key member => ?_, fun key before after split => ?_,
    fun key before mid after split => ?_⟩
  · change t.tracker.inFlight.get? key = some g at found
    rw [flying] at found
    split at found
    · cases found
    · rename_i other
      obtain ⟨made, pending, unsent', q, c, posts', own⟩ := dedup.claims key g found
      refine ⟨next.symm ▸ made, ?_, fun member => ?_, q, c, ?_, own⟩
      · change t.futures g = none
        rw [futures, Function.update_of_ne]
        · exact pending
        · rintro rfl
          exact other (dedup.apart _ _ _ found claimed)
      · rcases (sent key).mp member with ⟨-, same⟩ | old
        · exact other same
        · exact unsent' old
      · rw [callers_put_ne, callers]
        · exact posts'
        · rintro rfl
          rw [posts] at posts'
          cases posts'
          exact other own.symm
  · change t.tracker.inFlight.get? key = some g at found
    change t.tracker.inFlight.get? key' = some g at found'
    rw [flying] at found found'
    split at found
    · cases found
    · split at found'
      · cases found'
      · exact dedup.apart key key' g found found'
  · obtain ⟨other, old⟩ := others found rfl
    obtain ⟨g, mine⟩ := dedup.posts q c old
    refine ⟨g, ?_⟩
    change t.tracker.inFlight.get? _ = some g
    rw [flying, if_neg]
    · exact mine
    · exact fun same => other (dedup.alone q p c call old posts same)
  · exact dedup.alone q q' c c' (others found rfl).2 (others found' rfl).2 same
  · obtain ⟨-, old⟩ := others found rfl
    obtain ⟨made, mine | ⟨result', resolved, landed⟩⟩ := dedup.waits q c g old
    · refine ⟨next.symm ▸ made, ?_⟩
      by_cases same : c.key edition = call.key edition
      · rw [same] at mine
        cases claimed.symm.trans mine
        refine .inr ⟨result, ?_, fun did => ?_⟩
        · change t.futures f = some result
          rw [futures, Function.update_self]
        · change _ ∈ t.log
          rw [log, did, same]
          exact List.mem_append_right _ (by simp)
      · left
        change t.tracker.inFlight.get? _ = some g
        rw [flying, if_neg same]
        exact mine
    · refine ⟨next.symm ▸ made, .inr ⟨result', ?_, fun did => later _ (landed did)⟩⟩
      change t.futures g = some result'
      rw [futures, Function.update_of_ne]
      · exact resolved
      · rintro rfl
        rw [(dedup.claims _ _ claimed).2.1] at resolved
        cases resolved
  · rcases callers_put found with ⟨-, -, same⟩ | ⟨-, old⟩
    · exact absurd same.symm plain
    · rw [callers] at old
      exact later _ (dedup.turned q c old)
  · rcases callers_put found with ⟨-, -, same⟩ | ⟨-, old⟩
    · exact absurd same.symm tried
    · rw [callers] at old
      exact dedup.skipped q c old
  · rcases (sent key).mp member with ⟨did, same⟩ | old
    · change _ ∈ t.log
      rw [log, did, same]
      exact List.mem_append_right _ (by simp)
    · exact later _ (dedup.sent key old)
  · change t.log = _ at split
    change _ ∨ key ∈ t.tracker.sent.keys
    rw [log] at split
    rw [sent]
    rcases split_history split with ⟨after', rfl, old⟩ | ⟨before', -, new⟩
    · rcases dedup.known key before after' old with forgotten | there
      · exact .inl (List.mem_append_left _ forgotten)
      · exact .inr (.inr there)
    · cases result with
      | false => simp at new
      | true =>
          have member : KeyEvent.landed key ∈ [KeyEvent.landed (call.key edition)] := by
            simp only [if_true] at new
            rw [new]
            simp
          cases List.mem_singleton.mp member
          exact .inr (.inl ⟨rfl, rfl⟩)
  · change t.log = _ at split
    rw [log] at split
    rw [← List.cons_append, ← List.append_assoc] at split
    rcases split_history split with ⟨after', rfl, old⟩ | ⟨before', same, new⟩
    · refine dedup.once key before mid after' ?_
      rw [old]
      simp
    · cases result with
      | false => simp at new
      | true =>
          simp only [if_true] at new
          have empty : before' = [] := by
            cases before' with
            | nil => rfl
            | cons y rest => simp at new
          subst empty
          simp only [List.nil_append, List.cons.injEq, KeyEvent.landed.injEq] at new
          rw [List.append_nil] at same
          rcases dedup.known key before mid same.symm with forgotten | there
          · exact forgotten
          · exact absurd (new.1 ▸ there) unsent

/-- Entries of `_sent` are dropped. -/
theorem forget (dedup : Dedup edition s) (keep : ResponseKey → Int → Bool) :
    Dedup edition (s.forget keep) := by
  have fewer : ∀ key, key ∈ (s.tracker.sent.filter keep).keys → key ∈ s.tracker.sent.keys := by
    intro key member
    obtain ⟨at_, found⟩ := (Dict.mem_keys_iff _ _).mp member
    rw [Dict.get?_filter] at found
    exact (Dict.mem_keys_iff _ _).mpr ⟨at_, (Option.filter_eq_some_iff.mp found).1⟩
  have later : ∀ e, e ∈ s.log → e ∈ (s.forget keep).log :=
    fun e member => List.mem_append_left _ member
  -- What is dropped is noted.
  have noted : ∀ key, key ∈ s.tracker.sent.keys → key ∉ (s.tracker.sent.filter keep).keys →
      .forgotten key ∈ (s.tracker.sent.keys.filter fun key =>
        key ∉ (s.tracker.sent.filter keep).keys).map KeyEvent.forgotten := by
    intro key member gone
    exact List.mem_map_of_mem (List.mem_filter.mpr ⟨member, decide_eq_true gone⟩)
  have new : ∀ key, .landed key ∉ (s.tracker.sent.keys.filter fun key =>
      key ∉ (s.tracker.sent.filter keep).keys).map KeyEvent.forgotten := by
    intro key member
    obtain ⟨_, -, same⟩ := List.mem_map.mp member
    cases same
  refine ⟨fun key f found => ?_, dedup.apart, dedup.posts, dedup.alone, fun p call f found => ?_,
    fun p call found => later _ (dedup.turned p call found), dedup.skipped,
    fun key member => later _ (dedup.sent key (fewer key member)),
    fun key before after split => ?_, fun key before mid after split => ?_⟩
  · obtain ⟨made, pending, unsent, posted⟩ := dedup.claims key f found
    exact ⟨made, pending, fun member => unsent (fewer key member), posted⟩
  · obtain ⟨made, claimed | ⟨result, resolved, landed⟩⟩ := dedup.waits p call f found
    · exact ⟨made, .inl claimed⟩
    · exact ⟨made, .inr ⟨result, resolved, fun did => later _ (landed did)⟩⟩
  · rcases split_history split with ⟨after', rfl, old⟩ | ⟨before', -, there⟩
    · rcases dedup.known key before after' old with forgotten | known
      · exact .inl (List.mem_append_left _ forgotten)
      · by_cases gone : key ∈ (s.tracker.sent.filter keep).keys
        · exact .inr gone
        · exact .inl (List.mem_append_right _ (noted key known gone))
    · refine absurd ?_ (new key)
      rw [there]
      simp
  · rw [← List.cons_append, ← List.append_assoc] at split
    rcases split_history split with ⟨after', rfl, old⟩ | ⟨before', -, there⟩
    · refine dedup.once key before mid after' ?_
      rw [old]
      simp
    · refine absurd ?_ (new key)
      rw [there]
      simp

/-- A caller at the head of the loop. -/
theorem reserve (dedup : Dedup edition s) (idle : ∀ call', s.callers p ≠ some (call', .posting)) :
    Dedup edition (s.reserve p call (call.key edition)) := by
  unfold Posting.reserve
  split
  · rename_i known
    exact dedup.put idle (by simp) (by simp) (fun _ => dedup.sent _ known) (by simp)
  · rename_i unsent
    cases found : s.tracker.inFlight.get? (call.key edition) with
    | none => exact dedup.claim idle unsent found
    | some f =>
        refine dedup.put idle (by simp) (fun g same => ?_) (by simp) (by simp)
        cases same
        exact found

/-- What taking back a claim does to its future. -/
theorem settle_futures (dedup : Dedup edition s) {key : ResponseKey} {f : Nat}
    (claimed : s.tracker.inFlight.get? key = some f) (result : Bool) :
    s.settle key result = { s with futures := Function.update s.futures f (some result) } := by
  unfold Posting.settle Posting.resolve
  rw [claimed]
  dsimp only
  rw [(dedup.claims key f claimed).2.1]
  rfl

theorem land (dedup : Dedup edition s) (posts : s.callers p = some (call, .posting)) :
    Dedup edition ((s.markSent (call.key edition) call.now).put p call (.returned .landed)) := by
  obtain ⟨f, claimed⟩ := dedup.posts p call posts
  have marked : s.markSent (call.key edition) call.now =
      { s with
        tracker := s.tracker.markSent (call.key edition) call.now
        futures := Function.update s.futures f (some true)
        log := s.log ++ if true = true then [.landed (call.key edition)] else [] } := by
    unfold Posting.markSent
    rw [dedup.settle_futures claimed]
    rfl
  have sent : ∀ key, key ∈ (s.tracker.markSent (call.key edition) call.now).sent.keys ↔
      (true = true ∧ key = call.key edition) ∨ key ∈ s.tracker.sent.keys := by
    intro key
    simp only [true_and]
    exact Dict.mem_keys_set _ _ _ _
  rw [marked]
  exact dedup.finish posts rfl (by simp) (by simp) claimed rfl sent rfl rfl rfl rfl

theorem giveBack (dedup : Dedup edition s) (posts : s.callers p = some (call, .posting))
    {stage : CallerStage} (finished : stage.isFinished = true) (plain : stage ≠ .returned .duplicate)
    (tried : stage ≠ .returned .skipped) :
    Dedup edition ((s.release (call.key edition)).put p call stage) := by
  obtain ⟨f, claimed⟩ := dedup.posts p call posts
  have released : s.release (call.key edition) =
      { s with
        tracker := s.tracker.release (call.key edition)
        futures := Function.update s.futures f (some false)
        log := s.log ++ if false = true then [.landed (call.key edition)] else [] } := by
    unfold Posting.release
    rw [dedup.settle_futures claimed]
    simp
  have sent : ∀ key, key ∈ (s.tracker.release (call.key edition)).sent.keys ↔
      (false = true ∧ key = call.key edition) ∨ key ∈ s.tracker.sent.keys := by
    intro key
    simp only [Bool.false_eq_true, false_and, false_or]
    rfl
  rw [released]
  exact dedup.finish posts finished plain tried claimed rfl sent rfl rfl rfl rfl

end Dedup

/-- Every step keeps the invariant. -/
theorem dedup_step {edition : Edition} (l : PostLabel) {s t : Posting}
    (stepped : postStep edition l s = some t) (dedup : Dedup edition s) : Dedup edition t := by
  cases l with
  | call p call =>
      simp only [postStep] at stepped
      split_ifs at stepped with started wanted
      · cases stepped
        refine dedup.reserve fun call' posts => started ?_
        rw [posts]
        rfl
      · cases stepped
        refine dedup.put (fun call' posts => started ?_) nofun nofun nofun fun _ => ?_
        · rw [posts]
          rfl
        · exact Bool.eq_false_iff.mpr wanted
  | wake p =>
      simp only [postStep] at stepped
      split at stepped
      · rename_i call f waits
        have idle : ∀ call', s.callers p ≠ some (call', .posting) := by
          intro call' posts
          rw [waits] at posts
          cases posts
        split at stepped
        · cases stepped
        · rename_i landed
          cases stepped
          refine dedup.put idle nofun nofun (fun _ => ?_) nofun
          obtain ⟨-, claimed | ⟨result, resolved, told⟩⟩ := dedup.waits p call f waits
          · rw [(dedup.claims _ _ claimed).2.1] at landed
            cases landed
          · rw [resolved] at landed
            cases landed
            exact told rfl
        · cases stepped
          exact dedup.reserve idle
      · cases stepped
  | land p =>
      simp only [postStep] at stepped
      split at stepped
      · rename_i call posts
        cases stepped
        exact dedup.land posts
      · cases stepped
  | fail p =>
      simp only [postStep] at stepped
      split at stepped
      · rename_i call posts
        cases stepped
        exact dedup.giveBack posts rfl nofun nofun
      · cases stepped
  | cancel p =>
      simp only [postStep] at stepped
      split at stepped
      · rename_i call f waits
        cases stepped
        refine dedup.put (fun call' posts => ?_) nofun nofun nofun nofun
        rw [waits] at posts
        cases posts
      · rename_i call posts
        cases stepped
        exact dedup.giveBack posts rfl nofun nofun
      · cases stepped
  | prune now =>
      cases stepped
      exact dedup.forget _
  | retainMrids live =>
      cases stepped
      exact dedup.forget _

/-- In every run of any callers, whatever becomes of their POSTs and whoever is
cancelled: at most one POST for a key is in flight; between two that land the key
is forgotten; a caller whose response is wanted and that returns without posting
does so after a POST for its key landed; and once the callers of a key have
finished, no claim on it is left. -/
theorem dedup_protocol {edition : Edition} {s : Posting} (run : (posting edition).Run Free {} s) :
    (∀ p q call call', s.callers p = some (call, .posting) → s.callers q = some (call', .posting) →
      call.key edition = call'.key edition → p = q) ∧
    (∀ key before mid after,
      s.log = before ++ .landed key :: (mid ++ .landed key :: after) → .forgotten key ∈ mid) ∧
    (∀ p call how, s.callers p = some (call, .returned how) → call.wanted edition = true →
      how = .duplicate ∨ how = .skipped → .landed (call.key edition) ∈ s.log) ∧
    ∀ key, (∀ p call stage, s.callers p = some (call, stage) → call.key edition = key →
      stage.isFinished = true) → key ∉ s.tracker.inFlight.keys := by
  have dedup : Dedup edition s := by
    refine Run.keeps (fun l t u stepped _ kept => ?_) run Dedup.start
    exact dedup_step l stepped kept
  refine ⟨dedup.alone, dedup.once, ?_, fun key finished member => ?_⟩
  · rintro p call how returned wanted (rfl | rfl)
    · exact dedup.turned p call returned
    · rw [dedup.skipped p call returned] at wanted
      cases wanted
  · obtain ⟨f, claimed⟩ := (Dict.mem_keys_iff _ _).mp member
    obtain ⟨-, -, -, p, call, posts, own⟩ := dedup.claims key f claimed
    cases finished p call .posting posts own

/-! ### Three callers, and one without an address -/

/-- A call for one interval, asked for in full. -/
def priceCall (replyTo : Option Href) : PostCall :=
  .price ⟨1, some 7, replyTo⟩ .acknowledged "/edev/1" 0

/-- The first fails while two wait, the second takes over and is cancelled, the
third lands. -/
def threeCallers : List PostLabel :=
  [.call 0 (priceCall (some "/rsp")), .call 1 (priceCall (some "/rsp")),
    .call 2 (priceCall (some "/rsp")), .fail 0, .wake 1, .wake 2, .cancel 1, .wake 2, .land 2,
    .call 3 (priceCall (some "/rsp"))]

def threeCalled : Posting := ((posting .ed2023).exec {} threeCallers).getD {}

/-- A fourth caller is turned away, after the third one's POST landed. -/
theorem threeCalled_turned :
    threeCalled.callers 3 = some (priceCall (some "/rsp"), .returned .duplicate) ∧
      .landed ((priceCall (some "/rsp")).key .ed2023) ∈ threeCalled.log := by
  have run : (posting .ed2023).Run Free {} threeCalled := run_of_exec threeCallers rfl
  exact ⟨rfl, (dedup_protocol run).2.2.1 3 _ _ rfl (by decide) (.inl rfl)⟩

/-- The caller of a response that has nowhere to go. -/
def addressless : Posting := ((posting .ed2023).exec {} [.call 0 (priceCall none)]).getD {}

/-- It returns without posting, and no POST has landed. -/
theorem addressless_skipped :
    (posting .ed2023).Run Free {} addressless ∧
      addressless.callers 0 = some (priceCall none, .returned .skipped) ∧ addressless.log = [] :=
  ⟨run_of_exec [.call 0 (priceCall none)] rfl, rfl, rfl⟩

end Py20305
