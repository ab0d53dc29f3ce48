import Py20305.Events.Alone

/-!
EXPIRED, for events first received after their end.

A control that is over and not stored is answered EXPIRED unless something was
answered for it before, which the poll reads off the response tracker. The
tracker forgets a response after 7200 s, the server may serve the event for
longer.

`expired_only_first`: in every run of tasks one after the other whose polls find
the responses to what they are served still in the tracker, EXPIRED is posted
only for events nothing was posted for before, and once per device. The polls'
times do not enter; what `Remembered` asks of them is that no poll comes after
one that pruned the last response to an event it is served.
-/

namespace Py20305

open Coroutine Co

/-! ### Response histories -/

/-- `key` may follow `k` among the responses posted: EXPIRED follows no other code
for its event, and no EXPIRED for its device. -/
def MayFollow (k key : ResponseKey) : Prop :=
  key.code = .expired → k.mrid = key.mrid → k.code = .expired ∧ k.lfdi ≠ key.lfdi

/-- `now` adds to `old` only EXPIRED responses for events without a response. -/
def AddsRightly (old now : List ResponseKey) : Prop :=
  ∃ added, now = old ++ added ∧ added.Pairwise MayFollow ∧
    ∀ key ∈ added, key.code = .expired → ∀ k ∈ old, k.mrid ≠ key.mrid

namespace AddsRightly

variable {old now : List ResponseKey}

theorem refl (old : List ResponseKey) : AddsRightly old old := ⟨[], by simp⟩

/-- One more response, which may follow all that was posted. -/
theorem snoc {key : ResponseKey} (before : AddsRightly old now)
    (rightly : key.code = .expired → (∀ k ∈ old, k.mrid ≠ key.mrid) ∧
      ∀ k ∈ now, k.mrid = key.mrid → k.code = .expired ∧ k.lfdi ≠ key.lfdi) :
    AddsRightly old (now ++ [key]) := by
  obtain ⟨added, rfl, ordered, first⟩ := before
  refine ⟨added ++ [key], List.append_assoc _ _ _, ?_, fun k member expired => ?_⟩
  · rw [List.pairwise_append]
    refine ⟨ordered, List.pairwise_singleton _ _, fun k member key' last => ?_⟩
    rw [List.mem_singleton.mp last]
    exact fun expired => (rightly expired).2 k (List.mem_append_right _ member)
  · rcases List.mem_append.mp member with earlier | last
    · exact first k earlier expired
    · rw [List.mem_singleton.mp last] at expired ⊢
      exact (rightly expired).1

theorem other {key : ResponseKey} (before : AddsRightly old now) (code : key.code ≠ .expired) :
    AddsRightly old (now ++ [key]) := before.snoc fun expired => absurd expired code

theorem pairwise (before : AddsRightly old now) (ordered : old.Pairwise MayFollow) :
    now.Pairwise MayFollow := by
  obtain ⟨added, rfl, rest, first⟩ := before
  rw [List.pairwise_append]
  exact ⟨ordered, rest, fun k member key later expired same =>
    absurd same (first key later expired k member)⟩

end AddsRightly

/-! ### What a poll keeps until it prunes -/

/-- Since `w₀`: EXPIRED was posted rightly, what was posted is in the tracker, and
nothing was forgotten. -/
structure Expiring (w₀ w : World) : Prop where
  discovered : w.discovered = w₀.discovered
  rightly : AddsRightly w₀.posted w.posted
  tracked : ∀ k ∈ w.posted, k ∈ w₀.posted ∨ k ∈ w.responses.sent.keys
  sent : ∀ k ∈ w₀.responses.sent.keys, k ∈ w.responses.sent.keys
  stored : ∀ mrid, w.store.get? mrid = none → w₀.store.get? mrid = none

namespace Expiring

variable {w₀ w w' : World}

theorem refl (w : World) : Expiring w w :=
  ⟨rfl, .refl _, fun _ member => .inl member, fun _ member => member, fun _ absent => absent⟩

/-- A change of anything else. -/
theorem of_same (expiring : Expiring w₀ w) (discovered : w'.discovered = w.discovered)
    (posted : w'.posted = w.posted) (sent : w'.responses.sent = w.responses.sent)
    (stored : ∀ mrid, w'.store.get? mrid = none → w.store.get? mrid = none) :
    Expiring w₀ w' where
  discovered := discovered.trans expiring.discovered
  rightly := posted ▸ expiring.rightly
  tracked := by
    rw [posted, sent]
    exact expiring.tracked
  sent := by
    rw [sent]
    exact expiring.sent
  stored := fun mrid absent => expiring.stored mrid (stored mrid absent)

end Expiring

theorem expiring_exec {w₀ w : World} {c : Cmd} (allowed : c.effect ≠ .prune)
    (expiring : Expiring w₀ w) : Expiring w₀ (World.exec c w) := by
  cases c with
  | pruneStore | pruneOffsets | pruneResponses => exact absurd rfl allowed
  | upsert record =>
      refine expiring.of_same rfl rfl rfl fun mrid absent => ?_
      change (w.store.events.set _ _).get? mrid = none at absent
      rw [Dict.get?_set] at absent
      split at absent
      · cases absent
      · exact absent
  | spawn r devices =>
      have frame := spawned w.toCore r devices
      refine expiring.of_same frame.discovered rfl (congrArg _ frame.responses) fun mrid absent => ?_
      change (devices.foldl (fun w d => w.spawnChild r d) w.toCore).store.get? mrid = none at absent
      rwa [frame.store] at absent
  | _ => exact expiring.of_same rfl rfl rfl fun _ => id

/-- What an answer does to the responses. -/
theorem answered_cases (w : World) (r : Request) (a : r.Answer) :
    ∃ responses posted, w.answered r a = { w with responses := responses, posted := posted } ∧
      ((posted = w.posted ∧ responses.sent = w.responses.sent) ∨
        ∃ key at_, r = .post key at_ ∧ posted = w.posted ++ [key] ∧
          responses.sent = w.responses.sent.set key at_) := by
  unfold World.answered World.reply
  split
  · exact ⟨w.responses, w.posted, rfl, .inl ⟨rfl, rfl⟩⟩
  · cases r with
    | post key at_ =>
        cases a with
        | false => exact ⟨_, _, rfl, .inl ⟨rfl, rfl⟩⟩
        | true => exact ⟨_, _, rfl, .inr ⟨key, at_, rfl, rfl, rfl⟩⟩
    | stateReady | settled | join =>
        simp only [Core.reply]
        split_ifs <;> exact ⟨_, _, rfl, .inl ⟨rfl, rfl⟩⟩
    | _ => exact ⟨_, _, rfl, .inl ⟨rfl, rfl⟩⟩

theorem expiring_answered {w₀ w : World} {r : Request} (a : r.Answer)
    (allowed : ∀ key at_, r = .post key at_ → key.code ≠ .expired) (expiring : Expiring w₀ w) :
    Expiring w₀ (w.answered r a) := by
  obtain ⟨responses, posted, answered, same | ⟨key, at_, rfl, added, sent⟩⟩ := answered_cases w r a
  · rw [answered]
    exact expiring.of_same rfl same.1 same.2 fun _ => id
  · rw [answered]
    refine ⟨expiring.discovered, ?_, fun k member => ?_, fun k member => ?_, expiring.stored⟩
    · change AddsRightly w₀.posted posted
      rw [added]
      exact expiring.rightly.other (allowed key at_ rfl)
    · change k ∈ posted at member
      change _ ∨ k ∈ responses.sent.keys
      rw [added, List.mem_append, List.mem_singleton] at member
      rw [sent, Dict.mem_keys_set]
      rcases member with before | rfl
      · exact (expiring.tracked k before).imp_right .inr
      · exact .inr (.inl rfl)
    · change k ∈ responses.sent.keys
      rw [sent, Dict.mem_keys_set]
      exact .inr (expiring.sent k member)

/-! ### Everything that posts no EXPIRED -/

/-- The program prunes nothing and posts no EXPIRED. -/
def Plainly {α : Type} (m : Proc α) : Prop :=
  m.Only (fun c : Cmd => c.effect ≠ .prune)
    (fun r : Request => ∀ key at_, r = .post key at_ → key.code ≠ .expired) True

theorem plainly_within {α : Type} {m : Proc α} {es : List Effect} {ws : List Await} {E : Prop}
    (within : Within m es ws E) (effects : Effect.prune ∉ es) (waits : Await.post ∉ ws) :
    Plainly m := by
  refine Only.mono within (fun c listed prunes => effects (prunes ▸ listed)) ?_ fun _ => trivial
  rintro r listed key at_ rfl
  exact absurd listed waits

theorem plainly_respondFor (derc : Dercontrol) {code : ResponseCode} (lfdi : Lfdi)
    (other : code ≠ .expired) : Plainly (respondFor derc code lfdi) := by
  refine Only.mono (respondFor_only derc code lfdi) ?_ ?_ False.elim
  · intro c claims
    rw [claims]
    decide
  · intro r posts key at_ same
    obtain ⟨edition, rfl⟩ := posts key at_ same
    change resolveWireCode edition derc code ≠ .expired
    rcases resolveWireCode_cases edition derc code with wire | wire | wire <;> rw [wire]
    · exact other
    all_goals decide

theorem plainly_composes : Composes (.issue :: .control :: .spawn :: settling) Plainly where
  carries := by decide
  bind := Only.bind
  get := fun rest w => rest w
  quiet := fun within => plainly_within within (by decide) (by decide)
  respond := fun _ other derc lfdi => plainly_respondFor derc lfdi other
  fallback := fun r clear => plainly_within (applyDdercFallback_within r clear) (by decide) (by decide)
  initial := fun p => plainly_within (applyInitialDderc_within p) (by decide) (by decide)

theorem plainly_respondOutcome (r : Ref) (d : Href) (failure : Option DispatchFailure) :
    Plainly (respondOutcome r d failure) := by
  have posts : ∀ derc {code : ResponseCode}, code ≠ .expired →
      Plainly (postResponseForDevices derc code [d]) :=
    fun derc _ other => plainly_composes.postResponseForDevices
      (fun derc lfdi => plainly_respondFor derc lfdi other) derc [d]
  cases failure with
  | none =>
      refine plainly_composes.bind ⟨by simp [Cmd.effect], trivial⟩ fun _ => ?_
      exact plainly_composes.get fun w => posts _ (by decide)
  | some f =>
      refine plainly_composes.bind ⟨by simp [Cmd.effect], trivial⟩ fun _ => ?_
      refine plainly_composes.get fun w => ?_
      refine plainly_composes.bind ⟨by simp [Cmd.effect], trivial⟩ fun _ => ?_
      exact posts _ (by cases f <;> decide)

theorem plainly_dispatchAndReport (r : Ref) (d : Href) : Plainly (dispatchAndReport r d) := by
  refine plainly_composes.get fun w => ?_
  refine plainly_composes.bind ⟨by simp [Cmd.effect, Call.isControl], trivial⟩ fun _ => ?_
  refine plainly_composes.bind ⟨by simp, fun _ => trivial⟩ fun failure => ?_
  refine plainly_composes.bind (plainly_respondOutcome r d failure) fun _ => ?_
  exact ⟨by simp [Cmd.effect], trivial⟩

theorem plainly_apply (r : Ref) : Plainly (applyAndRespond r) := by
  have posts : ∀ derc p exclude, Plainly (postResponse derc .active p exclude) :=
    plainly_composes.postResponse fun derc lfdi => plainly_respondFor derc lfdi (by decide)
  refine plainly_composes.get fun w => ?_
  dsimp only
  split
  · exact posts _ _ _
  · refine plainly_composes.bind (plainly_composes.forEach fun d => ?_) fun _ => ?_
    · exact ⟨by simp [Cmd.effect], trivial⟩
    · split
      · refine plainly_composes.get fun w' => plainly_composes.bind ?_ fun results => ?_
        · exact plainly_within (gatherCalls_within _) (by decide) (by decide)
        · exact plainly_composes.forEach fun d => plainly_respondOutcome r d _
      · refine plainly_composes.bind ⟨by simp [Cmd.effect], trivial⟩ fun _ => ?_
        exact ⟨by simp, fun _ => trivial⟩

section Plain

theorem plainly_transition (mrid : Mrid) (st : EventState) : Plainly (transition mrid st) :=
  plainly_within (transition_within mrid st) (by decide) (by decide)

theorem plainly_supersede (map : ProgramDevices) (result : SupersessionResult) :
    Plainly (supersede map result) :=
  plainly_composes.supersedeSilent (by decide) map result

theorem plainly_lateDiscovery (r : Ref) : Plainly (handleLateDiscovery r) :=
  plainly_composes.handleLateDiscovery plainly_supersede (plainly_apply r)

theorem plainly_job {j : Job} (noPoll : ∀ p room, j ≠ .processControls p room) :
    Plainly j.body := by
  have ending : ∀ mrid st, st.isTerminal = true → Plainly (transition mrid st) :=
    fun mrid st _ => plainly_transition mrid st
  cases j with
  | processControls p room => exact absurd rfl (noPoll p room)
  | cancelProgram p => exact plainly_composes.cancelProgram ending p
  | enterCommsLoss => exact plainly_composes.enterCommsLoss
  | shutdown => exact plainly_composes.perform (by decide)
  | timer callback r =>
      refine plainly_composes.fireTimer ending callback ?_
      exact plainly_composes.onActivation (fun mrid => plainly_transition mrid .active)
        plainly_supersede (plainly_apply r)
  | dispatchAndReport r d => exact plainly_dispatchAndReport r d

end Plain

/-- Alone, such a program keeps what a poll keeps until it prunes. -/
theorem keeps_plainly {env : Answers} {w₀ : World} {α : Type} {m : Proc α} (plainly : Plainly m) :
    Keeps env (Expiring w₀) m := by
  have leaf : ∀ (r : Request) (w : World),
      (∀ key at_, r = .post key at_ → key.code ≠ .expired) → Expiring w₀ w →
      Expiring w₀ (World.leafOracle env r w).2 := by
    intro r w allowed expiring
    cases r with
    | join => exact expiring
    | _ => exact expiring_answered _ allowed expiring
  intro w expiring
  refine Co.eval_keeps (World.oracle env) (Expiring w₀)
    (fun c v allowed h => expiring_exec allowed h) (fun r v allowed h => ?_) plainly expiring
  cases r with
  | join =>
      obtain ⟨v', ran, kept, -⟩ := runChildren_induct env v.current (fun _ u => Expiring w₀ u)
        (fun pid r d rest u before => Co.eval_keeps (World.leafOracle env) (Expiring w₀)
          (fun c t allowed h' => expiring_exec allowed h') (fun r t allowed h' => leaf r t allowed h')
          (plainly_dispatchAndReport r d) (before.of_same rfl rfl rfl fun _ => id)) h
      change Expiring w₀ (World.runChildren env v.current v)
      rw [ran]
      exact kept.of_same rfl rfl rfl fun _ => id
  | _ => exact leaf _ v allowed h

/-! ### Posting EXPIRED -/

/-- Only a key that is not in the tracker is to be posted. -/
theorem eval_reserve (env : Answers) (key : ResponseKey) (w : World) :
    ∃ claims responses, (reserve key).eval (World.oracle env) w =
        (some claims, { w with responses := responses }) ∧
      responses.sent = w.responses.sent ∧ (claims = true → key ∉ w.responses.sent.keys) := by
  by_cases sent : key ∈ w.responses.sent.keys
  · refine ⟨false, w.responses, ?_, rfl, nofun⟩
    change Co.eval (World.oracle env) (if key ∈ w.responses.sent.keys then _ else _) w = _
    rw [if_pos sent]
    rfl
  · by_cases flight : key ∈ w.responses.inFlight.keys
    · obtain ⟨responses, posted, answered, same | ⟨_, _, other, -⟩⟩ :=
        answered_cases w (.settled key) (decide (key ∉ w.responses.sent.keys))
      · refine ⟨decide (key ∉ w.responses.sent.keys), responses, ?_, same.2, fun _ => sent⟩
        change Co.eval (World.oracle env) (if key ∈ w.responses.sent.keys then _ else if _ then _ else _) w = _
        rw [if_neg sent, if_pos flight]
        change (_, w.answered (.settled key) _) = _
        rw [answered, same.1]
        rfl
      · cases other
    · refine ⟨true, w.responses.claim key w.current, ?_, rfl, fun _ => sent⟩
      change Co.eval (World.oracle env) (if key ∈ w.responses.sent.keys then _ else if _ then _ else _) w = _
      rw [if_neg sent, if_neg flight]
      rfl

/-- A response that is posted was not in the tracker, and is put there. -/
theorem eval_postDerResponse (env : Answers) (derc : Dercontrol) (code : ResponseCode) (lfdi : Lfdi)
    (now : Int) (w : World) :
    ∃ responses posted, (postDerResponse derc code lfdi now).eval (World.oracle env) w =
        (some (), { w with responses := responses, posted := posted }) ∧
      ((posted = w.posted ∧ responses.sent = w.responses.sent) ∨
        ∃ key at_, key = ⟨derc.mrid, resolveWireCode w.settings.edition derc code, lfdi⟩ ∧
          key ∉ w.responses.sent.keys ∧ posted = w.posted ++ [key] ∧
          responses.sent = w.responses.sent.set key at_) := by
  unfold postDerResponse
  rw [Co.bind_eq, getWorld_bind, Co.eval]
  dsimp only
  split
  · exact ⟨w.responses, w.posted, rfl, .inl ⟨rfl, rfl⟩⟩
  · split
    · exact ⟨w.responses, w.posted, rfl, .inl ⟨rfl, rfl⟩⟩
    · rw [Co.bind_eq, Co.eval_bind]
      obtain ⟨claims, responses, reserved, sent, absent⟩ := eval_reserve env
        ⟨derc.mrid, resolveWireCode w.settings.edition derc code, lfdi⟩ w
      rw [reserved]
      cases claims with
      | false => exact ⟨responses, w.posted, rfl, .inl ⟨rfl, sent⟩⟩
      | true =>
          obtain ⟨after, posted, answered, same | ⟨key, at_, posts, added, kept⟩⟩ := answered_cases
            { w with responses := responses }
            (.post ⟨derc.mrid, resolveWireCode w.settings.edition derc code, lfdi⟩ now)
            (env.landed ⟨derc.mrid, resolveWireCode w.settings.edition derc code, lfdi⟩)
          · refine ⟨after, posted, congrArg _ answered, .inl ⟨same.1, same.2.trans sent⟩⟩
          · cases posts
            refine ⟨after, posted, congrArg _ answered, .inr ⟨_, now, rfl, absent rfl, added, ?_⟩⟩
            rw [kept, sent]

/-- Before `w₀` there was no response for the event, and since then only EXPIRED
ones, all in the tracker. -/
structure Announcing (w₀ : World) (mrid : Mrid) (w : World) : Prop extends Expiring w₀ w where
  unheard : ∀ k ∈ w₀.posted, k.mrid ≠ mrid
  only : ∀ k ∈ w.posted, k.mrid = mrid → k.code = .expired ∧ k ∈ w.responses.sent.keys

theorem resolveWireCode_expired (edition : Edition) (derc : Dercontrol) :
    resolveWireCode edition derc .expired = .expired := by
  cases edition <;> simp [resolveWireCode, Edition.wireResponseCode]

/-- One more EXPIRED, for a device that had none. -/
theorem Announcing.posted {w₀ w w' : World} {mrid : Mrid} {lfdi : Lfdi} {key : ResponseKey}
    {at_ : Int} (h : Announcing w₀ mrid w) (made : key = ⟨mrid, .expired, lfdi⟩)
    (absent : key ∉ w.responses.sent.keys) (added : w'.posted = w.posted ++ [key])
    (sent : w'.responses.sent = w.responses.sent.set key at_)
    (discovered : w'.discovered = w.discovered) (store : w'.store = w.store) :
    Announcing w₀ mrid w' := by
  have keys : ∀ k, k ∈ w'.responses.sent.keys ↔ k = key ∨ k ∈ w.responses.sent.keys := by
    intro k
    rw [sent, Dict.mem_keys_set]
  have posted : ∀ k, k ∈ w'.posted ↔ k ∈ w.posted ∨ k = key := by
    intro k
    rw [added, List.mem_append, List.mem_singleton]
  have apart : ∀ k ∈ w.posted, k.mrid = mrid → k.code = .expired ∧ k.lfdi ≠ lfdi := by
    intro k member same
    obtain ⟨expired, known⟩ := h.only k member same
    refine ⟨expired, fun device => absent ?_⟩
    rw [made, ← same, ← expired, ← device]
    exact known
  refine ⟨⟨discovered.trans h.discovered, ?_, fun k member => ?_, fun k member => ?_, ?_⟩,
    h.unheard, fun k member same => ?_⟩
  · rw [added]
    refine h.rightly.snoc fun _ => ?_
    rw [made]
    exact ⟨h.unheard, apart⟩
  · rw [keys]
    rcases (posted k).mp member with before | new
    · exact (h.tracked k before).imp_right .inr
    · exact .inr (.inl new)
  · rw [keys]
    exact .inr (h.sent k member)
  · rw [store]
    exact h.stored
  · rw [keys]
    rcases (posted k).mp member with before | new
    · exact (h.only k before same).imp_right .inr
    · exact ⟨by rw [new, made], .inl new⟩

theorem announcing_respondFor {env : Answers} {w₀ : World} (derc : Dercontrol) (lfdi : Lfdi) :
    Keeps env (Announcing w₀ derc.mrid) (respondFor derc .expired lfdi) := by
  have asked : ∀ w v : World, v.posted = w.posted → v.responses.sent = w.responses.sent →
      v.discovered = w.discovered → v.store = w.store → Announcing w₀ derc.mrid w →
      Announcing w₀ derc.mrid v := by
    intro w v posted sent discovered store h
    refine ⟨h.toExpiring.of_same discovered posted sent fun _ absent => store ▸ absent, h.unheard, ?_⟩
    rw [posted, sent]
    exact h.only
  refine Keeps.get fun w holds => ?_
  refine Keeps.bind (P := Announcing w₀ derc.mrid) ?_ (fun _ v h => ?_) w holds
  · intro v h
    change Announcing w₀ derc.mrid (Co.eval (World.oracle env) (onlyIf _ _) v).2
    unfold onlyIf
    split
    · obtain ⟨responses, posted, answered, same | ⟨_, _, other, -⟩⟩ :=
        answered_cases v (.supportedModes2 lfdi) ()
      · change Announcing w₀ derc.mrid (v.answered (.supportedModes2 lfdi) ())
        rw [answered]
        exact asked v _ same.1 same.2 rfl rfl h
      · cases other
    · exact h
  · obtain ⟨responses, posted, done, same | ⟨key, at_, made, absent, added, sent⟩⟩ :=
      eval_postDerResponse env derc .expired lfdi (w.clock none) v
    · rw [done]
      exact asked v _ same.1 same.2 rfl rfl h
    · rw [done]
      rw [resolveWireCode_expired] at made
      exact h.posted made absent added sent rfl rfl

theorem announcing_postResponse {env : Answers} {w₀ : World} (derc : Dercontrol) (p : Href) :
    Keeps env (Announcing w₀ derc.mrid) (postResponse derc .expired p []) := by
  have device : ∀ d, Keeps env (Announcing w₀ derc.mrid) (respondForDevice derc .expired d) := by
    refine fun d => Keeps.get fun w holds => ?_
    split
    · exact holds
    · exact announcing_respondFor derc _ w holds
  refine Keeps.get fun w holds => ?_
  dsimp only
  split
  · split
    · exact holds
    · split
      · exact holds
      · exact announcing_respondFor derc _ w holds
  · refine Keeps.forEach (fun d _ => ?_) w holds
    split
    · exact fun _ h => h
    · exact device d

/-! ### The control poll -/

/-- If something was posted for the control's event, which is not stored, the
tracker still knows of it. -/
def Heard (w : World) (c : Dercontrol) : Prop :=
  w.store.get? c.mrid = none → (∃ k ∈ w.posted, k.mrid = c.mrid) →
    w.responses.hasResponded c.mrid = true

/-- Whatever a poll is served and has answered before is in the tracker. -/
def Remembered (w : World) (_ : Answers) : Job → Prop
  | .processControls p _ => ∀ ps, w.discovered.derPrograms.get? p = some ps →
      ∀ c ∈ ps.derControls, Heard w c
  | _ => True

/-- Where the tracker knows no response to a control, there was none. -/
theorem Expiring.announcing {w₀ w : World} {derc : Dercontrol} (expiring : Expiring w₀ w)
    (heard : Heard w₀ derc) (absent : w.store.get? derc.mrid = none)
    (silent_ : ¬ w.responses.hasResponded derc.mrid = true) : Announcing w₀ derc.mrid w := by
  have untracked : ∀ k ∈ w.responses.sent.keys, k.mrid ≠ derc.mrid := by
    intro k member same
    apply silent_
    simp only [ResponseTracker.hasResponded, List.any_eq_true, decide_eq_true_eq]
    exact ⟨k, member, same⟩
  have before : ∀ k ∈ w₀.posted, k.mrid ≠ derc.mrid := by
    intro k member same
    have known := heard (expiring.stored _ absent) ⟨k, member, same⟩
    simp only [ResponseTracker.hasResponded, List.any_eq_true, decide_eq_true_eq] at known
    obtain ⟨k', listed, same'⟩ := known
    exact untracked k' (expiring.sent k' listed) same'
  refine ⟨expiring, before, fun k member same => ?_⟩
  rcases expiring.tracked k member with old | new
  · exact absurd same (before k old)
  · exact absurd same (untracked k new)

section Poll

variable {env : Answers} {w₀ : World}

theorem expiring_newControl (p : Href) (primacy : Nat) (now : Int) {derc : Dercontrol}
    (start duration : Int) (heard : Heard w₀ derc) {w : World} (expiring : Expiring w₀ w)
    (absent : w.store.get? derc.mrid = none) :
    Expiring w₀ ((newControl p primacy now derc start duration).eval (World.oracle env) w).2 := by
  unfold newControl
  rw [Co.bind_eq, getWorld_bind, Co.eval]
  split
  · exact expiring
  · split
    · split
      · exact expiring
      · rename_i silent_
        have announced := expiring.announcing heard absent silent_
        refine Announcing.toExpiring (Keeps.bind (announcing_postResponse derc p) (fun _ => ?_) w
          announced)
        exact Keeps.get fun _ h => h
    · exact keeps_plainly (plainly_composes.storeNew (by decide) plainly_lateDiscovery _ _ _) w
        expiring

theorem keeps_processControl_expiring (p : Href) (primacy : Nat) (now : Int) {derc : Dercontrol}
    (heard : Heard w₀ derc) : Keeps env (Expiring w₀) (processControl p primacy now derc) := by
  have offsets := plainly_within (effectiveOffsets_within p derc) (by decide) (by decide)
  refine Keeps.bind (keeps_plainly offsets) fun drawn => Keeps.get fun w expiring => ?_
  cases found : w.store.get? derc.mrid with
  | none => exact expiring_newControl p primacy now _ _ heard expiring found
  | some r => exact keeps_plainly (plainly_composes.knownControl (by decide) r derc) w expiring

/-- What is left of it once the poll has pruned. -/
def EndsRightly (w₀ w : World) : Prop := w.discovered = w₀.discovered ∧ AddsRightly w₀.posted w.posted

theorem Expiring.ended {w : World} (expiring : Expiring w₀ w) : EndsRightly w₀ w :=
  ⟨expiring.discovered, expiring.rightly⟩

theorem ended_finishPoll (p : Href) (now : Int) {w : World} (expiring : Expiring w₀ w) :
    EndsRightly w₀ ((finishPoll p now).eval (World.oracle env) w).2 := by
  have superseded := plainly_composes.runSupersession plainly_supersede
  refine Keeps.seq (keeps_plainly superseded) (fun _ => Expiring.ended) (fun _ v kept => ?_) w
    expiring
  -- Pruning and the default post nothing.
  have rest : Within (unlessClosed do
      perform (.pruneStore now)
      perform (.pruneOffsets now)
      perform (.pruneResponses now)
      applyInitialDderc p) [.prune, .issue, .recordDefault] [.gather] := by
    refine Within.unlessClosed (Within.bind (Within.perform (by simp [Cmd.effect])) fun _ => ?_)
    refine Within.bind (Within.perform (by simp [Cmd.effect])) fun _ => ?_
    refine Within.bind (Within.perform (by simp [Cmd.effect])) fun _ => ?_
    exact (applyInitialDderc_within p).mono (by decide) (by decide)
  refine Co.eval_keeps (World.oracle env) (EndsRightly w₀) (fun c u listed h => ?_)
    (fun r u listed h => ?_) rest kept.ended
  · cases c with
    | spawn => simp [Cmd.effect] at listed
    | _ => exact h
  · cases r with
    | gather calls =>
        rw [oracle_gather]
        exact h
    | _ => simp [Request.kind] at listed

/-- A poll. -/
theorem ended_poll {w : World} {p : Href} (room : Nat) (named : w₀.discovered.Named)
    (remembered : Remembered w₀ env (.processControls p room)) (expiring : Expiring w₀ w) :
    EndsRightly w₀ ((processControls p room).eval (World.oracle env) w).2 := by
  have served : ∀ v, Expiring w₀ v → ∀ q ps, q = p →
      v.discovered.derPrograms.get? q = some ps →
      ps.href = p ∧ ∀ c ∈ ps.derControls, Heard w₀ c ∧ Heard w₀ c := by
    rintro v h q ps rfl found
    rw [h.discovered] at found
    refine ⟨named q ps found, fun c member => ?_⟩
    have heard := remembered ps found c member
    exact ⟨heard, heard⟩
  have ending : ∀ mrid st, st.isTerminal = true → Plainly (transition mrid st) :=
    fun mrid st _ => plainly_transition mrid st
  refine Keeps.processControls served room rfl
    (fun q primacy derc _ heard => keeps_processControl_expiring q primacy _ heard)
    (fun ps epoch => keeps_plainly ?_) (fun _ => Expiring.ended)
    (fun v kept => ended_finishPoll p _ kept) expiring
  exact plainly_composes.reconcileServed ending (plainly_composes.hold (by decide)) ps epoch _

end Poll

/-! ### Runs -/

/-- One task. -/
theorem ended_alone {env : Answers} {w w' : World} {pid : Pid} {j : Job}
    (named : w.discovered.Named) (remembered : Remembered w env j)
    (ran : w.alone env pid j = some w') : EndsRightly w w' := by
  obtain ⟨begun, starts, rfl⟩ := Option.map_eq_some_iff.mp ran
  have started : Expiring w begun := by
    obtain ⟨_, _, _, rfl⟩ := begins_spec starts
    exact (Expiring.refl w).of_same rfl rfl rfl fun _ => id
  by_cases poll : ∃ p room, j = .processControls p room
  · obtain ⟨p, room, rfl⟩ := poll
    exact ended_poll room named remembered started
  · refine Expiring.ended (keeps_plainly (plainly_job fun p room same => ?_) begun started)
    exact poll ⟨p, room, same⟩

/-- Every program is served under its own path. -/
def StaysNamed (w : World) (e : Ext) : Prop := (e.apply w.toCore).discovered.Named

/-- In every run of tasks one after the other whose polls find the responses to
what they are served still in the tracker: EXPIRED is posted once per event and
device and follows no other code for its event, and a task posts EXPIRED only for
events nothing was posted for before. -/
theorem expired_only_first {core : Core} {w : World} (named : core.discovered.Named)
    (run : Turns Remembered StaysNamed { toCore := core } w) :
    w.posted.Pairwise MayFollow ∧
      ∀ env pid j w', Remembered w env j → w.alone env pid j = some w' →
        ∃ added, w'.posted = w.posted ++ added ∧
          ∀ key ∈ added, key.code = .expired → ∀ k ∈ w.posted, k.mrid ≠ key.mrid := by
  have reached : w.discovered.Named ∧ w.posted.Pairwise MayFollow := by
    induction run with
    | refl => exact ⟨named, List.Pairwise.nil⟩
    | job env pid j _ remembered ran ih =>
        have ended := ended_alone ih.1 remembered ran
        exact ⟨ended.1 ▸ ih.1, ended.2.pairwise ih.2⟩
    | ext e _ still ih => exact ⟨still, ih.2⟩
  refine ⟨reached.2, fun env pid j w' remembered ran => ?_⟩
  obtain ⟨added, grown, -, first⟩ := (ended_alone reached.1 remembered ran).2
  exact ⟨added, grown, first⟩

/-! ### An event that is served for two hours after its end -/

/-- A program on one device with an event from 0 to 10, met at time 100. -/
def overCore : Core :=
  { plainCore [plainProgram "/derp/1" 1 [plainControl 1 0 10 .opModFixedW]]
      [("/derp/1", "/edev/1")] with
    clock := fun _ => 100
    localClock := 100 }

def overAnswered : World := World.polled "/derp/1" { toCore := overCore }

/-- Two hours later a poll prunes the response, and the next one posts it
again. -/
def overPruned : World := World.polled "/derp/1" (overAnswered.atTime 7301)

def overAgain : World := World.polled "/derp/1" overPruned

theorem overCore_named : overCore.discovered.Named := by
  intro p ps found
  have found : (if "/derp/1" = p then
    some (plainProgram "/derp/1" 1 [plainControl 1 0 10 .opModFixedW]) else none) = some ps := found
  split_ifs at found with same
  cases found
  exact same

theorem overCore_served {ps : DerProgramState} {c : Dercontrol}
    (found : overCore.discovered.derPrograms.get? "/derp/1" = some ps)
    (member : c ∈ ps.derControls) : c = plainControl 1 0 10 .opModFixedW := by
  have found : some (plainProgram "/derp/1" 1 [plainControl 1 0 10 .opModFixedW]) = some ps := found
  cases found
  exact List.mem_singleton.mp member

/-- The first poll answers EXPIRED, and one a hundred seconds later, which meets
the event again, finds the response and does not. -/
theorem overAnswered_once :
    overAnswered.posted = [⟨1, .expired, "/edev/1"⟩] ∧
      overAnswered.responses.hasResponded 1 = true ∧
      (World.polled "/derp/1" (overAnswered.atTime 200)).posted = [⟨1, .expired, "/edev/1"⟩] ∧
      (World.polled "/derp/1" (overAnswered.atTime 200)).posted.Pairwise MayFollow := by
  have first : Turns Remembered StaysNamed { toCore := overCore } overAnswered := by
    refine Turns.polled (.refl _) ?_
    rintro ps - c - - ⟨k, member, -⟩
    exact absurd member List.not_mem_nil
  have later : Turns Remembered StaysNamed { toCore := overCore } (overAnswered.atTime 200) :=
    first.atTime overCore_named
  refine ⟨by decide, by decide, by decide +kernel,
    (expired_only_first overCore_named (later.polled ?_)).1⟩
  intro ps found c member absent _
  rw [overCore_served found member]
  decide

/-- With clocks that do not go back, EXPIRED is posted twice for one device. -/
theorem overAgain_twice :
    Turns (fun _ _ _ => True) Ahead { toCore := overCore } overAgain ∧
      overAgain.posted = [⟨1, .expired, "/edev/1"⟩, ⟨1, .expired, "/edev/1"⟩] := by
  refine ⟨?_, by decide +kernel⟩
  have answered : Turns (fun _ _ _ => True) Ahead { toCore := overCore } overAnswered :=
    Turns.polled (.refl _) trivial
  have later : Turns (fun _ _ _ => True) Ahead { toCore := overCore } (overAnswered.atTime 7301) := by
    refine answered.atTime fun s => ?_
    change (100 : Int) ≤ 7301
    decide
  exact (later.polled trivial).polled trivial

end Py20305
