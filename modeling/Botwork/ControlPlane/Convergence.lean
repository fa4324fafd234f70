import Botwork.ControlPlane.Rollback

/-!
# Convergence of an ADS stream

Every acknowledgement is a listener request, and a listener request that names
another version than the current generation is answered by a push.  Once the
store is left alone a push carries the current generation, so its
acknowledgement is answered by nothing and the stream comes to rest.
`no_ack_storm` bounds what the stream still sends and does by the messages in
flight, and says what envoy holds at rest: the listener of the final table, when
something was owed to it or it held that listener already.  A push that envoy has
rejected is not sent again (`rejected_push_is_not_repeated`).

## Main definitions

- `Listening`, `listening` — the system and the listener each envoy holds
- `Quiet` — steps that leave the store and the requests of one envoy alone
- `AdsStream.AtRest` — nothing left to do for a stream
- `Due` — a stream owes envoy the listener, or envoy holds it
- `NoAckStorm` — the property
-/

namespace Botwork.ControlPlane

open Botwork.Foundations

-- ════════════════════════════════════════════════════════════════════════
-- What envoys hold
-- ════════════════════════════════════════════════════════════════════════

/-- The system and, for each envoy, the push of this process it applied last. -/
structure Listening where
  system : System
  held : Nat → Option LdsPush

/-- The envoy that applies a listener, and the push it applies. -/
def System.applied (s : System) : Action → Option (Nat × LdsPush)
  | .accept i => do
    let st ← s.streams.lookup i
    let .listener _ push :: _ := st.outbound | none
    return (st.envoy, push)
  | _ => none

def listening (state : AppState) : Machine Listening Action where
  Start w := w.system.Start ∧ ∀ envoy, w.held envoy = none
  next w a := (w.system.next state a).map fun s =>
    { system := s,
      held := match w.system.applied a with
        | some (envoy, push) => Function.update w.held envoy (some push)
        | none => w.held }

/-- A handler that has changed the table and not bumped the generation. -/
def HandlerPc.isUnbumped : HandlerPc → Bool
  | .bump _ | .rollbackBump _ _ => true
  | _ => false

/-- No handler stands between its change of the table and its bump. -/
def System.Bumped (s : System) : Prop := s.handlers.all (fun _ pc => !pc.isUnbumped) = true

instance (s : System) : Decidable s.Bumped := inferInstanceAs (Decidable (_ = true))

/-- The generation counter does not wrap. -/
def NoWrap (w : Listening) : Action → Prop
  | .handler h => (w.system.handlers.lookup h).any HandlerPc.isUnbumped = true →
    w.system.store.generation + 1 < 2 ^ 64
  | _ => True

instance (w : Listening) : (a : Action) → Decidable (NoWrap w a)
  | .handler _ => inferInstanceAs (Decidable (_ → _))
  | .post _ _ | .delete _ _ | .expire _ | .connect _ _ | .disconnect _ | .receive _ | .tick _
  | .stream _ | .subscribe _ _ | .accept _ | .reject _ _ => isTrue trivial

-- ════════════════════════════════════════════════════════════════════════
-- Quiet runs
-- ════════════════════════════════════════════════════════════════════════

/-- The handler's next access changes the table or the generation. -/
def HandlerPc.isMutating : HandlerPc → Bool
  | .bump _ | .rollback _ _ | .rollbackBump _ _ => true
  | _ => false

/-- The steps of stream `i` and its envoy: requests, ticks, pushes and their
    acknowledgements. -/
def OnStream (i : Nat) : Action → Bool
  | .receive j | .tick j | .stream j | .accept j => j = i
  | _ => false

/-- The stream of index `j` belongs to the envoy of stream `i`. -/
def System.sharesEnvoy (s : System) (i j : Nat) : Bool :=
  match s.streams.lookup i, s.streams.lookup j with
  | some st, some st' => st.envoy = st'.envoy
  | _, _ => false

/-- The store is no longer mutated, and the envoy of stream `i` does nothing but
    acknowledge the responses of the stream. -/
def Quiet (i : Nat) (w : Listening) : Action → Prop
  | .post _ body => (HandlerPc.post w.system.store body).2.mutation = none
  | .delete _ id => (HandlerPc.delete w.system.store id).2.mutation = none
  | .handler h => (w.system.handlers.lookup h).any HandlerPc.isMutating = false
  | .subscribe j _ | .reject j _ | .disconnect j => j ≠ i
  | .accept j => j = i ∨ w.system.sharesEnvoy i j = false
  | _ => True

instance (i : Nat) (w : Listening) : (a : Action) → Decidable (Quiet i w a)
  | .post _ _ | .delete _ _ | .handler _ => inferInstanceAs (Decidable (_ = _))
  | .subscribe j _ | .reject j _ | .disconnect j => inferInstanceAs (Decidable (j ≠ i))
  | .accept _ => inferInstanceAs (Decidable (_ ∨ _))
  | .expire _ | .connect _ _ | .receive _ | .tick _ | .stream _ => isTrue trivial

/-- Nothing is in flight and every generation has been observed. -/
def AdsStream.AtRest (st : AdsStream) (generation : Nat) : Prop :=
  st.pc = .select ∧ st.inbound = [] ∧ st.outbound = [] ∧ st.seen = generation

/-- The request is answered by a push. -/
def DiscoveryRequest.asks (generation : Nat) (req : DiscoveryRequest) : Bool :=
  req.errorDetail.isNone && decide (req.typeUrl = .listener) &&
    decide (req.envoyHas ≠ some generation)

def DiscoveryResponse.isListener : DiscoveryResponse → Bool
  | .listener _ _ => true
  | .cluster _ => false

/-- The task is about to push. -/
def StreamPc.owes (generation : Nat) : StreamPc → Bool
  | .opened | .select => false
  | .compare envoyHas => decide (envoyHas ≠ some generation)
  | .snapshot _ | .yield _ => true

/-- Envoy is owed a listener or holds the current one: a generation is not yet
    observed, a push is under way or in flight, a request in flight asks for one,
    or the listener envoy holds was pushed under the current generation. -/
def AdsStream.Due (st : AdsStream) (generation : Nat) (held : Option LdsPush) : Prop :=
  st.pc ≠ .opened ∧ st.seen ≠ generation ∨
    st.pc.owes generation = true ∨
    (∃ req ∈ st.inbound, req.asks generation = true) ∨
    (∃ response ∈ st.outbound, response.isListener = true) ∨
    ∃ push, held = some push ∧ push.version = generation

def Due (w : Listening) (st : AdsStream) : Prop :=
  st.Due w.system.store.generation (w.held st.envoy)

-- ════════════════════════════════════════════════════════════════════════
-- The property
-- ════════════════════════════════════════════════════════════════════════

/-- What is true of stream `i` after a quiet run: `st` and `st'` are the stream
    before and after it, `steps` the steps the stream has taken. -/
structure Calm (state : AppState) (i : Nat) (due : Prop) (st : AdsStream) (steps : Nat)
    (w : Listening) (st' : AdsStream) : Prop where
  responses : st'.nonceCounter ≤ st.nonceCounter + st.inbound.length + st.outbound.length + 4
  steps : steps ≤ 8 * (st.inbound.length + st.outbound.length) + 20
  progress : st'.AtRest w.system.store.generation ∨
    ∃ a, OnStream i a = true ∧ Quiet i w a ∧ ((listening state).next w a).isSome = true
  settled : due → st'.AtRest w.system.store.generation →
    ∃ push, w.held st'.envoy = some push ∧ push.snapshot = w.system.store.list

/-- However the run goes on from `w` once the store is left alone and envoy
    acknowledges what it gets, stream `i` calms down. -/
def NoAckStorm (state : AppState) (i : Nat) (due : Listening → AdsStream → Prop)
    (w : Listening) : Prop :=
  ∀ st as w', w.system.streams.lookup i = some st →
    (listening state).execUnder (Quiet i) w as = some w' →
      ∃ st', w'.system.streams.lookup i = some st' ∧
        Calm state i (due w st) st (as.countP (OnStream i)) w' st'

-- ════════════════════════════════════════════════════════════════════════
-- One step of a stream
-- ════════════════════════════════════════════════════════════════════════

/-- A step of a stream or of its envoy, with the listener envoy holds before and
    after it. -/
inductive AdsStream.Move (store : SessionStore) (st : AdsStream) (held : Option LdsPush) :
    AdsStream → Option LdsPush → Prop where
  | receive {store' : SessionStore} {st' : AdsStream} (h : st.receive store = some (store', st')) :
    Move store st held st' held
  | tick {st' : AdsStream} (h : st.tick store = some st') : Move store st held st' held
  | advance {st' : AdsStream} (h : st.advance store = some st') : Move store st held st' held
  | acceptListener {nonce : Nat} {push : LdsPush} {rest : List DiscoveryResponse}
    (h : st.outbound = .listener nonce push :: rest) :
    Move store st held
      { st with outbound := rest,
                inbound := st.inbound ++ [⟨.listener, toString push.version, none⟩] } (some push)
  | acceptCluster {nonce : Nat} {rest : List DiscoveryResponse}
    (h : st.outbound = .cluster nonce :: rest) :
    Move store st held
      { st with outbound := rest, inbound := st.inbound ++ [⟨.cluster, clusterVersion, none⟩] } held

namespace AdsStream

/-- What the messages and the position of a stream can still cause, when every
    step costs `step` and every response costs `push`. -/
def requestCost (step push generation : Nat) (req : DiscoveryRequest) : Nat :=
  if req.asks generation then 7 * step + push else 2 * step

def responseCost (step push generation : Nat) : DiscoveryResponse → Nat
  | .listener _ p => if p.version = generation then 3 * step else 8 * step + push
  | .cluster _ => 3 * step

def pcCost (step push generation : Nat) : StreamPc → Nat
  | .opened => step
  | .select => 0
  | .compare envoyHas => if envoyHas = some generation then step else 6 * step + push
  | .snapshot version => if version = generation then 5 * step + push else 10 * step + 2 * push
  | .yield p => if p.version = generation then 4 * step + push else 9 * step + 2 * push

def cost (step push generation : Nat) (st : AdsStream) : Nat :=
  pcCost step push generation st.pc +
    (if st.pc ≠ .opened ∧ st.seen ≠ generation then 6 * step + push else 0) +
    (if st.clusterVersionPushed then 0 else 3 * step + push) +
    (st.inbound.map (requestCost step push generation)).sum +
    (st.outbound.map (responseCost step push generation)).sum

variable {step push : Nat} {store : SessionStore} {st st' : AdsStream} {held held' : Option LdsPush}

theorem sum_append_one {α : Type} (f : α → Nat) (xs : List α) (x : α) :
    ((xs ++ [x]).map f).sum = (xs.map f).sum + f x := by simp

theorem receive_cost {store' : SessionStore} (h : st.receive store = some (store', st')) :
    st'.envoy = st.envoy ∧
      (st'.nonceCounter = st.nonceCounter ∧
          step + cost step push store.generation st' ≤ cost step push store.generation st ∨
        st'.nonceCounter = st.nonceCounter + 1 ∧
          step + push + cost step push store.generation st' ≤
            cost step push store.generation st) := by
  unfold receive at h
  split at h
  next req rest hpc hin =>
    have hhead : (st.inbound.map (requestCost step push store.generation)).sum =
        requestCost step push store.generation req +
          (rest.map (requestCost step push store.generation)).sum := by
      rw [hin, List.map_cons, List.sum_cons]
    have hleast : 2 * step ≤ requestCost step push store.generation req := by
      unfold requestCost
      split <;> omega
    have hselect : pcCost step push store.generation .select = 0 := rfl
    simp only at h
    split at h
    next =>
      cases h
      refine ⟨rfl, .inl ⟨rfl, ?_⟩⟩
      simp only [cost, hhead]
      omega
    next herr =>
      split at h
      next htype =>
        have hasks : ∀ acked, req.envoyHas = acked →
            requestCost step push store.generation req =
              step + pcCost step push store.generation (.compare acked) := by
          rintro acked rfl
          have hnone : req.errorDetail.isNone = true := by simpa using herr
          by_cases hcurrent : req.envoyHas = some store.generation
          · simp [requestCost, DiscoveryRequest.asks, pcCost, hcurrent]
            omega
          · simp [requestCost, DiscoveryRequest.asks, pcCost, hcurrent, htype, hnone]
            omega
        split at h
        next acked hacked =>
          cases h
          refine ⟨rfl, .inl ⟨rfl, ?_⟩⟩
          have hcost := hasks _ hacked
          simp only [cost, hhead, hpc, hselect, ne_eq, reduceCtorEq, not_false_eq_true, true_and]
          omega
        next hacked =>
          cases h
          refine ⟨rfl, .inl ⟨rfl, ?_⟩⟩
          have hcost := hasks _ hacked
          simp only [cost, hhead, hpc, hselect, ne_eq, reduceCtorEq, not_false_eq_true, true_and]
          omega
      next htype =>
        split at h
        next =>
          cases h
          refine ⟨rfl, .inl ⟨rfl, ?_⟩⟩
          simp only [cost, hhead]
          omega
        next hpushed =>
          cases h
          refine ⟨rfl, .inr ⟨rfl, ?_⟩⟩
          simp only [cost, send, hhead, sum_append_one, responseCost, hpushed]
          simp only [if_true, Bool.false_eq_true, if_false]
          omega
      next =>
        cases h
        refine ⟨rfl, .inl ⟨rfl, ?_⟩⟩
        simp only [cost, hhead]
        omega
  next => cases h

theorem tick_cost (h : st.tick store = some st') :
    st'.envoy = st.envoy ∧ st'.nonceCounter = st.nonceCounter ∧
      step + cost step push store.generation st' ≤ cost step push store.generation st := by
  unfold tick at h
  split at h
  next htick =>
    cases h
    refine ⟨rfl, rfl, ?_⟩
    simp only [cost, pcCost, htick, ne_eq, reduceCtorEq, not_false_eq_true, true_and, if_true,
      not_true_eq_false, and_false, if_false]
    omega
  next => cases h

theorem advance_cost (h : st.advance store = some st') :
    st'.envoy = st.envoy ∧
      (st'.nonceCounter = st.nonceCounter ∧
          step + cost step push store.generation st' ≤ cost step push store.generation st ∨
        st'.nonceCounter = st.nonceCounter + 1 ∧
          step + push + cost step push store.generation st' ≤
            cost step push store.generation st) := by
  unfold advance at h
  split at h
  next hpc =>
    cases h
    refine ⟨rfl, .inl ⟨rfl, ?_⟩⟩
    simp only [cost, pcCost, hpc, ne_eq, reduceCtorEq, not_false_eq_true, true_and,
      not_true_eq_false, false_and, if_false]
    omega
  next => cases h
  next envoyHas hpc =>
    split at h
    next heq =>
      cases h
      refine ⟨rfl, .inl ⟨rfl, ?_⟩⟩
      simp only [cost, pcCost, hpc, heq, ne_eq, reduceCtorEq, not_false_eq_true, true_and, if_true]
      omega
    next hne =>
      cases h
      refine ⟨rfl, .inl ⟨rfl, ?_⟩⟩
      simp only [cost, pcCost, hpc, hne, ne_eq, reduceCtorEq, not_false_eq_true, true_and, if_true,
        if_false]
      omega
  next version hpc =>
    cases h
    refine ⟨rfl, .inl ⟨rfl, ?_⟩⟩
    simp only [cost, pcCost, hpc, ne_eq, reduceCtorEq, not_false_eq_true, true_and]
    split <;> omega
  next p hpc =>
    cases h
    refine ⟨rfl, .inr ⟨rfl, ?_⟩⟩
    simp only [cost, send, pcCost, hpc, sum_append_one, responseCost, ne_eq, reduceCtorEq,
      not_false_eq_true, true_and]
    by_cases hcurrent : p.version = store.generation
    · simp only [hcurrent, if_true]
      omega
    · simp only [hcurrent, if_false]
      omega

/-- The version text of a push names that version and no other. -/
theorem asks_version {generation : Nat} (p : LdsPush) (hbound : generation < 2 ^ 64) :
    (⟨.listener, toString p.version, none⟩ : DiscoveryRequest).asks generation =
      decide (p.version ≠ generation) := by
  have hdigits : (toString p.version).isEmpty = false := by
    rw [Bool.eq_false_iff]
    intro hempty
    have hlist : (toString p.version).toList = [] := by
      rw [String.isEmpty_iff.mp hempty]
      rfl
    exact Nat.toDigits_ne_nil (Nat.toList_repr.symm.trans hlist)
  have hhas : (⟨.listener, toString p.version, none⟩ : DiscoveryRequest).envoyHas =
      if p.version < 2 ^ 64 then some p.version else none := by
    simp only [DiscoveryRequest.envoyHas, hdigits, Bool.false_eq_true, if_false,
      parseUnsigned_toString_ite]
  simp only [DiscoveryRequest.asks, hhas, Option.isNone_none, decide_true, Bool.true_and,
    decide_eq_decide]
  split
  next => simp
  next hlarge =>
    simp only [ne_eq, reduceCtorEq, not_false_eq_true, true_iff]
    omega

/-- **Potential of a stream**: every step pays for itself, and for the response
    it sends. -/
theorem Move.cost (step push : Nat) (h : Move store st held st' held') (hbound : store.generation < 2 ^ 64) :
    st'.envoy = st.envoy ∧
      (st'.nonceCounter = st.nonceCounter ∧
          step + st'.cost step push store.generation ≤ st.cost step push store.generation ∨
        st'.nonceCounter = st.nonceCounter + 1 ∧
          step + push + st'.cost step push store.generation ≤
            st.cost step push store.generation) := by
  cases h with
  | receive h => exact receive_cost h
  | tick h =>
    obtain ⟨henvoy, hnonce, hcost⟩ := tick_cost h
    exact ⟨henvoy, .inl ⟨hnonce, hcost⟩⟩
  | advance h => exact advance_cost h
  | acceptListener h =>
    refine ⟨rfl, .inl ⟨rfl, ?_⟩⟩
    simp only [AdsStream.cost, h, sum_append_one, List.map_cons, List.sum_cons, responseCost,
      requestCost, asks_version _ hbound, decide_eq_true_eq]
    rename_i p _
    by_cases hcurrent : p.version = store.generation
    · simp only [hcurrent, ne_eq, not_true_eq_false, if_true, if_false]
      omega
    · simp only [hcurrent, ne_eq, not_false_eq_true, if_true, if_false]
      omega
  | acceptCluster h =>
    refine ⟨rfl, .inl ⟨rfl, ?_⟩⟩
    simp only [AdsStream.cost, h, sum_append_one, List.map_cons, List.sum_cons, responseCost,
      requestCost, DiscoveryRequest.asks]
    simp only [reduceCtorEq, decide_false, Bool.and_false, Bool.false_and, Bool.false_eq_true,
      if_false]
    omega

theorem map_sum_le {α : Type} {f : α → Nat} (most : Nat) (xs : List α) (h : ∀ x, f x ≤ most) :
    (xs.map f).sum ≤ xs.length * most := by
  induction xs with
  | nil => simp
  | cons x xs ih =>
    rw [List.map_cons, List.sum_cons, List.length_cons, Nat.succ_mul]
    have hx := h x
    omega

theorem cost_responses (generation : Nat) (st : AdsStream) :
    st.cost 0 1 generation ≤ st.inbound.length + st.outbound.length + 4 := by
  have hin := map_sum_le 1 st.inbound fun req => by
    show requestCost 0 1 generation req ≤ 1
    unfold requestCost
    split <;> omega
  have hout := map_sum_le 1 st.outbound fun response => by
    show responseCost 0 1 generation response ≤ 1
    unfold responseCost
    split
    next => split <;> omega
    next => omega
  have hpc : pcCost 0 1 generation st.pc ≤ 2 := by
    unfold pcCost
    split <;> (try split) <;> omega
  have htick : (if st.pc ≠ .opened ∧ st.seen ≠ generation then 6 * 0 + 1 else 0) ≤ 1 := by
    split <;> omega
  have hcluster : (if st.clusterVersionPushed then 0 else 3 * 0 + 1) ≤ 1 := by
    split <;> omega
  unfold AdsStream.cost
  omega

theorem cost_steps (generation : Nat) (st : AdsStream) :
    st.cost 1 0 generation ≤ 8 * (st.inbound.length + st.outbound.length) + 20 := by
  have hin := map_sum_le 8 st.inbound fun req => by
    show requestCost 1 0 generation req ≤ 8
    unfold requestCost
    split <;> omega
  have hout := map_sum_le 8 st.outbound fun response => by
    show responseCost 1 0 generation response ≤ 8
    unfold responseCost
    split
    next => split <;> omega
    next => omega
  have hpc : pcCost 1 0 generation st.pc ≤ 10 := by
    unfold pcCost
    split <;> (try split) <;> omega
  have htick : (if st.pc ≠ .opened ∧ st.seen ≠ generation then 6 * 1 + 0 else 0) ≤ 6 := by
    split <;> omega
  have hcluster : (if st.clusterVersionPushed then 0 else 3 * 1 + 0) ≤ 3 := by
    split <;> omega
  unfold AdsStream.cost
  omega

-- ════════════════════════════════════════════════════════════════════════
-- What stays owed
-- ════════════════════════════════════════════════════════════════════════

theorem receive_due {store' : SessionStore} (h : st.receive store = some (store', st'))
    (hdue : st.Due store.generation held) : st'.Due store.generation held := by
  unfold receive at h
  split at h
  next req rest hpc hin =>
    have hhead : ∀ r ∈ st.inbound, r.asks store.generation = true →
        r = req ∨ ∃ r ∈ rest, r.asks store.generation = true := by
      intro r hr hasks
      rw [hin] at hr
      rcases List.mem_cons.mp hr with rfl | hr
      · exact .inl rfl
      · exact .inr ⟨r, hr, hasks⟩
    -- a request that does not ask leaves everything else as it is
    have hother : ∀ st₁ : AdsStream, st₁.pc = .select → st₁.seen = st.seen →
        st₁.inbound = rest → (∀ response ∈ st.outbound, response ∈ st₁.outbound) →
        req.asks store.generation = false → st₁.Due store.generation held := by
      intro st₁ hpc₁ hseen hin₁ hout₁ hno
      rcases hdue with ⟨-, hlate⟩ | howes | ⟨r, hr, hasks⟩ | ⟨response, hr, hlistener⟩ | hheld
      · exact .inl ⟨by simp [hpc₁], hseen ▸ hlate⟩
      · simp [hpc, StreamPc.owes] at howes
      · rcases hhead r hr hasks with rfl | hrest
        · rw [hno] at hasks
          cases hasks
        · exact .inr (.inr (.inl (hin₁ ▸ hrest)))
      · exact .inr (.inr (.inr (.inl ⟨response, hout₁ response hr, hlistener⟩)))
      · exact .inr (.inr (.inr (.inr hheld)))
    -- after a listener request the comparison decides
    have hcompare : req.errorDetail.isNone = true → req.typeUrl = .listener → ∀ acked,
        req.envoyHas = acked →
        Due { st with inbound := rest, pc := .compare acked } store.generation held := by
      rintro herr htype acked rfl
      rcases hdue with ⟨-, hlate⟩ | howes | ⟨r, hr, hasks⟩ | hout | hheld
      · exact .inl ⟨by simp, hlate⟩
      · simp [hpc, StreamPc.owes] at howes
      · rcases hhead r hr hasks with rfl | hrest
        · refine .inr (.inl ?_)
          simpa [DiscoveryRequest.asks, herr, htype, StreamPc.owes] using hasks
        · exact .inr (.inr (.inl hrest))
      · exact .inr (.inr (.inr (.inl hout)))
      · exact .inr (.inr (.inr (.inr hheld)))
    simp only at h
    split at h
    next herr =>
      cases h
      refine hother _ hpc rfl rfl (fun _ hr => hr) ?_
      cases hdetail : req.errorDetail with
      | none => simp [hdetail] at herr
      | some message => simp [DiscoveryRequest.asks, hdetail]
    next herr =>
      have hnone : req.errorDetail.isNone = true := by simpa using herr
      split at h
      next htype =>
        split at h
        next acked hacked => cases h; exact hcompare hnone htype _ hacked
        next hacked => cases h; exact hcompare hnone htype _ hacked
      next htype =>
        have hno : req.asks store.generation = false := by simp [DiscoveryRequest.asks, htype]
        split at h
        next => cases h; exact hother _ hpc rfl rfl (fun _ hr => hr) hno
        next =>
          cases h
          exact hother _ hpc rfl rfl (fun _ hr => List.mem_append_left _ hr) hno
      next htype =>
        have hno : req.asks store.generation = false := by simp [DiscoveryRequest.asks, htype]
        cases h
        exact hother _ hpc rfl rfl (fun _ hr => hr) hno
  next => cases h

theorem advance_due (h : st.advance store = some st') (hdue : st.Due store.generation held) :
    st'.Due store.generation held := by
  unfold advance at h
  split at h
  next hpc =>
    cases h
    rcases hdue with ⟨hopened, -⟩ | howes | hrest
    · exact absurd hpc hopened
    · simp [hpc, StreamPc.owes] at howes
    · exact .inr (.inr hrest)
  next => cases h
  next envoyHas hpc =>
    split at h
    next heq =>
      cases h
      rcases hdue with ⟨-, hlate⟩ | howes | hrest
      · exact .inl ⟨by simp, hlate⟩
      · simp [hpc, StreamPc.owes, heq] at howes
      · exact .inr (.inr hrest)
    next => cases h; exact .inr (.inl rfl)
  next => cases h; exact .inr (.inl rfl)
  next p hpc =>
    cases h
    exact .inr (.inr (.inr (.inl ⟨_, List.mem_append_right _ (List.mem_singleton.mpr rfl), rfl⟩)))

/-- **Nothing owed is lost**: a stale listener comes back as a request that asks
    for the current one. -/
theorem Move.due (h : Move store st held st' held') (hbound : store.generation < 2 ^ 64)
    (hdue : st.Due store.generation held) : st'.Due store.generation held' := by
  cases h with
  | receive h => exact receive_due h hdue
  | tick h =>
    unfold AdsStream.tick at h
    split at h
    next => cases h; exact .inr (.inl rfl)
    next => cases h
  | advance h => exact advance_due h hdue
  | @acceptListener nonce p rest h =>
    by_cases hcurrent : p.version = store.generation
    · exact .inr (.inr (.inr (.inr ⟨p, rfl, hcurrent⟩)))
    · refine .inr (.inr (.inl ⟨_, List.mem_append_right _ (List.mem_singleton.mpr rfl), ?_⟩))
      rw [asks_version p hbound]
      exact decide_eq_true hcurrent
  | @acceptCluster nonce rest h =>
    rcases hdue with hlate | howes | ⟨r, hr, hasks⟩ | ⟨response, hr, hlistener⟩ | hheld
    · exact .inl hlate
    · exact .inr (.inl howes)
    · exact .inr (.inr (.inl ⟨r, List.mem_append_left _ hr, hasks⟩))
    · rw [h] at hr
      rcases List.mem_cons.mp hr with rfl | hr
      · cases hlistener
      · exact .inr (.inr (.inr (.inl ⟨response, hr, hlistener⟩)))
    · exact .inr (.inr (.inr (.inr hheld)))

/-- At rest only the listener envoy holds can meet what was owed. -/
theorem AtRest.held_current {generation : Nat} (hrest : st.AtRest generation)
    (hdue : st.Due generation held) : ∃ p, held = some p ∧ p.version = generation := by
  obtain ⟨hpc, hin, hout, hseen⟩ := hrest
  rcases hdue with ⟨-, hlate⟩ | howes | ⟨r, hr, -⟩ | ⟨response, hr, -⟩ | hheld
  · exact absurd hseen hlate
  · simp [hpc, StreamPc.owes] at howes
  · rw [hin] at hr
    cases hr
  · rw [hout] at hr
    cases hr
  · exact hheld

end AdsStream

-- ════════════════════════════════════════════════════════════════════════
-- Versions and snapshots
-- ════════════════════════════════════════════════════════════════════════

variable {state : AppState} {s s' : System} {w w' : Listening} {a : Action} {i h : Nat}
  {st : AdsStream} {store store' : SessionStore} {pc pc' : HandlerPc}

theorem HandlerPc.advance_unbumped (hadv : pc.advance state store = some (store', pc')) :
    pc.isUnbumped = true ∧ store' = store.bump ∨
      pc.isUnbumped = false ∧ store'.generation = store.generation ∧
        (store'.inner = store.inner ∨ pc'.isUnbumped = true) := by
  cases pc with
  | bump m => cases hadv; exact .inl ⟨rfl, rfl⟩
  | rollbackBump m err => cases hadv; exact .inl ⟨rfl, rfl⟩
  | target m =>
    simp only [HandlerPc.advance] at hadv
    split at hadv
    next => cases hadv; exact .inr ⟨rfl, rfl, .inl rfl⟩
    next => cases hadv; exact .inr ⟨rfl, rfl, .inl rfl⟩
  | subscribers m version =>
    simp only [HandlerPc.advance] at hadv
    split at hadv
    next => cases hadv; exact .inr ⟨rfl, rfl, .inl rfl⟩
    next => cases hadv; exact .inr ⟨rfl, rfl, .inl rfl⟩
  | subscribe m version =>
    simp only [HandlerPc.advance] at hadv
    split at hadv
    next => cases hadv; exact .inr ⟨rfl, rfl, .inl rfl⟩
    next => cases hadv; exact .inr ⟨rfl, rfl, .inl rfl⟩
  | changed m version seen =>
    simp only [HandlerPc.advance] at hadv
    split at hadv
    next => cases hadv
    next =>
      split at hadv
      next => cases hadv; exact .inr ⟨rfl, rfl, .inl rfl⟩
      next => cases hadv; exact .inr ⟨rfl, rfl, .inl rfl⟩
  | woken m version seen =>
    simp only [HandlerPc.advance] at hadv
    split at hadv
    next => cases hadv; exact .inr ⟨rfl, rfl, .inl rfl⟩
    next => cases hadv; exact .inr ⟨rfl, rfl, .inl rfl⟩
  | rollback m err =>
    simp only [HandlerPc.advance] at hadv
    split at hadv
    next hundo =>
      cases hadv
      refine .inr ⟨rfl, ?_, .inr rfl⟩
      cases m with
      | post record => rw [Mutation.undoSection_post hundo]
      | delete record => rw [(SessionStore.insertSection_eq_ok hundo).2]
    next => cases hadv; exact .inr ⟨rfl, rfl, .inl rfl⟩
  | answered m response => cases hadv

/-- A handler that does not mutate leaves the store as it is. -/
theorem HandlerPc.advance_quiet (hadv : pc.advance state store = some (store', pc'))
    (hquiet : pc.isMutating = false) : store' = store ∧ pc'.isUnbumped = false := by
  cases pc with
  | bump m => cases hquiet
  | rollback m err => cases hquiet
  | rollbackBump m err => cases hquiet
  | target m =>
    simp only [HandlerPc.advance] at hadv
    split at hadv
    next => cases hadv; exact ⟨rfl, rfl⟩
    next => cases hadv; exact ⟨rfl, rfl⟩
  | subscribers m version =>
    simp only [HandlerPc.advance] at hadv
    split at hadv
    next => cases hadv; exact ⟨rfl, rfl⟩
    next => cases hadv; exact ⟨rfl, rfl⟩
  | subscribe m version =>
    simp only [HandlerPc.advance] at hadv
    split at hadv
    next => cases hadv; exact ⟨rfl, rfl⟩
    next => cases hadv; exact ⟨rfl, rfl⟩
  | changed m version seen =>
    simp only [HandlerPc.advance] at hadv
    split at hadv
    next => cases hadv
    next =>
      split at hadv
      next => cases hadv; exact ⟨rfl, rfl⟩
      next => cases hadv; exact ⟨rfl, rfl⟩
  | woken m version seen =>
    simp only [HandlerPc.advance] at hadv
    split at hadv
    next => cases hadv; exact ⟨rfl, rfl⟩
    next => cases hadv; exact ⟨rfl, rfl⟩
  | answered m response => cases hadv

theorem System.bumped_iff :
    s.Bumped ↔ ∀ h pc, s.handlers.lookup h = some pc → pc.isUnbumped = false := by
  rw [System.Bumped, FiniteMap.all_eq_true_iff]
  simp

theorem System.bumped_setHandler (hbumped : s.Bumped) (hpc : pc.isUnbumped = false) :
    (s.setHandler h store pc).Bumped := by
  rw [System.bumped_iff] at hbumped ⊢
  intro h' pc' hlook
  rw [System.setHandler, FiniteMap.lookup_insert_ite] at hlook
  split at hlook
  next => cases hlook; exact hpc
  next => exact hbumped h' pc' hlook

/-- Versions never run ahead of the generation, and a push of the current one is
    compiled from the current table, unless a bump is still to come. -/
structure LabelInv (s : System) : Prop where
  bound : s.store.generation < 2 ^ 64
  version : ∀ p, Emitted s p → p.version ≤ s.store.generation
  current : ∀ p, Emitted s p → p.version = s.store.generation → s.Bumped →
    p.snapshot = s.store.list
  read : ∀ i st v, s.streams.lookup i = some st → st.pc = .snapshot v → v ≤ s.store.generation

namespace LabelInv

theorem start (hstart : s.Start) : LabelInv s := by
  obtain ⟨⟨records, hstore⟩, -, hstreams, hacked⟩ := hstart
  have hnone : ∀ p, ¬ Emitted s p := by
    rintro p (hp | ⟨i, st, hst, -⟩)
    · simp [hacked] at hp
    · simp [hstreams] at hst
  refine ⟨?_, fun p hp => absurd hp (hnone p), fun p hp => absurd hp (hnone p), ?_⟩
  · rw [hstore]
    exact SessionStore.generation_seedStore_lt records (by decide)
  · intro i st v hst
    simp [hstreams] at hst

theorem stream (inv : LabelInv s) (hframe : StreamFrame s s') : LabelInv s' := by
  have hlist := SessionStore.list_congr hframe.inner
  refine ⟨hframe.generation ▸ inv.bound, ?_, ?_, hframe.generation ▸ hframe.snapshot⟩
  · intro p hp
    rw [hframe.generation]
    rcases hframe.emitted p hp with hp | ⟨-, hle⟩
    · exact inv.version p hp
    · exact hle
  · intro p hp hversion hbumped
    rw [hlist]
    rcases hframe.emitted p hp with hp | ⟨hsnapshot, -⟩
    · rw [hframe.generation] at hversion
      rw [System.Bumped, hframe.handlers] at hbumped
      exact inv.current p hp hversion hbumped
    · exact hsnapshot

/-- A handler access between two bumps. -/
theorem keep (inv : LabelInv s) (hgen : store.generation = s.store.generation)
    (htable : store.inner = s.store.inner ∧ (s.handlers.lookup h).any HandlerPc.isUnbumped = false ∨
      pc.isUnbumped = true) : LabelInv (s.setHandler h store pc) := by
  refine ⟨hgen ▸ inv.bound, ?_, ?_, ?_⟩
  · intro p hp
    exact hgen ▸ inv.version p hp
  · intro p hp hversion hbumped
    rw [System.bumped_iff] at hbumped
    rcases htable with ⟨hinner, hold⟩ | hnew
    · refine (inv.current p hp (hversion.trans hgen) ?_).trans (SessionStore.list_congr hinner).symm
      rw [System.bumped_iff]
      intro h' pc' hlook
      by_cases hh : h' = h
      · subst hh
        rw [hlook] at hold
        exact hold
      · exact hbumped h' pc' (by simp [System.setHandler, AList.lookup_insert_ne hh, hlook])
    · have hself := hbumped h pc (by simp [System.setHandler])
      rw [hnew] at hself
      cases hself
  · intro i st v hst hpc
    exact hgen ▸ inv.read i st v hst hpc

/-- After a bump no push has the current version. -/
theorem bump (inv : LabelInv s) (hwrap : s.store.generation + 1 < 2 ^ 64) :
    LabelInv (s.setHandler h s.store.bump pc) := by
  have hbump := SessionStore.generation_bump hwrap
  refine ⟨s.store.generation_bump_lt, ?_, ?_, ?_⟩
  · intro p hp
    exact (inv.version p hp).trans (hbump ▸ Nat.le_succ _)
  · intro p hp hversion
    have hle := inv.version p hp
    have hnew : p.version = s.store.generation + 1 := hversion.trans hbump
    omega
  · intro i st v hst hpc
    exact (inv.read i st v hst hpc).trans (hbump ▸ Nat.le_succ _)

theorem step (inv : LabelInv s)
    (hwrap : ∀ h, a = .handler h → (s.handlers.lookup h).any HandlerPc.isUnbumped = true →
      s.store.generation + 1 < 2 ^ 64) (hnext : s.next state a = some s') : LabelInv s' := by
  rcases System.next_cases hnext with ⟨h, store, pc, rfl, hmove⟩ | ⟨ha, -, -, -⟩
  · rcases hmove with ⟨body, rfl, hnew, hpost⟩ | ⟨id, rfl, hnew, hdelete⟩ | ⟨old, rfl, hold, hadv⟩ |
      ⟨old, rfl, hold, hexp, rfl⟩
    · rcases HandlerPc.post_cases hpost with ⟨response, rfl, rfl⟩ | ⟨record, rfl, -, rfl⟩
      · exact inv.keep rfl (.inl ⟨rfl, by rw [hnew]; rfl⟩)
      · exact inv.keep rfl (.inr rfl)
    · rcases HandlerPc.delete_cases hdelete with ⟨response, rfl, rfl⟩ | ⟨record, rfl, -, rfl⟩
      · exact inv.keep rfl (.inl ⟨rfl, by rw [hnew]; rfl⟩)
      · exact inv.keep rfl (.inr rfl)
    · rcases HandlerPc.advance_unbumped hadv with ⟨hunbumped, rfl⟩ | ⟨hquiet, hgen, htable⟩
      · exact inv.bump (hwrap h rfl (by rw [hold]; exact hunbumped))
      · refine inv.keep hgen (htable.imp_left fun hinner => ⟨hinner, ?_⟩)
        rw [hold]
        exact hquiet
    · cases old <;> cases hexp
      exact inv.keep rfl (.inl ⟨rfl, by rw [hold]; rfl⟩)
  · exact inv.stream (System.stream_frame inv.read ha hnext).1

end LabelInv

-- ════════════════════════════════════════════════════════════════════════
-- Steps of the deployment
-- ════════════════════════════════════════════════════════════════════════

theorem System.applied_eq_some {envoy : Nat} {push : LdsPush}
    (happlied : s.applied a = some (envoy, push)) :
    ∃ j st nonce rest, a = .accept j ∧ s.streams.lookup j = some st ∧
      st.outbound = .listener nonce push :: rest ∧ envoy = st.envoy := by
  cases a with
  | accept j =>
    obtain ⟨st, hst, happlied⟩ := Option.bind_eq_some_iff.mp happlied
    split at happlied
    next nonce p rest hout =>
      cases happlied
      exact ⟨j, st, nonce, rest, rfl, hst, hout, rfl⟩
    next => cases happlied
  | _ => cases happlied

/-- Labels are sound, and what envoys hold has been acknowledged. -/
structure ListenInv (w : Listening) : Prop where
  labels : LabelInv w.system
  held : ∀ envoy p, w.held envoy = some p → p ∈ w.system.acked

theorem ListenInv.start (hstart : (listening state).Start w) : ListenInv w := by
  refine ⟨LabelInv.start hstart.1, ?_⟩
  intro envoy p hheld
  rw [hstart.2 envoy] at hheld
  cases hheld

theorem System.acked_mono {p : LdsPush} (inv : LabelInv s) (hnext : s.next state a = some s')
    (hp : p ∈ s.acked) : p ∈ s'.acked := by
  rcases System.next_cases hnext with ⟨h, store, pc, rfl, -⟩ | ⟨ha, -, -, -⟩
  · exact hp
  · exact (System.stream_frame inv.read ha hnext).1.acked p hp

theorem ListenInv.step (inv : ListenInv w) (hguard : NoWrap w a)
    (hnext : (listening state).next w a = some w') : ListenInv w' := by
  obtain ⟨s, hs, rfl⟩ := Option.map_eq_some_iff.mp hnext
  refine ⟨inv.labels.step ?_ hs, ?_⟩
  · rintro h rfl
    exact hguard
  · intro envoy p hheld
    cases happlied : w.system.applied a with
    | none =>
      simp only [happlied] at hheld
      exact System.acked_mono inv.labels hs (inv.held envoy p hheld)
    | some application =>
      obtain ⟨applier, push⟩ := application
      simp only [happlied, Function.update_apply] at hheld
      obtain ⟨j, st, nonce, rest, rfl, hst, hout, rfl⟩ := System.applied_eq_some happlied
      split at hheld
      next =>
        cases hheld
        obtain ⟨st', hst', hs⟩ := Option.bind_eq_some_iff.mp hs
        rw [hst] at hst'
        cases hst'
        rw [hout] at hs
        cases hs
        exact List.mem_cons_self
      next => exact System.acked_mono inv.labels hs (inv.held envoy p hheld)

/-- A handler step of a quiet run. -/
theorem quiet_handler (hquiet : Quiet i w a) (hbumped : w.system.Bumped)
    (hnext : w.system.next state a = some s') (ha : a.handler? ≠ none) :
    s'.streams = w.system.streams ∧ s'.store = w.system.store ∧ s'.Bumped := by
  rcases System.next_cases hnext with ⟨h, store, pc, rfl, hmove⟩ | ⟨hnone, -, -, -⟩
  · rcases hmove with ⟨body, rfl, -, hpost⟩ | ⟨id, rfl, -, hdelete⟩ | ⟨old, rfl, hold, hadv⟩ |
      ⟨old, rfl, -, hexp, rfl⟩
    · have hrefused : (HandlerPc.post w.system.store body).2.mutation = none := hquiet
      rw [hpost] at hrefused
      rcases HandlerPc.post_cases hpost with ⟨response, rfl, rfl⟩ | ⟨record, rfl, -, -⟩
      · exact ⟨rfl, rfl, System.bumped_setHandler hbumped rfl⟩
      · cases hrefused
    · have hrefused : (HandlerPc.delete w.system.store id).2.mutation = none := hquiet
      rw [hdelete] at hrefused
      rcases HandlerPc.delete_cases hdelete with ⟨response, rfl, rfl⟩ | ⟨record, rfl, -, -⟩
      · exact ⟨rfl, rfl, System.bumped_setHandler hbumped rfl⟩
      · cases hrefused
    · have hold' : old.isMutating = false := by
        have hany : (w.system.handlers.lookup h).any HandlerPc.isMutating = false := hquiet
        rw [hold] at hany
        exact hany
      obtain ⟨rfl, hpc⟩ := HandlerPc.advance_quiet hadv hold'
      exact ⟨rfl, rfl, System.bumped_setHandler hbumped hpc⟩
    · cases old <;> cases hexp
      exact ⟨rfl, rfl, System.bumped_setHandler hbumped rfl⟩
  · exact absurd hnone ha

/-- Stream `i` after a step: it has made a move of its own, or neither it nor
    what its envoy holds has changed. -/
def Follows (i : Nat) (w : Listening) (a : Action) (w' : Listening) (st : AdsStream) : Prop :=
  ∃ st', w'.system.streams.lookup i = some st' ∧
    (OnStream i a = false ∧ st' = st ∧ w'.held st.envoy = w.held st.envoy ∨
      OnStream i a = true ∧ st.Move w.system.store (w.held st.envoy) st' (w'.held st.envoy))

/-- A step on stream `j`. -/
theorem follows_insert {j : Nat} {st₁ st₂ : AdsStream} (hst : w.system.streams.lookup i = some st)
    (hst₁ : w.system.streams.lookup j = some st₁)
    (hlook : ∀ k, w'.system.streams.lookup k =
      if k = j then some st₂ else w.system.streams.lookup k)
    (hon : OnStream i a = decide (j = i))
    (hheld : j ≠ i → w'.held st.envoy = w.held st.envoy)
    (hmove : st₁.Move w.system.store (w.held st₁.envoy) st₂ (w'.held st₁.envoy)) :
    Follows i w a w' st := by
  by_cases hj : j = i
  · subst hj
    rw [hst] at hst₁
    cases hst₁
    exact ⟨st₂, (hlook j).trans (if_pos rfl), .inr ⟨hon.trans (decide_eq_true rfl), hmove⟩⟩
  · exact ⟨st, (hlook i).trans ((if_neg (Ne.symm hj)).trans hst),
      .inl ⟨hon.trans (decide_eq_false hj), rfl, hheld hj⟩⟩

theorem quiet_stream (hquiet : Quiet i w a) (hst : w.system.streams.lookup i = some st)
    (hnext : (listening state).next w a = some w') (ha : a.handler? = none) :
    Follows i w a w' st := by
  obtain ⟨s, hs, rfl⟩ := Option.map_eq_some_iff.mp hnext
  cases a with
  | post h body => cases ha
  | delete h id => cases ha
  | handler h => cases ha
  | expire h => cases ha
  | connect j envoy =>
    simp only [System.next, Option.ite_none_left_eq_some, Option.some.injEq] at hs
    obtain ⟨hfree, rfl⟩ := hs
    have hne : i ≠ j := by
      rintro rfl
      simp [hst] at hfree
    exact ⟨st, (AList.lookup_insert_ne hne).trans hst, .inl ⟨rfl, rfl, rfl⟩⟩
  | disconnect j =>
    simp only [System.next, Option.ite_none_left_eq_some, Option.some.injEq] at hs
    obtain ⟨-, rfl⟩ := hs
    have hne : i ≠ j := Ne.symm hquiet
    exact ⟨st, (AList.lookup_erase_ne hne).trans hst, .inl ⟨rfl, rfl, rfl⟩⟩
  | receive j =>
    obtain ⟨st₁, hst₁, hs⟩ := Option.bind_eq_some_iff.mp hs
    obtain ⟨⟨store, st₂⟩, hrecv, heq⟩ := Option.bind_eq_some_iff.mp hs
    cases heq
    exact follows_insert hst hst₁ (fun k => FiniteMap.lookup_insert_ite _ _ _ _) rfl
      (fun _ => rfl) (.receive hrecv)
  | tick j =>
    obtain ⟨st₁, hst₁, hs⟩ := Option.bind_eq_some_iff.mp hs
    obtain ⟨st₂, htick, heq⟩ := Option.bind_eq_some_iff.mp hs
    cases heq
    exact follows_insert hst hst₁ (fun k => FiniteMap.lookup_insert_ite _ _ _ _) rfl
      (fun _ => rfl) (.tick htick)
  | stream j =>
    obtain ⟨st₁, hst₁, hs⟩ := Option.bind_eq_some_iff.mp hs
    obtain ⟨st₂, hadv, heq⟩ := Option.bind_eq_some_iff.mp hs
    cases heq
    exact follows_insert hst hst₁ (fun k => FiniteMap.lookup_insert_ite _ _ _ _) rfl
      (fun _ => rfl) (.advance hadv)
  | subscribe j typeUrl =>
    obtain ⟨st₁, hst₁, heq⟩ := Option.bind_eq_some_iff.mp hs
    cases heq
    have hne : i ≠ j := Ne.symm hquiet
    exact ⟨st, (AList.lookup_insert_ne hne).trans hst, .inl ⟨rfl, rfl, rfl⟩⟩
  | accept j =>
    obtain ⟨st₁, hst₁, hs⟩ := Option.bind_eq_some_iff.mp hs
    split at hs
    next response rest hout =>
      cases hs
      cases response with
      | cluster nonce =>
        have hnone : w.system.applied (.accept j) = none := by
          simp [System.applied, hst₁, hout]
        simp only [hnone]
        exact follows_insert hst hst₁ (fun k => FiniteMap.lookup_insert_ite _ _ _ _) rfl
          (fun _ => rfl) (.acceptCluster hout)
      | listener nonce push =>
        have hsome : w.system.applied (.accept j) = some (st₁.envoy, push) := by
          simp [System.applied, hst₁, hout]
        simp only [hsome]
        refine follows_insert hst hst₁ (fun k => FiniteMap.lookup_insert_ite _ _ _ _) rfl ?_ ?_
        · intro hj
          have hshares := hquiet.resolve_left hj
          simp only [System.sharesEnvoy, hst, hst₁, decide_eq_false_iff_not] at hshares
          exact Function.update_of_ne hshares _ _
        · simp only [Function.update_self]
          exact .acceptListener hout
    next => cases hs
  | reject j message =>
    obtain ⟨st₁, hst₁, hs⟩ := Option.bind_eq_some_iff.mp hs
    split at hs
    next response rest hout =>
      cases hs
      have hne : i ≠ j := Ne.symm hquiet
      exact ⟨st, (AList.lookup_insert_ne hne).trans hst, .inl ⟨rfl, rfl, rfl⟩⟩
    next => cases hs

-- ════════════════════════════════════════════════════════════════════════
-- Quiet runs
-- ════════════════════════════════════════════════════════════════════════

/-- What a quiet run from `w` keeps, for the stream that was `st`. -/
structure Still (i : Nat) (w : Listening) (st : AdsStream) (t : Listening) : Prop where
  inv : ListenInv t
  bumped : t.system.Bumped
  generation : t.system.store.generation = w.system.store.generation
  stream : ∃ st', t.system.streams.lookup i = some st' ∧ st'.envoy = st.envoy ∧
    st.nonceCounter ≤ st'.nonceCounter ∧ (Due w st → Due t st')

/-- The steps stream `i` may still take. -/
def Listening.work (i : Nat) (t : Listening) : Nat :=
  match t.system.streams.lookup i with
  | some st => st.cost 1 0 t.system.store.generation
  | none => 0

/-- The responses stream `i` has sent and may still send. -/
def Listening.responses (i : Nat) (t : Listening) : Nat :=
  match t.system.streams.lookup i with
  | some st => st.nonceCounter + st.cost 0 1 t.system.store.generation
  | none => 0

theorem noWrap_of_quiet (hquiet : Quiet i w a) : NoWrap w a := by
  cases a with
  | handler h =>
    intro hunbumped
    have hany : (w.system.handlers.lookup h).any HandlerPc.isMutating = false := hquiet
    cases hpc : w.system.handlers.lookup h with
    | none => simp [hpc] at hunbumped
    | some pc =>
      rw [hpc] at hunbumped hany
      cases pc <;> simp_all [HandlerPc.isUnbumped, HandlerPc.isMutating]
  | _ => trivial

theorem quiet_step (hquiet : Quiet i w a) (hnext : (listening state).next w a = some w')
    (inv : ListenInv w) (hbumped : w.system.Bumped) (hst : w.system.streams.lookup i = some st) :
    w'.system.Bumped ∧ w'.system.store.generation = w.system.store.generation ∧
      Follows i w a w' st := by
  by_cases ha : a.handler? = none
  · obtain ⟨s, hs, rfl⟩ := Option.map_eq_some_iff.mp hnext
    have hframe := (System.stream_frame inv.labels.read ha hs).1
    refine ⟨?_, hframe.generation, quiet_stream hquiet hst hnext ha⟩
    rw [System.Bumped, hframe.handlers]
    exact hbumped
  · obtain ⟨s, hs, rfl⟩ := Option.map_eq_some_iff.mp hnext
    obtain ⟨hstreams, hstore, hbumped'⟩ := quiet_handler hquiet hbumped hs ha
    refine ⟨hbumped', by rw [hstore], st, by rw [hstreams]; exact hst, .inl ?_⟩
    cases a with
    | post h body => exact ⟨rfl, rfl, rfl⟩
    | delete h id => exact ⟨rfl, rfl, rfl⟩
    | handler h => exact ⟨rfl, rfl, rfl⟩
    | expire h => exact ⟨rfl, rfl, rfl⟩
    | _ => exact absurd rfl ha

theorem Still.refl (inv : ListenInv w) (hbumped : w.system.Bumped)
    (hst : w.system.streams.lookup i = some st) : Still i w st w :=
  ⟨inv, hbumped, rfl, st, hst, rfl, le_rfl, id⟩

/-- **Step lemma**: a quiet step keeps what is owed, and a step of the stream
    uses up work. -/
theorem Still.step {t t' : Listening} (still : Still i w st t) (hquiet : Quiet i t a)
    (hnext : (listening state).next t a = some t') :
    Still i w st t' ∧ (if OnStream i a then 1 else 0) + t'.work i ≤ t.work i ∧
      t'.responses i ≤ t.responses i := by
  obtain ⟨st₁, hst₁, henvoy, hnonce, hdue⟩ := still.stream
  obtain ⟨hbumped, hgen, st₂, hst₂, hmove⟩ :=
    quiet_step hquiet hnext still.inv still.bumped hst₁
  have inv := still.inv.step (noWrap_of_quiet hquiet) hnext
  simp only [Listening.work, Listening.responses, hst₁, hst₂, hgen]
  rcases hmove with ⟨hoff, rfl, hheld⟩ | ⟨hon, hmove⟩
  · refine ⟨⟨inv, hbumped, hgen.trans still.generation, st₂, hst₂, henvoy, hnonce, ?_⟩, ?_, le_rfl⟩
    · intro hw
      have hsame := hdue hw
      rw [Due] at hsame ⊢
      rw [hgen, hheld]
      exact hsame
    · simp [hoff]
  · obtain ⟨henvoy₂, hwork⟩ := hmove.cost 1 0 still.inv.labels.bound
    obtain ⟨-, hresponses⟩ := hmove.cost 0 1 still.inv.labels.bound
    refine ⟨⟨inv, hbumped, hgen.trans still.generation, st₂, hst₂, henvoy₂.trans henvoy, ?_, ?_⟩,
      ?_, ?_⟩
    · rcases hwork with ⟨hnonce₂, -⟩ | ⟨hnonce₂, -⟩ <;> omega
    · intro hw
      have hsame := hmove.due still.inv.labels.bound (hdue hw)
      rw [Due, hgen, henvoy₂]
      exact hsame
    · simp only [hon, if_true]
      rcases hwork with ⟨-, hwork⟩ | ⟨-, hwork⟩ <;> omega
    · rcases hresponses with ⟨hnonce₂, hcost⟩ | ⟨hnonce₂, hcost⟩ <;> omega

/-- A stream that is not at rest has a step. -/
theorem stream_progress (hst : w.system.streams.lookup i = some st) :
    st.AtRest w.system.store.generation ∨
      ∃ a, OnStream i a = true ∧ Quiet i w a ∧ ((listening state).next w a).isSome = true := by
  have hstep : ∀ a s, OnStream i a = true → Quiet i w a → w.system.next state a = some s →
      ∃ a, OnStream i a = true ∧ Quiet i w a ∧ ((listening state).next w a).isSome = true := by
    intro a s hon hquiet hs
    exact ⟨a, hon, hquiet, by simp [listening, hs]⟩
  have hself : decide (i = i) = true := decide_eq_true rfl
  cases hpc : st.pc with
  | select =>
    cases hin : st.inbound with
    | cons req rest =>
      obtain ⟨out, hrecv⟩ : ∃ out, st.receive w.system.store = some out := by
        unfold AdsStream.receive
        simp only [hpc, hin]
        split
        next => exact ⟨_, rfl⟩
        next =>
          split
          next => split <;> exact ⟨_, rfl⟩
          next => split <;> exact ⟨_, rfl⟩
          next => exact ⟨_, rfl⟩
      exact .inr (hstep (.receive i) _ hself trivial (by simp [System.next, hst, hrecv]; rfl))
    | nil =>
      cases hout : st.outbound with
      | cons response rest =>
        exact .inr (hstep (.accept i) _ hself (.inl rfl) (by simp [System.next, hst, hout]; rfl))
      | nil =>
        by_cases hseen : st.seen = w.system.store.generation
        · exact .inl ⟨hpc, hin, hout, hseen⟩
        · have htick : st.tick w.system.store = some { st with
              seen := w.system.store.generation, pc := .snapshot w.system.store.generation } :=
            if_pos ⟨hpc, hseen⟩
          exact .inr (hstep (.tick i) _ hself trivial (by simp [System.next, hst, htick]; rfl))
  | opened =>
    have hadv : st.advance w.system.store = some { st with
        pc := .select, seen := w.system.store.generation } := by simp [AdsStream.advance, hpc]
    exact .inr (hstep (.stream i) _ hself trivial (by simp [System.next, hst, hadv]; rfl))
  | compare envoyHas =>
    obtain ⟨st', hadv⟩ : ∃ st', st.advance w.system.store = some st' := by
      unfold AdsStream.advance
      simp only [hpc]
      split <;> exact ⟨_, rfl⟩
    exact .inr (hstep (.stream i) _ hself trivial (by simp [System.next, hst, hadv]; rfl))
  | snapshot version =>
    obtain ⟨st', hadv⟩ : ∃ st', st.advance w.system.store = some st' := by
      simp [AdsStream.advance, hpc]
    exact .inr (hstep (.stream i) _ hself trivial (by simp [System.next, hst, hadv]; rfl))
  | yield p =>
    obtain ⟨st', hadv⟩ : ∃ st', st.advance w.system.store = some st' := by
      simp [AdsStream.advance, hpc]
    exact .inr (hstep (.stream i) _ hself trivial (by simp [System.next, hst, hadv]; rfl))

theorem sum_map_onStream (as : List Action) :
    (as.map fun a => if OnStream i a then 1 else 0).sum = as.countP (OnStream i) := by
  induction as with
  | nil => rfl
  | cons a as ih =>
    rw [List.map_cons, List.sum_cons, List.countP_cons, ih, Nat.add_comm]

/-- **No ack storm**: a stream whose store is left alone sends at most four
    responses more than there are messages in flight, comes to rest, and envoy
    then holds the listener of the final table if it was due. -/
theorem no_ack_storm (hreach : (listening state).ReachableUnder NoWrap w)
    (hbumped : w.system.Bumped) : NoAckStorm state i Due w := by
  intro st as w' hst hexec
  have inv : ListenInv w := hreach.invariant (fun _ hstart => ListenInv.start hstart)
    fun _ _ _ inv hguard hnext => inv.step hguard hnext
  have hstill := Still.refl inv hbumped hst
  obtain ⟨still, hwork⟩ := Machine.execUnder_potential (P := Still i w st)
    (fun t a t' still hquiet hnext =>
      ⟨(still.step hquiet hnext).1, (still.step hquiet hnext).2.1⟩) hexec hstill
  obtain ⟨-, hresponses⟩ := Machine.execUnder_potential (P := Still i w st)
    (fun t a t' still hquiet hnext =>
      ⟨(still.step hquiet hnext).1, (Nat.zero_add _).trans_le (still.step hquiet hnext).2.2⟩)
    hexec hstill
  obtain ⟨st', hst', henvoy, -, hdue⟩ := still.stream
  refine ⟨st', hst', ?_, ?_, stream_progress hst', ?_⟩
  · have hmost := st.cost_responses w.system.store.generation
    simp only [Listening.responses, hst, hst'] at hresponses
    omega
  · have hmost := st.cost_steps w.system.store.generation
    rw [sum_map_onStream] at hwork
    simp only [Listening.work, hst] at hwork
    omega
  · intro hw hrest
    obtain ⟨p, hheld, hversion⟩ := hrest.held_current (hdue hw)
    have hemitted : Emitted w'.system p := .inl (still.inv.held _ p hheld)
    exact ⟨p, hheld, still.inv.labels.current p hemitted hversion still.bumped⟩

-- ════════════════════════════════════════════════════════════════════════
-- Runs
-- ════════════════════════════════════════════════════════════════════════

private def freshListening : Listening := ⟨⟨SessionStore.new, ∅, ∅, fun _ => "", []⟩, fun _ => none⟩

private theorem freshListening_start (state : AppState) :
    (listening state).Start freshListening := ⟨⟨⟨[], rfl⟩, rfl, rfl, rfl⟩, fun _ => rfl⟩

private def gitPost : PostBody where
  sessionId := some "mcp_session_f6"
  containerIp := some "172.20.0.6"
  tenant := some "acme"
  workspace := some "main"
  plugin := some "git"
  egressPolicy := none

/-- A record is stored, and an envoy that subscribes is sent its listener. -/
private def pushedRun : List Action :=
  [.post 0 (some gitPost), .handler 0, .connect 0 0, .stream 0, .subscribe 0 .listener,
    .receive 0, .stream 0, .stream 0, .stream 0]

private def Listening.first (w : Listening) (p : AdsStream → Bool) : Bool :=
  (w.system.streams.lookup 0).any p

theorem no_ack_storm_pushed_run :
    ∃ w st, w.system.streams.lookup 0 = some st ∧ st.outbound.length = 1 ∧
      NoAckStorm ⟨"5s", false⟩ 0 Due w := by
  have hexec : ((listening ⟨"5s", false⟩).execUnder NoWrap freshListening pushedRun).any
      (fun w => decide w.system.Bumped && w.first fun st => decide (st.outbound.length = 1)) =
      true := by decide +kernel
  obtain ⟨w, hrun, hw⟩ := Machine.exists_run_of_execUnder _ hexec
  obtain ⟨hbumped, hfirst⟩ := Bool.and_eq_true_iff.mp hw
  obtain ⟨st, hst, hlength⟩ := (Option.any_eq_true _ _).mp hfirst
  exact ⟨w, st, hst, of_decide_eq_true hlength,
    no_ack_storm ⟨freshListening, freshListening_start _, hrun⟩ (of_decide_eq_true hbumped)⟩

/-- Envoy rejects that listener. -/
private def rejectedRun : List Action := pushedRun ++ [.reject 0 "bad listener", .receive 0]

theorem rejected_push_is_not_repeated :
    ¬ ∀ state i w, (listening state).ReachableUnder NoWrap w → w.system.Bumped →
      NoAckStorm state i (fun _ _ => True) w := by
  intro hclaim
  have hexec : ((listening ⟨"5s", false⟩).execUnder NoWrap freshListening rejectedRun).any
      (fun w => decide w.system.Bumped && w.first fun st => decide (st.pc = .select ∧
        st.inbound = [] ∧ st.outbound = [] ∧ st.seen = w.system.store.generation ∧
        w.held st.envoy = none)) = true := by decide +kernel
  obtain ⟨w, hrun, hw⟩ := Machine.exists_run_of_execUnder _ hexec
  obtain ⟨hbumped, hfirst⟩ := Bool.and_eq_true_iff.mp hw
  obtain ⟨st, hst, hst'⟩ := (Option.any_eq_true _ _).mp hfirst
  obtain ⟨hpc, hin, hout, hseen, hheld⟩ := of_decide_eq_true hst'
  obtain ⟨st', hlook, hcalm⟩ := hclaim ⟨"5s", false⟩ 0 w
    ⟨freshListening, freshListening_start _, hrun⟩ (of_decide_eq_true hbumped) st [] w hst rfl
  rw [hst] at hlook
  cases hlook
  obtain ⟨p, hp, -⟩ := hcalm.settled trivial ⟨hpc, hin, hout, hseen⟩
  rw [hheld] at hp
  cases hp

end Botwork.ControlPlane
