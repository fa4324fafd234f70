import Botwork.ControlPlane.Xds

/-!
# Pushes in flight

What the steps of streams and envoys do to the system: they leave handlers and
table alone, only a listener request moves the gauge, and every push they add is
compiled from the table under a version read before it.

## Main definitions

- `AdsStream.Carries`, `Emitted` — the pushes of this process
- `StreamFrame` — what every step of a stream or an envoy leaves alone
-/

namespace Botwork.ControlPlane

open Botwork.Foundations

variable {state : AppState} {s s' : System} {a : Action}

/-- The version the next request of a stream puts on the gauge, if any. -/
def AdsStream.reports (st : AdsStream) : Option Nat :=
  match st.pc, st.inbound with
  | .select, req :: _ =>
    if req.errorDetail.isSome then none
    else if req.typeUrl = .listener then req.envoyHas
    else none
  | _, _ => none

-- ════════════════════════════════════════════════════════════════════════
-- Pushes in flight
-- ════════════════════════════════════════════════════════════════════════

/-- The push is compiled or shipped on this stream and not answered yet. -/
def AdsStream.Carries (st : AdsStream) (p : LdsPush) : Prop :=
  st.pc = .yield p ∨ ∃ n, .listener n p ∈ st.outbound

/-- The push exists: some stream carries it, or it has been acknowledged. -/
def Emitted (s : System) (p : LdsPush) : Prop :=
  p ∈ s.acked ∨ ∃ i st, s.streams.lookup i = some st ∧ st.Carries p

/-- What every step of a stream or an envoy leaves alone, and where the pushes
    it adds come from. -/
structure StreamFrame (s s' : System) : Prop where
  handlers : s'.handlers = s.handlers
  inner : s'.store.inner = s.store.inner
  generation : s'.store.generation = s.store.generation
  acked : ∀ p ∈ s.acked, p ∈ s'.acked
  emitted : ∀ p, Emitted s' p → Emitted s p ∨ p.snapshot = s.store.list ∧
    p.version ≤ s.store.generation
  snapshot : ∀ i st v, s'.streams.lookup i = some st → st.pc = .snapshot v →
    v ≤ s.store.generation

/-- Replacing one stream adds only what the new stream carries and what envoy
    has just acknowledged. -/
theorem StreamFrame.insert
    (hsnap : ∀ i st v, s.streams.lookup i = some st → st.pc = .snapshot v →
      v ≤ s.store.generation) {i : Nat} {st : AdsStream} {store : SessionStore}
    {lastAccepted : Nat → String} {acked : List LdsPush}
    (hinner : store.inner = s.store.inner) (hgen : store.generation = s.store.generation)
    (hold : ∀ p ∈ s.acked, p ∈ acked) (hnew : ∀ p ∈ acked, Emitted s p)
    (hcarries : ∀ p, st.Carries p → Emitted s p ∨
      p.snapshot = s.store.list ∧ p.version ≤ s.store.generation)
    (hsnapshot : ∀ v, st.pc = .snapshot v → v ≤ s.store.generation) :
    StreamFrame s ⟨store, s.handlers, s.streams.insert i st, lastAccepted, acked⟩ := by
  refine ⟨rfl, hinner, hgen, hold, ?_, ?_⟩
  · rintro p (hp | ⟨j, st₁, hst₁, hp⟩)
    · exact Or.inl (hnew p hp)
    · simp only [FiniteMap.lookup_insert_ite] at hst₁
      split at hst₁
      next => cases hst₁; exact hcarries p hp
      next => exact Or.inl (Or.inr ⟨j, st₁, hst₁, hp⟩)
  · intro j st₁ v hst₁ hpc
    simp only [FiniteMap.lookup_insert_ite] at hst₁
    split at hst₁
    next => cases hst₁; exact hsnapshot v hpc
    next => exact hsnap j st₁ v hst₁ hpc

/-- A step that only rearranges messages between a stream and its envoy. -/
theorem StreamFrame.rearrange
    (hsnap : ∀ i st v, s.streams.lookup i = some st → st.pc = .snapshot v →
      v ≤ s.store.generation) {i : Nat} {st st' : AdsStream}
    (hst : s.streams.lookup i = some st) (hpc : st'.pc = st.pc)
    (hout : ∀ response ∈ st'.outbound, response ∈ st.outbound) :
    StreamFrame s (s.setStream i st') := by
  refine StreamFrame.insert hsnap rfl rfl (fun p hp => hp) (fun p hp => Or.inl hp) ?_ ?_
  · rintro p (hp | ⟨n, hp⟩)
    · exact Or.inl (Or.inr ⟨i, st, hst, Or.inl (hpc ▸ hp)⟩)
    · exact Or.inl (Or.inr ⟨i, st, hst, Or.inr ⟨n, hout _ hp⟩⟩)
  · intro v hv
    exact hsnap i st v hst (hpc ▸ hv)

/-- A request handled by the stream task touches the gauge only by the version
    it reports, and adds no listener push. -/
theorem AdsStream.receive_cases {store store' : SessionStore} {st st' : AdsStream}
    (h : st.receive store = some (store', st')) :
    (store' = store ∨ ∃ v, st.reports = some v ∧ store' = store.recordAckedVersion v) ∧
      (∀ p, st'.Carries p → st.Carries p) ∧ ∀ v, st'.pc ≠ .snapshot v := by
  unfold AdsStream.receive at h
  split at h
  next req rest hpc hin =>
    simp only at h
    split at h
    next => cases h; exact ⟨Or.inl rfl, fun p hp => hp, by simp [hpc]⟩
    next herr =>
      split at h
      next htype =>
        split at h
        next v hv =>
          cases h
          refine ⟨Or.inr ⟨v, ?_, rfl⟩, ?_, by simp⟩
          · simp [AdsStream.reports, hpc, hin, herr, htype, hv]
          · rintro p (hp | hp)
            · cases hp
            · exact Or.inr hp
        next =>
          cases h
          refine ⟨Or.inl rfl, ?_, by simp⟩
          rintro p (hp | hp)
          · cases hp
          · exact Or.inr hp
      next =>
        split at h
        next => cases h; exact ⟨Or.inl rfl, fun p hp => hp, by simp [hpc]⟩
        next =>
          cases h
          refine ⟨Or.inl rfl, ?_, by simp [AdsStream.send, hpc]⟩
          rintro p (hp | ⟨n, hp⟩)
          · exact Or.inl hp
          · exact Or.inr ⟨n, by simpa [AdsStream.send] using hp⟩
      next => cases h; exact ⟨Or.inl rfl, fun p hp => hp, by simp [hpc]⟩
  next => cases h

/-- The other accesses of a stream task: a snapshot is labelled with a version
    read before it. -/
theorem AdsStream.advance_cases {store : SessionStore} {st st' : AdsStream}
    (h : st.advance store = some st') :
    (∀ p, st'.Carries p → st.Carries p ∨ p.snapshot = store.list ∧ st.pc = .snapshot p.version) ∧
      ∀ v, st'.pc = .snapshot v → v = store.generation := by
  unfold AdsStream.advance at h
  split at h
  next hpc =>
    cases h
    refine ⟨?_, by simp⟩
    rintro p (hp | hp)
    · cases hp
    · exact Or.inl (Or.inr hp)
  next => cases h
  next has hpc =>
    split at h
    next =>
      cases h
      refine ⟨?_, by simp⟩
      rintro p (hp | hp)
      · cases hp
      · exact Or.inl (Or.inr hp)
    next =>
      cases h
      refine ⟨?_, fun v hv => (StreamPc.snapshot.inj hv).symm⟩
      rintro p (hp | hp)
      · cases hp
      · exact Or.inl (Or.inr hp)
  next version hpc =>
    cases h
    refine ⟨?_, by simp⟩
    rintro p (hp | hp)
    · cases hp
      exact Or.inr ⟨rfl, hpc⟩
    · exact Or.inl (Or.inr hp)
  next push hpc =>
    cases h
    refine ⟨?_, by simp⟩
    rintro p (hp | ⟨n, hp⟩)
    · cases hp
    · simp only [AdsStream.send, List.mem_append, List.mem_singleton] at hp
      rcases hp with hp | hp
      · exact Or.inl (Or.inr ⟨n, hp⟩)
      · cases hp
        exact Or.inl (Or.inl hpc)

theorem AdsStream.receive_inner {store store' : SessionStore} {st st' : AdsStream}
    (h : st.receive store = some (store', st')) : store'.inner = store.inner := by
  unfold AdsStream.receive at h
  split at h
  next =>
    simp only at h
    split at h
    next => cases h; rfl
    next =>
      split at h
      next =>
        split at h
        next => cases h; rfl
        next => cases h; rfl
      next =>
        split at h
        next => cases h; rfl
        next => cases h; rfl
      next => cases h; rfl
  next => cases h

/-- The handler an action moves, if any. -/
def Action.handler? : Action → Option Nat
  | .post h _ | .delete h _ | .handler h | .expire h => some h
  | _ => none

/-- The mutation the first section of a handler has performed. -/
def System.begun (s : System) : Action → List (Nat × Mutation)
  | .post h _ | .delete h _ =>
    match s.handlers.lookup h with
    | some (.bump m) => [(h, m)]
    | _ => []
  | _ => []

/-- Only handlers touch the table. -/
theorem System.next_cases (hnext : s.next state a = some s') :
    (∃ h store pc, s' = s.setHandler h store pc ∧
      ((∃ body, a = .post h body ∧ s.handlers.lookup h = none ∧
          HandlerPc.post s.store body = (store, pc)) ∨
        (∃ id, a = .delete h id ∧ s.handlers.lookup h = none ∧
          HandlerPc.delete s.store id = (store, pc)) ∨
        (∃ old, a = .handler h ∧ s.handlers.lookup h = some old ∧
          old.advance state s.store = some (store, pc)) ∨
        ∃ old, a = .expire h ∧ s.handlers.lookup h = some old ∧ old.expire = some pc ∧
          store = s.store)) ∨
    a.handler? = none ∧ s'.handlers = s.handlers ∧ s'.store.inner = s.store.inner ∧
      s'.begun a = [] := by
  cases a with
  | post h body =>
    simp only [System.next] at hnext
    split at hnext
    next => cases hnext
    next hfree =>
      cases hnext
      exact .inl ⟨h, _, _, rfl, .inl ⟨body, rfl, by simpa using hfree, rfl⟩⟩
  | delete h id =>
    simp only [System.next] at hnext
    split at hnext
    next => cases hnext
    next hfree =>
      cases hnext
      exact .inl ⟨h, _, _, rfl, .inr (.inl ⟨id, rfl, by simpa using hfree, rfl⟩)⟩
  | handler h =>
    obtain ⟨old, hold, hnext⟩ := Option.bind_eq_some_iff.mp hnext
    obtain ⟨⟨store, pc⟩, hadv, heq⟩ := Option.bind_eq_some_iff.mp hnext
    cases heq
    exact .inl ⟨h, store, pc, rfl, .inr (.inr (.inl ⟨old, rfl, hold, hadv⟩))⟩
  | expire h =>
    obtain ⟨old, hold, hnext⟩ := Option.bind_eq_some_iff.mp hnext
    obtain ⟨pc, hexp, heq⟩ := Option.bind_eq_some_iff.mp hnext
    cases heq
    exact .inl ⟨h, s.store, pc, rfl, .inr (.inr (.inr ⟨old, rfl, hold, hexp, rfl⟩))⟩
  | connect i envoy =>
    simp only [System.next] at hnext
    split at hnext
    next => cases hnext
    next => cases hnext; exact .inr ⟨rfl, rfl, rfl, rfl⟩
  | disconnect i =>
    simp only [System.next] at hnext
    split at hnext
    next => cases hnext
    next => cases hnext; exact .inr ⟨rfl, rfl, rfl, rfl⟩
  | receive i =>
    obtain ⟨st, hst, hnext⟩ := Option.bind_eq_some_iff.mp hnext
    obtain ⟨⟨store, st'⟩, hrecv, heq⟩ := Option.bind_eq_some_iff.mp hnext
    cases heq
    exact .inr ⟨rfl, rfl, AdsStream.receive_inner hrecv, rfl⟩
  | tick i =>
    obtain ⟨st, hst, hnext⟩ := Option.bind_eq_some_iff.mp hnext
    obtain ⟨st', htick, heq⟩ := Option.bind_eq_some_iff.mp hnext
    cases heq
    exact .inr ⟨rfl, rfl, rfl, rfl⟩
  | stream i =>
    obtain ⟨st, hst, hnext⟩ := Option.bind_eq_some_iff.mp hnext
    obtain ⟨st', hadv, heq⟩ := Option.bind_eq_some_iff.mp hnext
    cases heq
    exact .inr ⟨rfl, rfl, rfl, rfl⟩
  | subscribe i typeUrl =>
    obtain ⟨st, hst, heq⟩ := Option.bind_eq_some_iff.mp hnext
    cases heq
    exact .inr ⟨rfl, rfl, rfl, rfl⟩
  | accept i =>
    obtain ⟨st, hst, hnext⟩ := Option.bind_eq_some_iff.mp hnext
    split at hnext
    next response rest hout =>
      cases hnext
      cases response <;> exact .inr ⟨rfl, rfl, rfl, rfl⟩
    next => cases hnext
  | reject i message =>
    obtain ⟨st, hst, hnext⟩ := Option.bind_eq_some_iff.mp hnext
    split at hnext
    next => cases hnext; exact .inr ⟨rfl, rfl, rfl, rfl⟩
    next => cases hnext

/-- **Frame rule**: what a step of a stream or an envoy does. -/
theorem System.stream_frame
    (hsnap : ∀ i st v, s.streams.lookup i = some st → st.pc = .snapshot v →
      v ≤ s.store.generation)
    (ha : a.handler? = none) (hnext : s.next state a = some s') :
    StreamFrame s s' ∧ (s'.store.ackedVersion = s.store.ackedVersion ∨
      ∃ i st v, a = .receive i ∧ s.streams.lookup i = some st ∧ st.reports = some v ∧
        s.store.ackedVersion < v ∧ s'.store.ackedVersion = v) := by
  cases a with
  | post h body => cases ha
  | delete h id => cases ha
  | handler h => cases ha
  | expire h => cases ha
  | connect i envoy =>
    simp only [System.next, Option.ite_none_left_eq_some, Option.some.injEq] at hnext
    obtain ⟨-, rfl⟩ := hnext
    refine ⟨StreamFrame.insert hsnap rfl rfl (fun p hp => hp) (fun p hp => Or.inl hp) ?_ ?_,
      Or.inl rfl⟩
    · rintro p (hp | ⟨n, hp⟩)
      · cases hp
      · cases hp
    · intro v hv
      cases hv
  | disconnect i =>
    simp only [System.next, Option.ite_none_left_eq_some, Option.some.injEq] at hnext
    obtain ⟨-, rfl⟩ := hnext
    refine ⟨⟨rfl, rfl, rfl, fun p hp => hp, ?_, ?_⟩, Or.inl rfl⟩
    · rintro p (hp | ⟨j, st, hst, hp⟩)
      · exact Or.inl (Or.inl hp)
      · simp only [FiniteMap.lookup_erase_ite] at hst
        split at hst
        next => cases hst
        next => exact Or.inl (Or.inr ⟨j, st, hst, hp⟩)
    · intro j st v hst hpc
      simp only [FiniteMap.lookup_erase_ite] at hst
      split at hst
      next => cases hst
      next => exact hsnap j st v hst hpc
  | receive i =>
    obtain ⟨st, hst, hnext⟩ := Option.bind_eq_some_iff.mp hnext
    obtain ⟨⟨store, st'⟩, hrecv, heq⟩ := Option.bind_eq_some_iff.mp hnext
    cases heq
    obtain ⟨hstore, hcarries, hpc⟩ := AdsStream.receive_cases hrecv
    have hgen : store.generation = s.store.generation := by
      rcases hstore with rfl | ⟨v, -, rfl⟩ <;> rfl
    refine ⟨StreamFrame.insert hsnap (AdsStream.receive_inner hrecv) hgen (fun p hp => hp)
      (fun p hp => Or.inl hp) (fun p hp => Or.inl (Or.inr ⟨i, st, hst, hcarries p hp⟩))
      fun v hv => absurd hv (hpc v), ?_⟩
    rcases hstore with rfl | ⟨v, hv, rfl⟩
    · exact Or.inl rfl
    · by_cases hlt : s.store.ackedVersion < v
      · exact Or.inr ⟨i, st, v, rfl, hst, hv, hlt, if_pos hlt⟩
      · exact Or.inl (if_neg hlt)
  | tick i =>
    obtain ⟨st, hst, hnext⟩ := Option.bind_eq_some_iff.mp hnext
    obtain ⟨st', htick, heq⟩ := Option.bind_eq_some_iff.mp hnext
    cases heq
    unfold AdsStream.tick at htick
    split at htick
    next =>
      cases htick
      refine ⟨StreamFrame.insert hsnap rfl rfl (fun p hp => hp) (fun p hp => Or.inl hp) ?_ ?_,
        Or.inl rfl⟩
      · rintro p (hp | hp)
        · cases hp
        · exact Or.inl (Or.inr ⟨i, st, hst, Or.inr hp⟩)
      · intro v hv
        cases hv
        exact le_rfl
    next => cases htick
  | stream i =>
    obtain ⟨st, hst, hnext⟩ := Option.bind_eq_some_iff.mp hnext
    obtain ⟨st', hadv, heq⟩ := Option.bind_eq_some_iff.mp hnext
    cases heq
    obtain ⟨hcarries, hpc⟩ := AdsStream.advance_cases hadv
    refine ⟨StreamFrame.insert hsnap rfl rfl (fun p hp => hp) (fun p hp => Or.inl hp) ?_
      fun v hv => (hpc v hv).le, Or.inl rfl⟩
    intro p hp
    rcases hcarries p hp with hp | ⟨hsnapshot, hread⟩
    · exact Or.inl (Or.inr ⟨i, st, hst, hp⟩)
    · exact Or.inr ⟨hsnapshot, hsnap i st _ hst hread⟩
  | subscribe i typeUrl =>
    obtain ⟨st, hst, heq⟩ := Option.bind_eq_some_iff.mp hnext
    cases heq
    exact ⟨StreamFrame.rearrange hsnap hst rfl fun _ hr => hr, Or.inl rfl⟩
  | accept i =>
    obtain ⟨st, hst, hnext⟩ := Option.bind_eq_some_iff.mp hnext
    split at hnext
    next response rest hout =>
      cases hnext
      have hrest : ∀ r ∈ rest, r ∈ st.outbound := fun r hr => hout ▸ List.mem_cons_of_mem _ hr
      cases response with
      | cluster n => exact ⟨StreamFrame.rearrange hsnap hst rfl hrest, Or.inl rfl⟩
      | listener n push =>
        have hpush : Emitted s push :=
          Or.inr ⟨i, st, hst, Or.inr ⟨n, hout ▸ List.mem_cons_self⟩⟩
        refine ⟨StreamFrame.insert hsnap rfl rfl (fun p hp => List.mem_cons_of_mem _ hp)
          ?_ ?_ fun v hv => hsnap i st v hst hv, Or.inl rfl⟩
        · intro p hp
          rcases List.mem_cons.mp hp with rfl | hp
          · exact hpush
          · exact Or.inl hp
        · rintro p (hp | ⟨m, hp⟩)
          · exact Or.inl (Or.inr ⟨i, st, hst, Or.inl hp⟩)
          · exact Or.inl (Or.inr ⟨i, st, hst, Or.inr ⟨m, hrest _ hp⟩⟩)
    next => cases hnext
  | reject i message =>
    obtain ⟨st, hst, hnext⟩ := Option.bind_eq_some_iff.mp hnext
    split at hnext
    next response rest hout =>
      cases hnext
      exact ⟨StreamFrame.rearrange hsnap hst rfl fun r hr => hout ▸ List.mem_cons_of_mem _ hr,
        Or.inl rfl⟩
    next => cases hnext

end Botwork.ControlPlane
