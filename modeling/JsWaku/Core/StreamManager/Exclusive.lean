import JsWaku.Core.StreamManager.Model

/-!
# Streams of different calls

`getStream` locks a stream that `newStream` has opened only when it goes on after the promise has resolved. A lookup
before that finds the stream unlocked, so that two calls return it (`stream_returned_twice`). Where no lookup finds a
stream that `newStream` has opened for another call, all calls return different streams (`streams_exclusive`); a lookup
that does can be continued to a second return (`second_return`).
-/

namespace JsWaku.StreamManager

open Transition

/-! ## The streams of calls -/

/-- The stream that `newStream` has opened for the call of `getStream`. -/
def Task.owed : Task → Option ℕ
  | .creating .getStream _ (.opened stream) => some stream
  | _ => none

namespace State

/-- The streams that `newStream` has opened for calls of `getStream` that have not gone on. -/
def owed (s : State) : List ℕ := s.tasks.filterMap Task.owed

/-- The streams of the connections. -/
def streams (s : State) : List Stream := s.connections.flatMap (·.streams)

end State

/-- No lookup of `getStream` finds a stream that `newStream` has opened for another call. -/
def FindsUnowed (multicodec : String) (s : State) : Event → Prop
  | .getStream peerId =>
    s.streamPool.get peerId = none → ∀ stream ∈ s.getOpenStreamForCodec multicodec peerId, stream.id ∉ s.owed
  | .scheduledSettled peerId _ =>
    ∀ stream ∈ s.getOpenStreamForCodec multicodec peerId, stream.id ∉ s.owed
  | _ => True

instance (multicodec : String) (s : State) : ∀ e : Event, Decidable (FindsUnowed multicodec s e)
  | .getStream peerId =>
    inferInstanceAs (Decidable (s.streamPool.get peerId = none → ∀ stream ∈ s.getOpenStreamForCodec multicodec peerId, _))
  | .scheduledSettled peerId _ =>
    inferInstanceAs (Decidable (∀ stream ∈ s.getOpenStreamForCodec multicodec peerId, _))
  | .peerUpdate _ _ | .newStreamOpened _ _ _ _ | .newStreamResolved _ _ _ | .newStreamRejected _ _ _
  | .connectionOpened _ _ _ _ | .connectionStatus _ _ | .connectionRemoved _ | .streamOpened _ _ _ | .streamStatus _ _
  | .streamRemoved _ => inferInstanceAs (Decidable True)

/-- What was returned and what is owed are different streams, and what was returned is locked. -/
structure Exclusive (s : State) : Prop where
  nodup : (s.returned ++ s.owed).Nodup
  used : ∀ id ∈ s.returned ++ s.owed, id < s.nextStream
  present : ∀ x ∈ s.streams, x.id < s.nextStream
  locked : ∀ x ∈ s.streams, x.id ∈ s.returned → x.consumed = true

section

variable {multicodec : String} {s s' : State} {peerId : PeerId} {t : Task}

theorem resume_eq (h : s.resume t = some s') : s' = { s with tasks := s.tasks.erase t } ∧ t ∈ s.tasks := by
  obtain ⟨tasks, htake, rfl⟩ := Option.map_eq_some_iff.1 h
  obtain ⟨hmem, rfl⟩ := take_eq_some.1 htake
  exact ⟨rfl, hmem⟩

theorem resume_of_mem (h : t ∈ s.tasks) : ∃ s', s.resume t = some s' :=
  ⟨_, Option.map_eq_some_iff.2 ⟨_, take_eq_some.2 ⟨h, rfl⟩, rfl⟩⟩

theorem owed_spawn (s : State) (t : Task) : (s.spawn t).owed = s.owed ++ t.owed.toList := by
  rw [State.owed, State.spawn, List.filterMap_append, ← State.owed]
  cases h : t.owed <;> simp [h]

theorem perm_owed_resume (h : s.resume t = some s') : s.owed.Perm (t.owed.toList ++ s'.owed) := by
  obtain ⟨rfl, hmem⟩ := resume_eq h
  refine ((List.perm_cons_erase hmem).filterMap Task.owed).trans ?_
  rw [List.filterMap_cons]
  cases t.owed <;> exact List.Perm.refl _

/-- A stream that a lookup finds is there, and not locked. -/
theorem getOpenStreamForCodec_spec {stream : Stream} (h : s.getOpenStreamForCodec multicodec peerId = some stream) :
    stream ∈ s.streams ∧ stream.consumed = false := by
  unfold State.getOpenStreamForCodec at h
  obtain ⟨connection, hconnection, h⟩ := Option.bind_eq_some_iff.1 h
  obtain ⟨found, hfound, h⟩ := Option.bind_eq_some_iff.1 h
  split at h
  · cases h
  · rename_i hfree
    cases h
    rw [Bool.or_eq_true, not_or, Bool.not_eq_true, Bool.not_eq_true] at hfree
    have hmem : connection ∈ s.connections := by
      have hsorted := List.mem_of_mem_head? hconnection
      rw [List.mem_insertionSort] at hsorted
      exact List.mem_of_mem_filter (List.mem_of_mem_filter hsorted)
    exact ⟨List.mem_flatMap.2 ⟨connection, hmem, List.mem_of_find?_eq_some hfound⟩, hfree.2⟩

theorem mem_streams_mapStreams {f : Connection → List Stream} {x : Stream} :
    x ∈ (s.mapStreams f).streams ↔ ∃ c ∈ s.connections, x ∈ f c := by
  simp [State.streams, State.mapStreams]

/-! ## Steps -/

namespace Exclusive

/-- Calls end, and streams go or stay as they are but for their status. -/
theorem fewer (hs : Exclusive s) (hreturned : s'.returned = s.returned) (howed : s'.owed.Sublist s.owed)
    (hnext : s'.nextStream = s.nextStream)
    (hstreams : ∀ x ∈ s'.streams, ∃ y ∈ s.streams, y.id = x.id ∧ y.consumed = x.consumed) : Exclusive s' where
  nodup := by
    rw [hreturned]
    exact hs.nodup.sublist ((List.Sublist.refl _).append howed)
  used id hid := by
    rw [hnext]
    rw [hreturned, List.mem_append] at hid
    exact hs.used id (List.mem_append.2 (hid.imp_right fun h => howed.subset h))
  present x hx := by
    obtain ⟨y, hy, hid, -⟩ := hstreams x hx
    rw [← hid, hnext]
    exact hs.present y hy
  locked x hx hmem := by
    obtain ⟨y, hy, hid, hconsumed⟩ := hstreams x hx
    rw [← hid, hreturned] at hmem
    rw [← hconsumed]
    exact hs.locked y hy hmem

/-- Streams and calls of `getStream` stay as they are. -/
theorem same (hs : Exclusive s) (hreturned : s'.returned = s.returned) (htasks : s'.tasks = s.tasks)
    (hnext : s'.nextStream = s.nextStream) (hconnections : s'.connections = s.connections) : Exclusive s' := by
  refine hs.fewer hreturned ?_ hnext fun x hx => ⟨x, ?_, rfl, rfl⟩
  · rw [State.owed, State.owed, htasks]
  · rw [State.streams, hconnections] at hx
    exact hx

/-- Streams go, or change their status, and none are added. -/
theorem network (hs : Exclusive s) {connections : List Connection}
    (h : ∀ c ∈ connections, ∀ x ∈ c.streams, ∃ y ∈ s.streams, y.id = x.id ∧ y.consumed = x.consumed) :
    Exclusive { s with connections } := by
  refine hs.fewer rfl (List.Sublist.refl _) rfl ?_
  intro x hx
  obtain ⟨c, hc, hx⟩ := List.mem_flatMap.1 hx
  exact h c hc x hx

/-- A call is taken up. -/
theorem resume (hs : Exclusive s) (h : s.resume t = some s') : Exclusive s' := by
  obtain ⟨rfl, -⟩ := resume_eq h
  exact hs.fewer rfl (List.erase_sublist.filterMap _) rfl fun x hx => ⟨x, hx, rfl, rfl⟩

/-- A call begins that is owed no stream. -/
theorem spawn (hs : Exclusive s) (ht : t.owed = none) : Exclusive (s.spawn t) := by
  refine hs.fewer rfl ?_ rfl fun x hx => ⟨x, hx, rfl, rfl⟩
  rw [owed_spawn, ht, Option.toList_none, List.append_nil]

/-- A call is owed a stream that is neither returned nor owed. -/
theorem spawn_owed {id : ℕ} (hs : Exclusive s) (ht : t.owed = some id) (hid : id < s.nextStream)
    (hfree : id ∉ s.returned ++ s.owed) : Exclusive (s.spawn t) where
  nodup := by
    rw [owed_spawn, ht, ← List.append_assoc]
    exact List.nodup_append'.2 ⟨hs.nodup, List.nodup_singleton id, List.disjoint_singleton.2 hfree⟩
  used id' hid' := by
    rw [owed_spawn, ht, ← List.append_assoc, List.mem_append] at hid'
    rcases hid' with hid' | hid'
    · exact hs.used id' hid'
    · rw [List.mem_singleton.1 hid']
      exact hid
  present := hs.present
  locked := hs.locked

/-- A stream that is neither returned nor owed is returned. -/
theorem returnStream {id : ℕ} (hs : Exclusive s) (hid : id < s.nextStream) (hfree : id ∉ s.returned ++ s.owed) :
    Exclusive (s.returnStream id) := by
  have hstreams : ∀ x ∈ (s.returnStream id).streams,
      ∃ y ∈ s.streams, y.id = x.id ∧ (y.consumed = true ∨ y.id = id → x.consumed = true) := by
    intro x hx
    obtain ⟨c, hc, hx⟩ := mem_streams_mapStreams.1 hx
    obtain ⟨y, hy, rfl⟩ := List.mem_map.1 hx
    refine ⟨y, List.mem_flatMap.2 ⟨c, hc, hy⟩, ?_, ?_⟩
    · split <;> rfl
    · split
      · exact fun _ => rfl
      · rename_i hne
        exact fun h => h.resolve_right hne
  have hperm : ((s.returnStream id).returned ++ (s.returnStream id).owed).Perm (id :: (s.returned ++ s.owed)) := by
    show (s.returned ++ [id] ++ s.owed).Perm _
    rw [List.append_assoc]
    exact List.perm_middle
  refine ⟨hperm.nodup_iff.2 (List.nodup_cons.2 ⟨hfree, hs.nodup⟩), ?_, ?_, ?_⟩
  · intro id' hid'
    rcases List.mem_cons.1 (hperm.mem_iff.1 hid') with rfl | hid'
    · exact hid
    · exact hs.used id' hid'
  · intro x hx
    obtain ⟨y, hy, hxy, -⟩ := hstreams x hx
    rw [← hxy]
    exact hs.present y hy
  · intro x hx hmem
    obtain ⟨y, hy, hxy, hconsumed⟩ := hstreams x hx
    rcases List.mem_append.1 hmem with hmem | hmem
    · rw [← hxy] at hmem
      exact hconsumed (Or.inl (hs.locked y hy hmem))
    · rw [← hxy] at hmem
      exact hconsumed (Or.inr (List.mem_singleton.1 hmem))

/-- A new stream is neither returned nor owed. -/
theorem addStream (hs : Exclusive s) (connection : ℕ) (protocol : String) (index : ℕ) :
    Exclusive (s.addStream connection protocol index) := by
  have hstreams : ∀ x ∈ (s.addStream connection protocol index).streams, x ∈ s.streams ∨ x.id = s.nextStream := by
    intro x hx
    obtain ⟨c, hc, hx⟩ := mem_streams_mapStreams.1 hx
    have hold : ∀ y ∈ c.streams, y ∈ s.streams := fun y hy => List.mem_flatMap.2 ⟨c, hc, hy⟩
    split at hx
    · rcases List.mem_append.1 hx with hx | hx
      · exact Or.inl (hold x (List.mem_of_mem_take hx))
      · rcases List.mem_cons.1 hx with rfl | hx
        · exact Or.inr rfl
        · exact Or.inl (hold x (List.mem_of_mem_drop hx))
    · exact Or.inl (hold x hx)
  refine ⟨hs.nodup, fun id hid => Nat.lt_succ_of_lt (hs.used id hid), ?_, ?_⟩
  · intro x hx
    rcases hstreams x hx with hx | hid
    · exact Nat.lt_succ_of_lt (hs.present x hx)
    · rw [hid]
      exact Nat.lt_succ_self _
  · intro x hx hmem
    rcases hstreams x hx with hx | hid
    · exact hs.locked x hx hmem
    · rw [hid] at hmem
      exact absurd (hs.used _ (List.mem_append_left _ hmem)) (Nat.lt_irrefl _)

/-! ### The functions -/

/-- A lookup that finds no owed stream. -/
theorem lookupStream (hs : Exclusive s)
    (hfree : ∀ stream ∈ s.getOpenStreamForCodec multicodec peerId, stream.id ∉ s.owed) :
    Exclusive (s.lookupStream multicodec peerId) := by
  unfold State.lookupStream
  split
  · rename_i stream hfound
    obtain ⟨hmem, hunlocked⟩ := getOpenStreamForCodec_spec hfound
    apply hs.returnStream (hs.present stream hmem)
    intro hheld
    rcases List.mem_append.1 hheld with hreturned | howed
    · rw [hs.locked stream hmem hreturned] at hunlocked
      cases hunlocked
    · exact hfree stream hfound howed
  · refine hs.spawn ?_
    unfold State.createStream
    split <;> rfl

theorem handlePeerUpdateStreamPool (hs : Exclusive s) (protocols : List String) :
    Exclusive (s.handlePeerUpdateStreamPool multicodec peerId protocols) := by
  unfold State.handlePeerUpdateStreamPool
  split
  · exact hs
  · split
    · exact hs
    · unfold State.scheduleNewStream State.createStreamWithLock
      simp only
      split
      · exact hs.same rfl rfl rfl rfl
      · have hongoing : Exclusive { s with ongoingCreation := s.ongoingCreation ++ [peerId] } :=
          hs.same rfl rfl rfl rfl
        have hspawned := hongoing.spawn
          (t := .creating (.createStreamWithLock s.nextPromise) peerId (s.createStream peerId)) rfl
        exact hspawned.same rfl rfl rfl rfl

end Exclusive

/-- Every step keeps streams exclusive, if its lookup finds none that is owed. -/
theorem exclusive_step {e : Event} (hs : Exclusive s) (hfree : FindsUnowed multicodec s e)
    (hstep : step multicodec s e = some s') : Exclusive s' := by
  cases e with
  | getStream peerId =>
    cases hstep
    unfold State.getStream
    split
    · refine Exclusive.spawn ?_ rfl
      exact hs.same rfl rfl rfl rfl
    · rename_i hpool
      exact hs.lookupStream (hfree hpool)
  | peerUpdate peerId protocols =>
    cases hstep
    exact hs.handlePeerUpdateStreamPool protocols
  | scheduledSettled peerId promise =>
    simp only [step] at hstep
    split at hstep
    · cases hstep
    · obtain ⟨s₀, hs₀, rfl⟩ := Option.map_eq_some_iff.1 hstep
      apply (hs.resume hs₀).lookupStream
      intro stream hfound howed
      obtain ⟨rfl, -⟩ := resume_eq hs₀
      exact hfree stream hfound ((List.erase_sublist.filterMap _).subset howed)
  | newStreamOpened caller peerId connection index =>
    obtain ⟨s₀, hs₀, rfl⟩ := Option.map_eq_some_iff.1 hstep
    have hadded := (hs.resume hs₀).addStream connection multicodec index
    cases caller with
    | getStream =>
      apply hadded.spawn_owed rfl (Nat.lt_succ_self _)
      intro hheld
      exact absurd ((hs.resume hs₀).used _ hheld) (Nat.lt_irrefl _)
    | createStreamWithLock promise => exact hadded.spawn rfl
  | newStreamResolved caller peerId stream =>
    obtain ⟨s₀, hs₀, rfl⟩ := Option.map_eq_some_iff.1 hstep
    have hresumed := hs.resume hs₀
    cases caller with
    | getStream =>
      -- the call was owed the stream, and no other is
      have hperm := perm_owed_resume hs₀
      have hreturned : s₀.returned = s.returned := by rw [(resume_eq hs₀).1]
      have hnext : s₀.nextStream = s.nextStream := by rw [(resume_eq hs₀).1]
      have hheld : (s.returned ++ s.owed).Perm (stream :: (s₀.returned ++ s₀.owed)) := by
        rw [hreturned]
        exact (hperm.append_left _).trans List.perm_middle
      refine hresumed.returnStream ?_ (List.nodup_cons.1 (hheld.nodup_iff.1 hs.nodup)).1
      rw [hnext]
      exact hs.used stream (hheld.mem_iff.2 List.mem_cons_self)
    | createStreamWithLock promise => exact hresumed.same rfl rfl rfl rfl
  | newStreamRejected caller peerId opening =>
    obtain ⟨s₀, hs₀, rfl⟩ := Option.map_eq_some_iff.1 hstep
    have hresumed := hs.resume hs₀
    cases caller with
    | getStream => exact hresumed
    | createStreamWithLock promise => exact hresumed.same rfl rfl rfl rfl
  | connectionOpened id remotePeer timelineOpen index =>
    simp only [step] at hstep
    split at hstep
    · cases hstep
    · cases hstep
      refine hs.network fun c hc x hx => ⟨x, List.mem_flatMap.2 ⟨c, ?_, hx⟩, rfl, rfl⟩
      rcases List.mem_append.1 hc with hc | hc
      · exact List.mem_of_mem_take hc
      · rcases List.mem_cons.1 hc with rfl | hc
        · cases hx
        · exact List.mem_of_mem_drop hc
  | connectionStatus id isOpen =>
    cases hstep
    apply hs.network
    intro c' hc' x hx
    obtain ⟨c, hc, rfl⟩ := List.mem_map.1 hc'
    refine ⟨x, List.mem_flatMap.2 ⟨c, hc, ?_⟩, rfl, rfl⟩
    split at hx <;> exact hx
  | connectionRemoved id =>
    cases hstep
    refine hs.network fun c hc x hx => ⟨x, ?_, rfl, rfl⟩
    exact List.mem_flatMap.2 ⟨c, List.mem_of_mem_filter hc, hx⟩
  | streamOpened connection protocol index =>
    cases hstep
    exact hs.addStream connection protocol index
  | streamStatus id writeStatus =>
    cases hstep
    apply hs.network
    intro c' hc' x hx
    obtain ⟨c, hc, rfl⟩ := List.mem_map.1 hc'
    obtain ⟨y, hy, rfl⟩ := List.mem_map.1 hx
    exact ⟨y, List.mem_flatMap.2 ⟨c, hc, hy⟩, by split <;> rfl, by split <;> rfl⟩
  | streamRemoved id =>
    cases hstep
    apply hs.network
    intro c' hc' x hx
    obtain ⟨c, hc, rfl⟩ := List.mem_map.1 hc'
    exact ⟨x, List.mem_flatMap.2 ⟨c, hc, List.mem_of_mem_filter hx⟩, rfl, rfl⟩

/-- **Calls of `getStream` return different streams** in every run in which no lookup finds a stream that `newStream`
has opened for another call. -/
theorem streams_exclusive (multicodec : String) (es : List Event) (s : State)
    (hrun : run (step multicodec) init es = some s) (hfree : Meets (step multicodec) (FindsUnowed multicodec) init es) :
    s.returned.Nodup := by
  have hinit : Exclusive init := ⟨List.nodup_nil, by simp [init, State.owed], by simp [init, State.streams], by
    simp [init, State.streams]⟩
  have hs : Exclusive s :=
    run_invariant_of_meets (fun _ _ _ hs hfree hstep => exclusive_step hs hfree hstep) es hinit hfree hrun
  exact (List.nodup_append'.1 hs.nodup).1

/-! ## Lookups of owed streams -/

/-- The call that is owed a stream returns it after another has. -/
theorem returned_again {id : ℕ} (howed : id ∈ s.owed) :
    ∃ e s', step multicodec (s.returnStream id) e = some s' ∧ ¬s'.returned.Nodup := by
  obtain ⟨t, hmem, ht⟩ := List.mem_filterMap.1 howed
  obtain ⟨q, rfl⟩ : ∃ q, t = .creating .getStream q (.opened id) := by
    unfold Task.owed at ht
    split at ht
    · cases ht
      exact ⟨_, rfl⟩
    · cases ht
  obtain ⟨s₁, hs₁⟩ := resume_of_mem (s := s.returnStream id) hmem
  refine ⟨.newStreamResolved .getStream q id, s₁.returnStream id, ?_, ?_⟩
  · simp only [step, hs₁]
    rfl
  · rw [(resume_eq hs₁).1]
    show ¬(s.returned ++ [id] ++ [id]).Nodup
    rw [List.append_assoc, List.nodup_append]
    simp

/-- A lookup that finds an owed stream can be continued to a second return of the stream. -/
theorem second_return {e : Event} (hstep : step multicodec s e = some s') (hbroken : ¬FindsUnowed multicodec s e) :
    ∃ e' s'', step multicodec s' e' = some s'' ∧ ¬s''.returned.Nodup := by
  cases e with
  | getStream peerId =>
    simp only [FindsUnowed, Classical.not_imp, Classical.not_forall, not_not] at hbroken
    obtain ⟨hpool, stream, hfound, howed⟩ := hbroken
    have hthen : s' = s.returnStream stream.id := by
      cases hstep
      simp only [State.getStream, hpool, State.lookupStream, Option.mem_def.1 hfound]
    rw [hthen]
    exact returned_again howed
  | scheduledSettled peerId promise =>
    simp only [FindsUnowed, Classical.not_imp, Classical.not_forall, not_not] at hbroken
    obtain ⟨stream, hfound, howed⟩ := hbroken
    simp only [step] at hstep
    split at hstep
    · cases hstep
    · obtain ⟨s₀, hs₀, rfl⟩ := Option.map_eq_some_iff.1 hstep
      have hfound₀ : s₀.getOpenStreamForCodec multicodec peerId = some stream := by
        rw [(resume_eq hs₀).1]
        exact hfound
      simp only [State.lookupStream, hfound₀]
      exact returned_again ((perm_owed_resume hs₀).mem_iff.1 howed)
  | _ => exact absurd trivial hbroken

end

/-! ## Two runs -/

/-- A stream is opened for the pool. One call waits for it and finds it; another has a stream opened for itself. -/
def pooledRun : List Event :=
  [.connectionOpened 1 "a" 0 0, .peerUpdate "a" ["/test"], .newStreamOpened (.createStreamWithLock 0) "a" 1 0,
    .getStream "a", .newStreamResolved (.createStreamWithLock 0) "a" 0, .scheduledSettled "a" 0, .getStream "a",
    .newStreamOpened .getStream "a" 1 0, .newStreamResolved .getStream "a" 1]

theorem streams_exclusive_pooledRun :
    ∃ s, run (step "/test") init pooledRun = some s ∧ s.returned = [0, 1] ∧ s.returned.Nodup := by
  have hreturned : ∀ s ∈ run (step "/test") init pooledRun, s.returned = [0, 1] := by decide
  have hrun : (run (step "/test") init pooledRun).isSome = true := by decide
  obtain ⟨s, hs⟩ := Option.isSome_iff_exists.1 hrun
  exact ⟨s, hs, hreturned s hs, streams_exclusive "/test" pooledRun s hs (by decide)⟩

/-- While a call waits for `newStream`, which has opened its stream, another call finds the stream. -/
def owedRun : List Event :=
  [.connectionOpened 1 "a" 0 0, .getStream "a", .newStreamOpened .getStream "a" 1 0, .getStream "a",
    .newStreamResolved .getStream "a" 0]

/-- Two calls return one stream. -/
theorem stream_returned_twice :
    ¬∀ (multicodec : String) (es : List Event) (s : State), run (step multicodec) init es = some s →
      s.returned.Nodup := by
  intro h
  have hreturned : ∀ s ∈ run (step "/test") init owedRun, s.returned = [0, 0] := by decide
  have hrun : (run (step "/test") init owedRun).isSome = true := by decide
  obtain ⟨s, hs⟩ := Option.isSome_iff_exists.1 hrun
  have hnodup := h "/test" owedRun s hs
  rw [hreturned s hs] at hnodup
  exact absurd hnodup (by decide)

end JsWaku.StreamManager
