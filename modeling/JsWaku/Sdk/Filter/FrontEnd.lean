import JsWaku.Proto.Requests
import JsWaku.Sdk.Filter.Delivery
import JsWaku.Sdk.Filter.Provenance

/-!
# Filter

`Filter` of `packages/sdk/src/filter/filter.ts` and `FilterCore.onRequest` of `packages/core/src/lib/filter/filter.ts`:
the subscriptions of a node by pubsub topic, the calls of `subscribe` that make them, and the streams over which peers
push messages. The subscriptions run as in the model of one of them, on connections that they share.

Left out are the wait for `handleIncomingMessage` between the frames of a stream, so that more orders of steps are
possible, and what `subscribe` returns once there is a subscription.

However the steps are interleaved, a callback is invoked at most once with a message, and only with one that some stream
pushed on the topic of the subscription (`invocations_of_pushes`); and a message of a stream that was read to its end was
handed to the callback that was registered for it all the while (`pushed_handed`).
-/

namespace JsWaku.Filter

open Transition Proto

/-! ## The code -/

section

variable (rt : Runtime)

/-- The loop of `onRequest` for one frame: the topic and the message that it hands on, or the end of the stream. -/
def pushOf (bytes : Bytes) : Option (String × IProtoMessage) :=
  match (MessagePush.codec rt).decode rt bytes with
  | .ok { wakuMessage := some wakuMessage, pubsubTopic := some pubsubTopic } =>
    if pubsubTopic = "" then none else some (pubsubTopic, wakuMessage)
  | _ => none

/-- What `onRequest` hands on of a stream. -/
def pushes : List Bytes → List (String × IProtoMessage)
  | [] => []
  | bytes :: frames =>
    match pushOf rt bytes with
    | some push => push :: pushes frames
    | none => []

end

/-- What a `Filter` is made with: the pubsub topics of the node, `FilterProtocolOptions`, `numPeersToUse`, the reserved
content topic with the identity of its decoders, what decoders do, and SHA-256. -/
structure Options where
  pubsubTopics : List String
  pingsBeforePeerRenewed : ℕ
  enableLightPushFilterCheck : Bool
  numPeersToUse : ℕ
  reservedContentTopic : String
  reservedContentTopic_ne : reservedContentTopic ≠ ""
  reservedId : ℕ
  decodes : IDecoder → IProtoMessage → Bool
  sha256 : Bytes → Bytes

/-- What the subscription on a topic is made with. -/
def Options.env (o : Options) (pubsubTopic : String) : Env where
  pubsubTopic
  pingsBeforePeerRenewed := o.pingsBeforePeerRenewed
  enableLightPushFilterCheck := o.enableLightPushFilterCheck
  numPeersToUse := o.numPeersToUse
  reservedDecoder := ⟨o.reservedId, pubsubTopic, o.reservedContentTopic, o.reservedContentTopic_ne⟩
  decodes := o.decodes
  sha256 := o.sha256

/-- What ends a call of `subscribe` or `subscribeWithUnsubscribe` without a subscription: an error that the first
returns and the second throws, or that of `ensurePubsubTopicIsConfigured`. -/
inductive SubscribeError
  | INVALID_DECODER_TOPICS
  | notConfigured
  | NO_PEER_AVAILABLE
  deriving DecidableEq, Repr

/-- A suspended call of `subscribe` or `subscribeWithUnsubscribe`. -/
inductive FilterCall
  /-- In `createSubscription`, at `getPeers`. -/
  | creating (pubsubTopic : String) (decoders : List IDecoder) (callback : Callback) (peers : List PeerId)
  /-- At `createSubscription`, which has returned a subscription. -/
  | created (pubsubTopic : String) (decoders : List IDecoder) (callback : Callback)
  deriving DecidableEq

/-- A `Filter`, with the connections that its subscriptions share and the streams of pushes. -/
structure Node where
  connections : List Connection
  nextId : ℕ
  activeSubscriptions : Map String State
  calls : List FilterCall
  /-- Per stream its peer and the frames that are not read. -/
  streams : List (PeerId × List Bytes)
  failures : List (Callback × SubscribeError)

/-- A call, an event of libp2p or of the connection manager, a step of a subscription, or a resumption. -/
inductive NodeEvent
  | shared (e : Event)
  | subscribe (decoders : List IDecoder) (callback : Callback)
  | gotPeers (pubsubTopic : String) (decoders : List IDecoder) (callback : Callback) (peers : List PeerId)
  | created (pubsubTopic : String) (decoders : List IDecoder) (callback : Callback)
  | subscription (pubsubTopic : String) (e : Event)
  | pushStream (peerId : PeerId) (frames : List Bytes)
  | frame (i : ℕ)

/-- The event is for all subscriptions. -/
def Event.isShared : Event → Bool
  | connectionOpened _ | connectionClosed _ | peerConnected _ | peerDisconnected _ | connectionStatus _ => true
  | _ => false

/-- The event is a push. -/
def Event.isPush : Event → Bool
  | pushed _ _ => true
  | _ => false

namespace Node

/-- A new `Filter`. -/
def init : Node :=
  { connections := [], nextId := 0, activeSubscriptions := Map.empty, calls := [], streams := [], failures := [] }

/-- A subscription with the connections that it shares. -/
def within (n : Node) (s : State) : State := { s with connections := n.connections, nextId := n.nextId }

variable (rt : Runtime) (o : Options) (n : Node)

/-- A step of one subscription. -/
def update (pubsubTopic : String) (e : Event) : Option Node := do
  let s ← n.activeSubscriptions.get pubsubTopic
  let s' ← Filter.step (o.env pubsubTopic) (n.within s) e
  return { n with connections := s'.connections, nextId := s'.nextId,
                  activeSubscriptions := n.activeSubscriptions.set pubsubTopic s' }

/-- The connections after an event that is for all subscriptions: the listeners of the peer manager run once. -/
def connectionsAfter : Event → Option (List Connection)
  | .connectionOpened peerId => some (n.connections ++ [⟨n.nextId, peerId, []⟩])
  | .connectionClosed conn => if conn ∈ n.connections then some (n.connections.erase conn) else none
  | .peerConnected peerId => some (PeerManager.lockPeerIfNeeded o.numPeersToUse n.connections peerId)
  | .peerDisconnected peerId => some (PeerManager.requestRenew o.numPeersToUse n.connections peerId).1
  | .connectionStatus _ => some n.connections
  | _ => none

/-- An event for all subscriptions. -/
def share (e : Event) : Option Node :=
  (n.connectionsAfter o e).map fun connections =>
    { n with
      connections
      nextId := n.nextId + 1
      activeSubscriptions := n.activeSubscriptions.mapValues fun pubsubTopic s =>
        (Filter.step (o.env pubsubTopic) (n.within s) e).getD s }

/-- The subscription of `createSubscription`: the one there is, or a new one. -/
def setActiveSubscription (pubsubTopic : String) : Map String State :=
  if n.activeSubscriptions.has pubsubTopic then n.activeSubscriptions
  else n.activeSubscriptions.set pubsubTopic Filter.init

/-- One frame of a stream. The message is dropped where there is no subscription on its topic. -/
def onFrame (i : ℕ) : Option Node :=
  match n.streams[i]? with
  | some (peerId, bytes :: frames) =>
    match pushOf rt bytes with
    | none => some { n with streams := n.streams.set i (peerId, []) }
    | some (pubsubTopic, message) =>
      let n := { n with streams := n.streams.set i (peerId, frames) }
      if n.activeSubscriptions.has pubsubTopic then n.update o pubsubTopic (.pushed peerId message) else some n
  | _ => none

/-- One thing happens. -/
def step : NodeEvent → Option Node
  | .shared e => n.share o e
  | .subscribe decoders callback =>
    match (decoders.map (·.pubsubTopic)).eraseDups with
    | [pubsubTopic] =>
      if pubsubTopic ∈ o.pubsubTopics then
        some { n with calls := n.calls ++ [.creating pubsubTopic decoders callback (PeerManager.getPeers n.connections)] }
      else some { n with failures := n.failures ++ [(callback, .notConfigured)] }
    | _ => some { n with failures := n.failures ++ [(callback, .INVALID_DECODER_TOPICS)] }
  | .gotPeers pubsubTopic decoders callback peers =>
    (take (.creating pubsubTopic decoders callback peers) n.calls).map fun calls =>
      if peers.isEmpty then { n with calls, failures := n.failures ++ [(callback, .NO_PEER_AVAILABLE)] }
      else
        { n with
          calls := calls ++ [.created pubsubTopic decoders callback]
          activeSubscriptions := n.setActiveSubscription pubsubTopic }
  | .created pubsubTopic decoders callback => do
    let calls ← take (.created pubsubTopic decoders callback) n.calls
    { n with calls }.update o pubsubTopic (.subscribe decoders callback)
  | .subscription pubsubTopic e => if e.isShared ∨ e.isPush then none else n.update o pubsubTopic e
  | .pushStream peerId frames => some { n with streams := n.streams ++ [(peerId, frames)] }
  | .frame i => n.onFrame rt o i

end Node

/-! ## One subscription of the node -/

section

variable {rt : Runtime} {o : Options} {n n' : Node} {t : String} {s s' : State}

/-- What an event of the node is to the subscription on a topic. -/
def NodeEvent.Is (rt : Runtime) (n : Node) (t : String) : NodeEvent → Event → Prop
  | shared e, e' => e' = e ∧ e.isPush = false ∧ ∀ decs cb, e ≠ .subscribe decs cb
  | subscription t' e, e' => t' = t ∧ e' = e ∧ e.isPush = false
  | created t' decoders callback, e' =>
    t' = t ∧ e' = .subscribe decoders callback ∧ .created t' decoders callback ∈ n.calls
  | frame i, e' => ∃ peerId bytes frames m, n.streams[i]? = some (peerId, bytes :: frames) ∧
      pushOf rt bytes = some (t, m) ∧ e' = .pushed peerId m
  | _, _ => False

theorem Node.update_spec {t' : String} {e : Event} (h : n.update o t' e = some n') :
    n'.calls = n.calls ∧ n'.streams = n.streams ∧ (∀ t, t ≠ t' → n'.activeSubscriptions.get t = n.activeSubscriptions.get t) ∧
      ∃ s s', n.activeSubscriptions.get t' = some s ∧ Filter.step (o.env t') (n.within s) e = some s' ∧
        n'.activeSubscriptions.get t' = some s' := by
  obtain ⟨s, hs, h⟩ := Option.bind_eq_some_iff.1 h
  obtain ⟨s', hs', h⟩ := Option.bind_eq_some_iff.1 h
  cases h
  exact ⟨rfl, rfl, fun t ht => Map.get_set_ne _ _ ht, s, s', hs, hs', Map.get_set_self _ _ _⟩

/-- An update of one topic, seen from another or the same. -/
theorem Node.update_get {t' : String} {e : Event} (h : n.update o t' e = some n')
    (hs : n.activeSubscriptions.get t = some s) : n'.activeSubscriptions.get t = some s ∧ t' ≠ t ∨
      t' = t ∧ ∃ s', Filter.step (o.env t) (n.within s) e = some s' ∧ n'.activeSubscriptions.get t = some s' := by
  obtain ⟨-, -, hother, s₀, s', hs₀, hstep, hget⟩ := update_spec h
  by_cases ht : t' = t
  · subst ht
    cases hs₀.symm.trans hs
    exact .inr ⟨rfl, s', hstep, hget⟩
  · exact .inl ⟨(hother t (Ne.symm ht)).trans hs, ht⟩

theorem Node.share_spec {e : Event} (h : n.share o e = some n') :
    e.isPush = false ∧ (∀ decs cb, e ≠ .subscribe decs cb) ∧ n'.calls = n.calls ∧ n'.streams = n.streams ∧
      ∀ t, n'.activeSubscriptions.get t = (n.activeSubscriptions.get t).map fun s =>
        (Filter.step (o.env t) (n.within s) e).getD s := by
  obtain ⟨connections, hconnections, rfl⟩ := Option.map_eq_some_iff.1 h
  refine ⟨?_, ?_, rfl, rfl, fun t => Map.get_mapValues _ _ _⟩
  · cases e <;> first | rfl | cases hconnections
  · rintro decs cb rfl
    cases hconnections

/-- An event is one thing to a subscription. -/
theorem NodeEvent.Is.unique {e : NodeEvent} {e₁ e₂ : Event} (h₁ : e.Is rt n t e₁) (h₂ : e.Is rt n t e₂) : e₁ = e₂ := by
  cases e with
  | shared e => exact h₁.1.trans h₂.1.symm
  | subscription t' e => exact h₁.2.1.trans h₂.2.1.symm
  | created t' decoders callback => exact h₁.2.1.trans h₂.2.1.symm
  | frame i =>
    obtain ⟨p₁, bytes₁, frames₁, m₁, hstream₁, hpush₁, rfl⟩ := h₁
    obtain ⟨p₂, bytes₂, frames₂, m₂, hstream₂, hpush₂, rfl⟩ := h₂
    cases hstream₁.symm.trans hstream₂
    cases hpush₁.symm.trans hpush₂
    rfl
  | subscribe => cases h₁
  | gotPeers => cases h₁
  | pushStream => cases h₁

/-- A subscription stays, where the event is no push on its topic, or takes a step that the event is to it. -/
theorem Node.step_get {e : NodeEvent} (h : n.step rt o e = some n') (hs : n.activeSubscriptions.get t = some s) :
    (n'.activeSubscriptions.get t = some s ∧ ∀ p m, ¬e.Is rt n t (.pushed p m)) ∨ ∃ e' s', e.Is rt n t e' ∧
      Filter.step (o.env t) (n.within s) e' = some s' ∧ n'.activeSubscriptions.get t = some s' := by
  cases e with
  | shared e =>
    obtain ⟨hpush, hsubscribe, -, -, hget⟩ := share_spec h
    rw [hget t, hs, Option.map_some]
    cases hstep : Filter.step (o.env t) (n.within s) e with
    | none =>
      refine .inl ⟨rfl, ?_⟩
      rintro p m ⟨rfl, -⟩
      cases hpush
    | some s' => exact .inr ⟨e, s', ⟨rfl, hpush, hsubscribe⟩, hstep, rfl⟩
  | subscribe decoders callback =>
    refine .inl ⟨?_, fun p m his => his.elim⟩
    simp only [step] at h
    split at h
    · split at h <;> cases h <;> exact hs
    · cases h
      exact hs
  | gotPeers t' decoders callback peers =>
    obtain ⟨calls, hcalls, rfl⟩ := Option.map_eq_some_iff.1 h
    refine .inl ⟨?_, fun p m his => his.elim⟩
    split
    · exact hs
    simp only [setActiveSubscription]
    split
    · exact hs
    · rename_i hhas
      have hne : t ≠ t' := by
        rintro rfl
        simp [Map.has, hs] at hhas
      exact (Map.get_set_ne _ _ hne).trans hs
  | created t' decoders callback =>
    obtain ⟨calls, hcalls, h⟩ := Option.bind_eq_some_iff.1 h
    rcases update_get h hs with ⟨hget, ht⟩ | ⟨ht, s', hstep, hget⟩
    · exact .inl ⟨hget, fun p m his => ht his.1⟩
    · exact .inr ⟨_, s', ⟨ht, rfl, (take_eq_some.1 hcalls).1⟩, hstep, hget⟩
  | subscription t' e =>
    simp only [step] at h
    split at h
    · cases h
    rename_i hown
    rcases update_get h hs with ⟨hget, ht⟩ | ⟨ht, s', hstep, hget⟩
    · exact .inl ⟨hget, fun p m his => ht his.1⟩
    · exact .inr ⟨e, s', ⟨ht, rfl, by simpa using (not_or.1 hown).2⟩, hstep, hget⟩
  | pushStream peerId frames =>
    cases h
    exact .inl ⟨hs, fun p m his => his.elim⟩
  | frame i =>
    simp only [step, onFrame] at h
    split at h
    · rename_i peerId bytes frames hstream
      split at h
      · rename_i hbad
        cases h
        refine .inl ⟨hs, ?_⟩
        rintro p m ⟨p', bytes', frames', m', hstream', hpush, -⟩
        cases hstream.symm.trans hstream'
        cases hbad.symm.trans hpush
      rename_i t' message hpush
      -- The subscription of another topic does not see the push.
      have hother : t' ≠ t → ∀ p m, ¬(NodeEvent.frame i).Is rt n t (.pushed p m) := by
        rintro ht p m ⟨p', bytes', frames', m', hstream', hpush', -⟩
        cases hstream.symm.trans hstream'
        cases hpush.symm.trans hpush'
        exact ht rfl
      split at h
      · rcases update_get (n := { n with streams := n.streams.set i (peerId, frames) }) h hs with
          ⟨hget, ht⟩ | ⟨rfl, s', hstep, hget⟩
        · exact .inl ⟨hget, hother ht⟩
        · exact .inr ⟨_, s', ⟨peerId, bytes, frames, message, hstream, hpush, rfl⟩, hstep, hget⟩
      · rename_i hhas
        cases h
        refine .inl ⟨hs, hother ?_⟩
        rintro rfl
        simp [Map.has, hs] at hhas
    · cases h

/-- Without a subscription on the topic, a new one is made or none. -/
theorem Node.step_get_none {e : NodeEvent} (h : n.step rt o e = some n') (hnone : n.activeSubscriptions.get t = none) :
    n'.activeSubscriptions.get t = none ∨ n'.activeSubscriptions.get t = some Filter.init := by
  have hupdate : ∀ {n : Node} {t' : String} {e : Event}, n.activeSubscriptions.get t = none → n.update o t' e = some n' →
      n'.activeSubscriptions.get t = none := by
    intro n t' e hnone h
    obtain ⟨-, -, hother, s, s', hs, -⟩ := update_spec h
    have hne : t ≠ t' := by
      rintro rfl
      cases hs.symm.trans hnone
    exact (hother t hne).trans hnone
  cases e with
  | shared e =>
    obtain ⟨-, -, -, -, hget⟩ := share_spec h
    rw [hget t, hnone]
    exact .inl rfl
  | subscribe decoders callback =>
    simp only [step] at h
    split at h
    · split at h <;> cases h <;> exact .inl hnone
    · cases h
      exact .inl hnone
  | gotPeers t' decoders callback peers =>
    obtain ⟨calls, hcalls, rfl⟩ := Option.map_eq_some_iff.1 h
    split
    · exact .inl hnone
    simp only [setActiveSubscription]
    split
    · exact .inl hnone
    · by_cases ht : t = t'
      · subst ht
        exact .inr (Map.get_set_self _ _ _)
      · exact .inl ((Map.get_set_ne _ _ ht).trans hnone)
  | created t' decoders callback =>
    obtain ⟨calls, -, h⟩ := Option.bind_eq_some_iff.1 h
    exact .inl (hupdate (n := { n with calls }) hnone h)
  | subscription t' e =>
    simp only [step] at h
    split at h
    · cases h
    · exact .inl (hupdate hnone h)
  | pushStream peerId frames =>
    cases h
    exact .inl hnone
  | frame i =>
    simp only [step, onFrame] at h
    split at h
    · rename_i peerId bytes frames hstream
      split at h
      · cases h
        exact .inl hnone
      split at h
      · exact .inl (hupdate (n := { n with streams := n.streams.set i (peerId, frames) }) hnone h)
      · cases h
        exact .inl hnone
    · cases h

/-! ## Calls and streams -/

/-- The call of `subscribe`. -/
def FilterCall.event : FilterCall → NodeEvent
  | creating _ decoders callback _ | created _ decoders callback => .subscribe decoders callback

/-- A call that is suspended was before, perhaps at another place, or it starts. -/
theorem Node.step_calls {e : NodeEvent} (h : n.step rt o e = some n') :
    ∀ call ∈ n'.calls, e = call.event ∨ ∃ call' ∈ n.calls, call'.event = call.event := by
  have hsame : n'.calls = n.calls → ∀ call ∈ n'.calls, e = call.event ∨ ∃ call' ∈ n.calls, call'.event = call.event :=
    fun heq call hcall => .inr ⟨call, heq ▸ hcall, rfl⟩
  cases e with
  | shared e => exact hsame (share_spec h).2.2.1
  | subscribe decoders callback =>
    simp only [step] at h
    split at h
    · split at h <;> cases h
      · intro call hcall
        rcases List.mem_append.1 hcall with hcall | hcall
        · exact .inr ⟨call, hcall, rfl⟩
        · cases List.mem_singleton.1 hcall
          exact .inl rfl
      · exact hsame rfl
    · cases h
      exact hsame rfl
  | gotPeers t' decoders callback peers =>
    obtain ⟨calls, hcalls, rfl⟩ := Option.map_eq_some_iff.1 h
    have hold : ∀ call ∈ calls, ∃ call' ∈ n.calls, call'.event = call.event :=
      fun call hcall => ⟨call, mem_of_take hcalls hcall, rfl⟩
    split
    · exact fun call hcall => .inr (hold call hcall)
    · intro call hcall
      rcases List.mem_append.1 hcall with hcall | hcall
      · exact .inr (hold call hcall)
      · cases List.mem_singleton.1 hcall
        exact .inr ⟨_, (take_eq_some.1 hcalls).1, rfl⟩
  | created t' decoders callback =>
    obtain ⟨calls, hcalls, h⟩ := Option.bind_eq_some_iff.1 h
    intro call hcall
    rw [(update_spec h).1] at hcall
    exact .inr ⟨call, mem_of_take hcalls hcall, rfl⟩
  | subscription t' e =>
    simp only [step] at h
    split at h
    · cases h
    · exact hsame (update_spec h).1
  | pushStream peerId frames =>
    cases h
    exact hsame rfl
  | frame i =>
    simp only [step, onFrame] at h
    split at h
    · split at h
      · cases h
        exact hsame rfl
      split at h
      · exact hsame (update_spec h).1
      · cases h
        exact hsame rfl
    · cases h

/-- What is left of a stream after a frame. -/
def leftAfter (rt : Runtime) (bytes : Bytes) (frames : List Bytes) : List Bytes :=
  match pushOf rt bytes with
  | some _ => frames
  | none => []

theorem pushes_leftAfter {bytes : Bytes} {frames : List Bytes} {push : String × IProtoMessage}
    (h : push ∈ pushes rt (leftAfter rt bytes frames)) : push ∈ pushes rt (bytes :: frames) := by
  unfold leftAfter at h
  rw [pushes]
  cases hpush : pushOf rt bytes with
  | none => simp [hpush, pushes] at h
  | some p =>
    rw [hpush] at h
    exact List.mem_cons_of_mem _ h

/-- The streams after an event: one more, or one with a frame less. -/
theorem Node.step_streams {e : NodeEvent} (h : n.step rt o e = some n') : n'.streams = n.streams ∨
    (∃ peerId frames, e = .pushStream peerId frames ∧ n'.streams = n.streams ++ [(peerId, frames)]) ∨
    ∃ i peerId bytes frames, e = .frame i ∧ n.streams[i]? = some (peerId, bytes :: frames) ∧
      n'.streams = n.streams.set i (peerId, leftAfter rt bytes frames) := by
  cases e with
  | shared e => exact .inl (share_spec h).2.2.2.1
  | subscribe decoders callback =>
    simp only [step] at h
    split at h
    · split at h <;> cases h <;> exact .inl rfl
    · cases h
      exact .inl rfl
  | gotPeers t' decoders callback peers =>
    obtain ⟨calls, hcalls, rfl⟩ := Option.map_eq_some_iff.1 h
    split <;> exact .inl rfl
  | created t' decoders callback =>
    obtain ⟨calls, hcalls, h⟩ := Option.bind_eq_some_iff.1 h
    exact .inl (update_spec h).2.1
  | subscription t' e =>
    simp only [step] at h
    split at h
    · cases h
    · exact .inl (update_spec h).2.1
  | pushStream peerId frames =>
    cases h
    exact .inr (.inl ⟨peerId, frames, rfl, rfl⟩)
  | frame i =>
    simp only [step, onFrame] at h
    split at h
    · rename_i peerId bytes frames hstream
      refine .inr (.inr ⟨i, peerId, bytes, frames, rfl, hstream, ?_⟩)
      unfold leftAfter
      split at h
      · rename_i hpush
        cases h
        rw [hpush]
      · rename_i t' message hpush
        rw [hpush]
        split at h
        · exact (update_spec h).2.1
        · cases h
          rfl
    · cases h

/-! ## The invariant -/

/-- What the subscription on a topic was given in a run. -/
def given (rt : Runtime) (es : List NodeEvent) (t : String) : Given where
  subscribed decoders callback := .subscribe decoders callback ∈ es ∨ .subscription t (.subscribe decoders callback) ∈ es
  pushed m := ∃ peerId frames, .pushStream peerId frames ∈ es ∧ (t, m) ∈ pushes rt frames

/-- Every suspended call, stream and subscription comes from the events so far, and no message was handed over twice. -/
structure Node.Good (rt : Runtime) (o : Options) (es : List NodeEvent) (n : Node) : Prop where
  calls : ∀ call ∈ n.calls, call.event ∈ es
  streams : ∀ stream ∈ n.streams, ∃ frames, .pushStream stream.1 frames ∈ es ∧
    ∀ push ∈ pushes rt stream.2, push ∈ pushes rt frames
  once : ∀ t s, n.activeSubscriptions.get t = some s → AtMostOnce (o.env t) s
  sourced : ∀ t s, n.activeSubscriptions.get t = some s → Sourced (o.env t) (given rt es t) s

theorem atMostOnce_init (env : Env) : AtMostOnce env Filter.init :=
  fun _ _ => ⟨Nat.zero_le _, fun h => absurd h (lt_irrefl 0)⟩

/-- What is shared does not matter to deliveries. -/
theorem atMostOnce_within {env : Env} : AtMostOnce env (n.within s) ↔ AtMostOnce env s := Iff.rfl

theorem sourced_within {env : Env} {given : Given} (h : Sourced env given s) : Sourced env given (n.within s) :=
  ⟨h.calls, h.callbacks, h.pushing, h.invocations⟩

theorem given_mono (es : List NodeEvent) (e : NodeEvent) {env : Env} (h : Sourced env (given rt es t) s) :
    Sourced env (given rt (es ++ [e]) t) s := by
  refine h.mono (fun _ _ => Or.imp (List.mem_append_left _) (List.mem_append_left _)) ?_
  rintro m ⟨peerId, frames, hmem, hpush⟩
  exact ⟨peerId, frames, List.mem_append_left _ hmem, hpush⟩

theorem Node.good_init : Good rt o [] init := ⟨nofun, nofun, nofun, nofun⟩

/-- What an event is to a subscription, it was given. -/
theorem Node.Good.given_of_is {es : List NodeEvent} {e : NodeEvent} {e' : Event} (hn : n.Good rt o es)
    (h : e.Is rt n t e') :
    (∀ decs c, e' = .subscribe decs c → (given rt (es ++ [e]) t).subscribed decs c) ∧
      ∀ p m, e' = .pushed p m → (given rt (es ++ [e]) t).pushed m := by
  have hlast : e ∈ es ++ [e] := List.mem_append_right _ (List.mem_singleton_self _)
  cases e with
  | shared e =>
    obtain ⟨rfl, hpush, hsubscribe⟩ := h
    exact ⟨fun decs c heq => absurd heq (hsubscribe decs c), by rintro p m rfl; cases hpush⟩
  | subscription t' e =>
    obtain ⟨rfl, rfl, hpush⟩ := h
    exact ⟨by rintro decs c rfl; exact .inr hlast, by rintro p m rfl; cases hpush⟩
  | created t' decoders callback =>
    obtain ⟨rfl, rfl, hcall⟩ := h
    refine ⟨?_, nofun⟩
    rintro decs c ⟨⟩
    exact .inl (List.mem_append_left _ (hn.calls _ hcall))
  | frame i =>
    obtain ⟨peerId, bytes, frames, m, hstream, hpush, rfl⟩ := h
    refine ⟨nofun, ?_⟩
    rintro p m' ⟨⟩
    obtain ⟨all, hmem, hall⟩ := hn.streams _ (List.mem_of_getElem? hstream)
    refine ⟨peerId, all, List.mem_append_left _ hmem, hall _ ?_⟩
    simp [pushes, hpush]
  | subscribe => cases h
  | gotPeers => cases h
  | pushStream => cases h

theorem Node.good_step {es : List NodeEvent} {e : NodeEvent} (hn : n.Good rt o es) (h : n.step rt o e = some n') :
    n'.Good rt o (es ++ [e]) := by
  have hlast : e ∈ es ++ [e] := List.mem_append_right _ (List.mem_singleton_self _)
  have hstream : ∀ stream ∈ n.streams, ∃ frames, .pushStream stream.1 frames ∈ es ++ [e] ∧
      ∀ push ∈ pushes rt stream.2, push ∈ pushes rt frames := fun stream hstream => by
    obtain ⟨frames, hmem, hall⟩ := hn.streams stream hstream
    exact ⟨frames, List.mem_append_left _ hmem, hall⟩
  -- A subscription is new, as it was, or has taken a step.
  have hcases : ∀ t s', n'.activeSubscriptions.get t = some s' → s' = Filter.init ∨
      ∃ s, n.activeSubscriptions.get t = some s ∧
        (s' = s ∨ ∃ e', e.Is rt n t e' ∧ Filter.step (o.env t) (n.within s) e' = some s') := by
    intro t s' hs'
    cases hs : n.activeSubscriptions.get t with
    | none =>
      rcases step_get_none h hs with hget | hget
      · cases hget.symm.trans hs'
      · cases hget.symm.trans hs'
        exact .inl rfl
    | some s =>
      refine .inr ⟨s, rfl, ?_⟩
      rcases step_get h hs with ⟨hget, -⟩ | ⟨e', s'', his, hstep, hget⟩
      · cases hget.symm.trans hs'
        exact .inl rfl
      · cases hget.symm.trans hs'
        exact .inr ⟨e', his, hstep⟩
  refine ⟨?_, ?_, ?_, ?_⟩
  · intro call hcall
    rcases step_calls h call hcall with rfl | ⟨call', hcall', heq⟩
    · exact hlast
    · exact List.mem_append_left _ (heq ▸ hn.calls call' hcall')
  · rcases step_streams h with heq | ⟨peerId, frames, rfl, heq⟩ | ⟨i, peerId, bytes, frames, rfl, hget, heq⟩
    · rw [heq]
      exact hstream
    · rw [heq]
      intro stream hmem
      rcases List.mem_append.1 hmem with hmem | hmem
      · exact hstream stream hmem
      · cases List.mem_singleton.1 hmem
        exact ⟨frames, hlast, fun _ hpush => hpush⟩
    · rw [heq]
      intro stream hmem
      rcases List.mem_or_eq_of_mem_set hmem with hmem | rfl
      · exact hstream stream hmem
      · obtain ⟨all, hmem, hall⟩ := hstream _ (List.mem_of_getElem? hget)
        exact ⟨all, hmem, fun push hpush => hall push (pushes_leftAfter hpush)⟩
  · intro t s' hs'
    rcases hcases t s' hs' with rfl | ⟨s, hs, rfl | ⟨e', -, hstep⟩⟩
    · exact atMostOnce_init _
    · exact hn.once t s' hs
    · exact atMostOnce_step (atMostOnce_within.2 (hn.once t s hs)) hstep
  · intro t s' hs'
    rcases hcases t s' hs' with rfl | ⟨s, hs, rfl | ⟨e', his, hstep⟩⟩
    · exact sourced_init _ _
    · exact given_mono es e (hn.sourced t s' hs)
    · obtain ⟨hsub, hpush⟩ := hn.given_of_is his
      exact sourced_step (sourced_within (given_mono es e (hn.sourced t s hs))) hstep hsub hpush

theorem Node.good_of_run (es : List NodeEvent) (hrun : run (step rt o) init es = some n) : n.Good rt o es :=
  run_invariant_of_history (P := fun n es => n.Good rt o es) good_init (fun _ _ _ _ _ hn h => good_step hn h) es hrun

end

/-! ## A run of the node -/

/-- What a service node pushes is handed on. -/
theorem pushes_encode {rt : Runtime} (hrt : rt.Lawful) {l : List (String × IProtoMessage)}
    (h : ∀ push ∈ l, push.1 ≠ "" ∧ WakuMessage.InRange push.2 ∧
      Short ((MessagePush.codec rt).encode ⟨some push.2, some push.1⟩)) :
    pushes rt (l.map fun push => (MessagePush.codec rt).encode ⟨some push.2, some push.1⟩) = l := by
  induction l with
  | nil => rfl
  | cons push l ih =>
    obtain ⟨⟨hne, hrange, hshort⟩, hrest⟩ := List.forall_mem_cons.1 h
    have hwrites := MessagePush.writes hrt ⟨some push.2, some push.1⟩ fun m hm => Option.mem_some.1 hm ▸ hrange
    have hdecode : (MessagePush.codec rt).decode rt _ = _ :=
      Codec.decode_of_writes hrt (MessagePush.forward hrt) hwrites hshort
    have hpush : pushOf rt ((MessagePush.codec rt).encode ⟨some push.2, some push.1⟩) = some push := by
      simp only [pushOf, Codec.encode, hdecode, if_neg hne]
    rw [List.map_cons, pushes, hpush, ih hrest]

theorem sampleReserved_ne : "/js-waku-subscription-ping/1/me/utf8" ≠ "" := by decide

/-- A node on the topic `t`, with decoders of version 0. -/
def sampleOptions : Options where
  pubsubTopics := ["t"]
  pingsBeforePeerRenewed := 3
  enableLightPushFilterCheck := false
  numPeersToUse := 2
  reservedContentTopic := "/js-waku-subscription-ping/1/me/utf8"
  reservedContentTopic_ne := sampleReserved_ne
  reservedId := 1
  decodes dec m := (Version0.Decoder.fromProtoObj dec.pubsubTopic m).isSome
  sha256 := MessageHash.sampleSha256

/-- A call of `subscribe`, for which the one peer has accepted the request. -/
def sampleSubscribed : List NodeEvent :=
  [.shared (.connectionOpened "a"), .shared (.peerConnected "a"), .subscribe [sampleDecoder] 7,
    .gotPeers "t" [sampleDecoder] 7 ["a"], .created "t" [sampleDecoder] 7,
    .subscription "t" (.gotPeers 2 (.subscribe [sampleDecoder] 7) ["a"] true),
    .subscription "t" (.streamOpened ⟨.subscribe ["c"], "a", .call 2⟩ ⟨0, "a", ["peer-manager-lock"]⟩),
    .subscription "t" (.answered ⟨.subscribe ["c"], "a", .call 2⟩ 0 (.ok true)),
    .subscription "t" (.settled 2 (.subscribe [sampleDecoder] 7))]

/-- The callback of the topic `t`, as far as it is found for the message. -/
def Node.foundSample (n : Node) : Option Callback :=
  (n.activeSubscriptions.get "t").bind fun s =>
    (s.found (sampleOptions.env "t") MessageHash.oneNanosecond).map (·.callback)

/-- A stream that pushes one message twice. -/
def sampleFrames : List Bytes :=
  [("t", MessageHash.oneNanosecond), ("t", MessageHash.oneNanosecond)].map fun push =>
    (MessagePush.codec wireFormat).encode ⟨some push.2, some push.1⟩

theorem pushes_sampleFrames :
    pushes wireFormat sampleFrames = [("t", MessageHash.oneNanosecond), ("t", MessageHash.oneNanosecond)] := by
  refine pushes_encode wireFormat_lawful fun push hpush => ?_
  simp only [List.mem_cons, List.not_mem_nil, or_false, or_self] at hpush
  subst hpush
  refine ⟨by decide, ⟨nofun, ?_⟩, by unfold Short; decide +kernel⟩
  rintro _ ⟨⟩
  decide

/-! ## What is handed over -/

section

variable {rt : Runtime} {o : Options} {n : Node} {t : String} {s : State}

/-- **A callback is invoked at most once with a message, and only with one that was pushed on its topic.** In every run
of the node and for the subscription on every topic: a message that a callback was invoked with was invoked once, some
stream pushed it on the topic, and some call of `subscribe` had the callback and a decoder of the topic and of the
content topic of the message, which decodes it. -/
theorem invocations_of_pushes (es : List NodeEvent) (hrun : run (Node.step rt o) Node.init es = some n)
    (hs : n.activeSubscriptions.get t = some s) {c : Callback} {m : IProtoMessage} (hmem : (c, m) ∈ s.invocations) :
    s.invocations.count (c, m) = 1 ∧
      (∃ peerId frames, .pushStream peerId frames ∈ es ∧ (t, m) ∈ pushes rt frames) ∧
      ∃ decoders, (.subscribe decoders c ∈ es ∨ .subscription t (.subscribe decoders c) ∈ es) ∧
        (∀ d ∈ decoders, d.pubsubTopic = t) ∧
        ∃ d ∈ decoders, d.contentTopic = m.contentTopic ∧ o.decodes d m = true := by
  have hn := Node.good_of_run es hrun
  obtain ⟨hpushed, sc, rfl, ⟨decoders, ⟨hsubscribed, hsame⟩, hdecoders⟩, hdecodes⟩ :=
    (hn.sourced t s hs).invocations c m hmem
  refine ⟨?_, hpushed, decoders, hsubscribed, hsame, ?_⟩
  · have hle := (hn.once t s hs sc.callback m).1
    have hpos := List.count_pos_iff.2 hmem
    rw [State.handed] at hle
    omega
  · obtain ⟨d, hd, hd'⟩ := List.any_eq_true.1 hdecodes
    exact ⟨d, (hdecoders d hd).1, (hdecoders d hd).2, hd'⟩

end

/-- In the run the callback is invoked once. -/
theorem invocations_of_pushes_sample :
    ∃ n s, run (Node.step wireFormat sampleOptions) Node.init
        (sampleSubscribed ++ [.pushStream "a" sampleFrames, .frame 0, .frame 0,
          .subscription "t" (.decoded ⟨[sampleDecoder], 7⟩ MessageHash.oneNanosecond)]) = some n ∧
      n.activeSubscriptions.get "t" = some s ∧ s.invocations.count (7, MessageHash.oneNanosecond) = 1 := by
  have h : ((run (Node.step wireFormat sampleOptions) Node.init
      (sampleSubscribed ++ [.pushStream "a" sampleFrames, .frame 0, .frame 0,
        .subscription "t" (.decoded ⟨[sampleDecoder], 7⟩ MessageHash.oneNanosecond)])).bind fun n =>
          (n.activeSubscriptions.get "t").map (·.invocations)) = some [(7, MessageHash.oneNanosecond)] := by
    decide +kernel
  obtain ⟨n, hrun, h⟩ := Option.bind_eq_some_iff.1 h
  obtain ⟨s, hs, hinvocations⟩ := Option.map_eq_some_iff.1 h
  have hmem : (7, MessageHash.oneNanosecond) ∈ s.invocations := by
    rw [hinvocations]
    exact List.mem_singleton_self _
  exact ⟨n, s, hrun, hs, (invocations_of_pushes _ hrun hs hmem).1⟩

/-! ## What is not lost -/

section

variable {rt : Runtime} {o : Options} {n n' : Node} {t : String} {s s' : State}

/-- A push of a message with another hash leaves the message unreceived. -/
theorem hasReceived_pushed {env : Env} {p : PeerId} {m m' : IProtoMessage}
    (h : Filter.step env s (.pushed p m') = some s')
    (hne : MessageHash.messageHashStr env.sha256 env.pubsubTopic (.proto m') ≠
      MessageHash.messageHashStr env.sha256 env.pubsubTopic (.proto m)) : s'.hasReceived env m = s.hasReceived env m := by
  cases h
  obtain ⟨hash, hhash⟩ := MessageHash.messageHashStr_proto env.sha256 env.pubsubTopic m'
  obtain ⟨hash', hhash'⟩ := MessageHash.messageHashStr_proto env.sha256 env.pubsubTopic m
  have hne : hash' ≠ hash := by
    rintro rfl
    exact hne (hhash.trans hhash'.symm)
  have hadded : ∀ s₁ : State, s₁.monitor.receivedMessages = hash :: s.monitor.receivedMessages →
      s₁.hasReceived env m = s.hasReceived env m := by
    intro s₁ hs₁
    have hbeq : (hash' == hash) = false := by simpa using hne
    simp only [State.hasReceived, hhash', hs₁, List.contains_cons, hbeq, Bool.false_or]
  simp only [State.processIncomingMessage, hhash]
  split
  · rfl
  split
  · exact hadded _ rfl
  split <;> exact hadded _ rfl

/-- A message that a stream still has to push stays in it, or is pushed. -/
theorem Node.stream_step {e : NodeEvent} (h : n.step rt o e = some n') {i : ℕ} {peerId : PeerId} {frames : List Bytes}
    {m : IProtoMessage} (hget : n.streams[i]? = some (peerId, frames)) (hmem : (t, m) ∈ pushes rt frames) :
    (∃ frames', n'.streams[i]? = some (peerId, frames') ∧ (t, m) ∈ pushes rt frames') ∨
      e.Is rt n t (.pushed peerId m) := by
  have hlt : i < n.streams.length := (List.getElem?_eq_some_iff.1 hget).1
  rcases step_streams h with heq | ⟨peerId', frames', rfl, heq⟩ | ⟨j, peerId', bytes, frames', rfl, hget', heq⟩
  · exact .inl ⟨frames, by rw [heq, hget], hmem⟩
  · exact .inl ⟨frames, by rw [heq, List.getElem?_append_left hlt, hget], hmem⟩
  · by_cases hji : j = i
    · subst hji
      cases hget'.symm.trans hget
      rw [heq, List.getElem?_set_self hlt]
      rw [pushes] at hmem
      unfold leftAfter
      split at hmem
      · rename_i push hpush
        rcases List.mem_cons.1 hmem with rfl | hmem
        · exact .inr ⟨peerId, bytes, frames', m, hget', hpush, rfl⟩
        · exact .inl ⟨frames', rfl, hmem⟩
      · cases hmem
    · exact .inl ⟨frames, by rw [heq, List.getElem?_set_ne hji, hget], hmem⟩

/-- The message was handed to the callback, or it was not received and the stream will push it. -/
def Node.Will (rt : Runtime) (o : Options) (i : ℕ) (peerId : PeerId) (t : String) (c : Callback) (m : IProtoMessage)
    (n : Node) : Prop :=
  ∃ s, n.activeSubscriptions.get t = some s ∧ (0 < s.handed (o.env t) c m ∨
    s.hasReceived (o.env t) m = false ∧ ∃ frames, n.streams[i]? = some (peerId, frames) ∧ (t, m) ∈ pushes rt frames)

/-- A step keeps this, where the callback is found and no message with the same hash is pushed. -/
theorem Node.will_step {e : NodeEvent} {i : ℕ} {peerId : PeerId} {c : Callback} {m : IProtoMessage}
    (hwill : n.Will rt o i peerId t c m) (h : n.step rt o e = some n')
    (hfound : ∀ s, n.activeSubscriptions.get t = some s → (s.found (o.env t) m).map (·.callback) = some c)
    (hsame : ∀ p m', e.Is rt n t (.pushed p m') →
      MessageHash.messageHashStr o.sha256 t (.proto m') = MessageHash.messageHashStr o.sha256 t (.proto m) → m' = m) :
    n'.Will rt o i peerId t c m := by
  obtain ⟨s, hs, hwill⟩ := hwill
  rcases step_get h hs with ⟨hget, hnone⟩ | ⟨e', s', his, hstep, hget⟩
  · refine ⟨s, hget, hwill.imp_right fun ⟨hnew, frames, hstream, hmem⟩ => ⟨hnew, ?_⟩⟩
    exact (stream_step h hstream hmem).resolve_right (hnone _ _)
  refine ⟨s', hget, ?_⟩
  rcases hwill with hhanded | ⟨hnew, frames, hstream, hmem⟩
  · exact .inl (lt_of_lt_of_le hhanded ((delivery_mono hstep).2 c m))
  by_cases hpush : ∃ p m', e' = .pushed p m'
  · obtain ⟨p, m', rfl⟩ := hpush
    by_cases hm : m' = m
    · subst hm
      have hnew' : (n.within s).hasReceived (o.env t) m' = false := hnew
      have hfound' : ((n.within s).found (o.env t) m').map (·.callback) = some c := hfound s hs
      refine .inl ?_
      rw [(delivery_pushed hstep).2.2, if_pos ⟨hnew', rfl, hfound'⟩]
      omega
    · refine .inr ⟨(hasReceived_pushed hstep fun heq => hm (hsame p m' his heq)).trans hnew, ?_⟩
      refine (stream_step h hstream hmem).resolve_right fun his' => hm ?_
      cases his.unique his'
      rfl
  · obtain ⟨hreceived, -⟩ := delivery_step hstep fun p m' heq => hpush ⟨p, m', heq⟩
    refine .inr ⟨?_, (stream_step h hstream hmem).resolve_right fun his' => hpush ⟨_, _, his.unique his'⟩⟩
    rw [State.hasReceived, hreceived]
    exact hnew

/-- **What a stream pushes is handed over.** Let a stream be opened in any run of the node, and be read to its end, which
may interleave with anything else. If a callback is registered all the while for a message that the stream pushes on the
topic, no other message with its hash is pushed on the topic, and the message was not received before without being
handed to the callback, then it is handed to the callback once: it was invoked with it, or it is about to be. -/
theorem pushed_handed (es₁ es₂ : List NodeEvent) {n₁ n₂ : Node} {peerId : PeerId} {frames : List Bytes} {c : Callback}
    {m : IProtoMessage} (hrun₁ : run (Node.step rt o) Node.init es₁ = some n₁)
    (hrun₂ : run (Node.step rt o) n₁ (.pushStream peerId frames :: es₂) = some n₂)
    (hread : n₂.streams[n₁.streams.length]? = some (peerId, [])) (hmem : (t, m) ∈ pushes rt frames)
    (hsame : ∀ peerId' frames', .pushStream peerId' frames' ∈ es₁ ++ .pushStream peerId frames :: es₂ →
      ∀ m', (t, m') ∈ pushes rt frames' →
        MessageHash.messageHashStr o.sha256 t (.proto m') = MessageHash.messageHashStr o.sha256 t (.proto m) → m' = m)
    (hnew : ∀ s, n₁.activeSubscriptions.get t = some s → ¬Missed (o.env t) c m s)
    (hfound : ∀ es es' n, es₂ = es ++ es' → run (Node.step rt o) n₁ (.pushStream peerId frames :: es) = some n →
      ∃ s, n.activeSubscriptions.get t = some s ∧ (s.found (o.env t) m).map (·.callback) = some c) :
    ∃ s, n₂.activeSubscriptions.get t = some s ∧ s.handed (o.env t) c m = 1 := by
  have hwill : n₂.Will rt o n₁.streams.length peerId t c m := by
    obtain ⟨n, hopen, hrun⟩ := run_cons.1 hrun₂
    refine run_invariant_of_history
      (P := fun n es => es <+: es₂ → n.Will rt o n₁.streams.length peerId t c m) ?_ ?_ es₂ hrun (List.prefix_refl _)
    · -- The stream was just opened.
      intro _
      obtain ⟨s, hs, -⟩ := hfound [] es₂ n rfl (run_cons.2 ⟨n, hopen, rfl⟩)
      cases hopen
      refine ⟨s, hs, ?_⟩
      by_cases hhanded : 0 < s.handed (o.env t) c m
      · exact .inl hhanded
      · refine .inr ⟨?_, frames, by simp, hmem⟩
        by_contra hreceived
        exact hnew s hs ⟨Bool.not_eq_false _ ▸ hreceived, Nat.eq_zero_of_not_pos hhanded⟩
    · intro es n' e n'' hrun' hwill hstep hprefix
      obtain ⟨rest, hrest⟩ := hprefix
      have hes : es₂ = es ++ e :: rest := by rw [← hrest, List.append_assoc, List.singleton_append]
      refine Node.will_step (hwill ⟨e :: rest, hes.symm⟩) hstep ?_ ?_
      · intro s hs
        obtain ⟨s', hs', hcallback⟩ := hfound es (e :: rest) n' hes (run_cons.2 ⟨n, hopen, hrun'⟩)
        cases hs.symm.trans hs'
        exact hcallback
      · intro p m' his
        have hall : run (Node.step rt o) Node.init (es₁ ++ .pushStream peerId frames :: es) = some n' := by
          rw [run_append, hrun₁]
          exact run_cons.2 ⟨n, hopen, hrun'⟩
        have hgood := Node.good_of_run _ hall
        obtain ⟨p', frames', hstream, hpush⟩ := (hgood.given_of_is his).2 p m' rfl
        refine hsame p' frames' ?_ m' hpush
        rw [hes]
        simp only [List.mem_append, List.mem_cons, List.not_mem_nil] at hstream ⊢
        tauto
  have hall : run (Node.step rt o) Node.init (es₁ ++ .pushStream peerId frames :: es₂) = some n₂ := by
    rw [run_append, hrun₁]
    exact hrun₂
  have hgood := Node.good_of_run _ hall
  obtain ⟨s, hs, hhanded | ⟨-, frames', hstream, hpush⟩⟩ := hwill
  · have hle := (hgood.once t s hs c m).1
    exact ⟨s, hs, by omega⟩
  · cases hstream.symm.trans hread
    cases hpush

end

/-- The stream pushes the message twice, and it is handed over once. -/
theorem pushed_handed_sample :
    ∃ n s, run (Node.step wireFormat sampleOptions) Node.init
        (sampleSubscribed ++ .pushStream "a" sampleFrames :: [.frame 0, .frame 0]) = some n ∧
      n.activeSubscriptions.get "t" = some s ∧
      s.handed (sampleOptions.env "t") 7 MessageHash.oneNanosecond = 1 := by
  have h₁ : ((run (Node.step wireFormat sampleOptions) Node.init sampleSubscribed).bind fun n =>
      (n.activeSubscriptions.get "t").map fun s =>
        (n.streams.length, s.hasReceived (sampleOptions.env "t") MessageHash.oneNanosecond)) = some (0, false) := by
    decide +kernel
  have h₂ : ∀ k ≤ 2, ((run (Node.step wireFormat sampleOptions) Node.init
      (sampleSubscribed ++ .pushStream "a" sampleFrames :: [NodeEvent.frame 0, .frame 0].take k)).bind
        Node.foundSample) = some 7 := by decide +kernel
  have h₃ : (run (Node.step wireFormat sampleOptions) Node.init
      (sampleSubscribed ++ .pushStream "a" sampleFrames :: [.frame 0, .frame 0])).bind (fun n => n.streams[0]?) =
        some ("a", []) := by decide +kernel
  obtain ⟨n₁, hrun₁, h₁⟩ := Option.bind_eq_some_iff.1 h₁
  obtain ⟨s₁, hs₁, h₁⟩ := Option.map_eq_some_iff.1 h₁
  obtain ⟨hlength, hreceived⟩ := Prod.mk.inj h₁
  obtain ⟨n₂, hrun, hread⟩ := Option.bind_eq_some_iff.1 h₃
  have hrun₂ := hrun
  rw [run_append, hrun₁, Option.bind_some] at hrun₂
  obtain ⟨s, hs, hhanded⟩ := pushed_handed (t := "t") (c := 7) (m := MessageHash.oneNanosecond) sampleSubscribed
    [.frame 0, .frame 0] hrun₁ hrun₂ (by rw [hlength]; exact hread)
    (by rw [pushes_sampleFrames]; exact List.mem_cons_self)
    (by
      intro peerId' frames' hstream m' hm' _
      simp only [sampleSubscribed, List.cons_append, List.nil_append, List.mem_cons, NodeEvent.pushStream.injEq,
        reduceCtorEq, List.not_mem_nil, false_or, or_false] at hstream
      rw [hstream.2, pushes_sampleFrames] at hm'
      simp only [List.mem_cons, Prod.mk.injEq, true_and, List.not_mem_nil, or_false, or_self] at hm'
      exact hm')
    (by
      rintro s hs ⟨hold, -⟩
      cases hs.symm.trans hs₁
      rw [hreceived] at hold
      cases hold)
    (by
      intro es es' n hes hrun
      have htake : [NodeEvent.frame 0, .frame 0].take es.length = es := by
        rw [hes, List.take_left' rfl]
      have hle : es.length ≤ 2 := by
        have hlength := congrArg List.length hes
        simp only [List.length_cons, List.length_nil, List.length_append] at hlength
        omega
      have h := h₂ es.length hle
      rw [htake, run_append, hrun₁, Option.bind_some, hrun, Option.bind_some] at h
      obtain ⟨s, hs, hcallback⟩ := Option.bind_eq_some_iff.1 h
      exact ⟨s, hs, hcallback⟩)
  exact ⟨n₂, s, hrun, hs, hhanded⟩

end JsWaku.Filter
