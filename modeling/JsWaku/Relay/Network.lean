import JsWaku.Core.RequestMethods
import JsWaku.MessageEncryption.Wire
import JsWaku.Relay.Observers
import Mathlib.Logic.Function.Basic

/-!
# A network of relay nodes

`Relay.send` of `packages/relay/src/relay.ts`, `messageValidator` of `message_validator.ts` and `TopicOnlyDecoder` of
`topic_only_message.ts`, and nodes that run them together. GossipSub is a package of its own; of it the network keeps that
a message which is carried can reach a node that has started and listens to the topic, if the validator of the node
accepts it, in any order and any number of times. Other programs may put any bytes on any topic.

The proto objects of the encoders of the packages have their flag set, and numbers that fit if the message is stamped
within 64 bits of nanoseconds (`encodes_packages`). Then, whatever the nodes do, a call of a callback comes from a message
on a topic of its subscription (`calls_sound`), and a message that a node sent passes the validators as the encoder made it
and calls for the subscriptions that are live at the receiver (`deliver_sent`).
-/

namespace JsWaku.Relay

open Transition Proto RequestMethods

/-! ## The code -/

/-- `ProtocolError`, the members that `send` returns. -/
inductive SendError
  | TOPIC_NOT_CONFIGURED
  | ENCODE_FAILED
  | SIZE_TOO_BIG
  deriving DecidableEq, Repr

/-- `SDKProtocolResult` of `send`. -/
structure SendResult where
  successes : List PeerId
  failures : List SendError
  deriving DecidableEq, Repr

/-- `send` up to `publish`: the failure that it returns, or the bytes. -/
def prepare (pubsubTopics : List String) (encoder : IEncoder) (message : IMessage) :
    Except JsError (Except SendError Bytes) :=
  if encoder.pubsubTopic ∉ pubsubTopics then return .error .TOPIC_NOT_CONFIGURED
  else do
    match ← encoder.toWire message with
    | none => return .error .ENCODE_FAILED
    | some msg => if !isWireSizeUnderCap msg then return .error .SIZE_TOO_BIG else return .ok msg

/-- `send`, where GossipSub publishes or throws. -/
def send (pubsubTopics : List String) (publish : String → Bytes → Except JsError (List PeerId)) (encoder : IEncoder)
    (message : IMessage) : Except JsError SendResult := do
  match ← prepare pubsubTopics encoder message with
  | .error error => return { successes := [], failures := [error] }
  | .ok msg => do
    let recipients ← publish encoder.pubsubTopic msg
    return { successes := recipients, failures := [] }

section

variable (rt : Runtime)

/-- `messageValidator`: whether the message is accepted. -/
def messageValidator (data : Bytes) : Bool :=
  match WakuMessage.decode rt data with
  | .ok protoMessage => !(protoMessage.contentTopic = "" ∨ protoMessage.payload = [])
  | .error _ => false

/-- `TopicOnlyDecoder.fromWireToProtoObj`. -/
def TopicOnlyDecoder.fromWireToProtoObj (bytes : Bytes) : Except JsError (Option IProtoMessage) := do
  let protoMessage ← TopicOnlyMessage.decode rt bytes
  return some { WakuMessage.empty with contentTopic := protoMessage.contentTopic }

/-- A decoder of the packages: they all inherit `fromWireToProtoObj`. -/
structure Decoder (Msg : Type) where
  pubsubTopic : String
  contentTopic : String
  fromProtoObj : String → IProtoMessage → Except JsError (Option Msg)

/-- The decoder as Relay sees it. -/
def Decoder.toIDecoder {Msg : Type} (d : Decoder Msg) : IDecoder Msg where
  pubsubTopic := d.pubsubTopic
  contentTopic := d.contentTopic
  fromWireToProtoObj bytes := some <$> Version0.Decoder.fromWireToProtoObj rt bytes
  fromProtoObj := d.fromProtoObj

/-- An encoder of the packages: they all write the proto object that they make. -/
def wireEncoder (pubsubTopic : String) (toProtoObj : IMessage → Except JsError IProtoMessage) : IEncoder where
  pubsubTopic
  toWire message := do
    let protoMessage ← toProtoObj message
    return some (WakuMessage.encode rt protoMessage)
  toProtoObj message := some <$> toProtoObj message

end

/-! ## The network -/

/-- The nodes, the messages that GossipSub carries, with their topics, and the calls that the nodes made. -/
structure Network (ι Callback Msg : Type) where
  nodes : ι → State Callback Msg
  carried : List (String × Bytes)
  calls : List (ι × Callback × Msg)

/-- A call at a node, bytes of another program, or a message that reaches a node. -/
inductive NetworkEvent (ι Callback Msg : Type)
  | start (i : ι)
  | subscribe (i : ι) (decoders : List (Decoder Msg)) (callback : Callback)
  | unsubscribe (i : ι) (call : ℕ)
  | send (i : ι) (pubsubTopic : String) (toProtoObj : IMessage → Except JsError IProtoMessage) (message : IMessage)
  | foreign (topic : String) (data : Bytes)
  | deliver (i : ι) (topic : String) (data : Bytes)

variable {ι Callback Msg : Type} [DecidableEq ι] (rt : Runtime) (topics : ι → { topics : List String // topics.Nodup })

/-- What an event is for a node. -/
def NetworkEvent.own (i : ι) : NetworkEvent ι Callback Msg → Option (Event Callback Msg)
  | .start j => if i = j then some .start else none
  | .subscribe j decoders callback =>
    if i = j then some (.subscribeWithUnsubscribe (decoders.map (·.toIDecoder rt)) callback) else none
  | .unsubscribe j call => if i = j then some (.unsubscribe call) else none
  | _ => none

namespace Network

/-- The environment of a node. -/
def env (i : ι) : Env := ⟨(topics i).1, (topics i).2, TopicOnlyDecoder.fromWireToProtoObj rt⟩

/-- A step of one node. -/
def update (s : Network ι Callback Msg) (i : ι) (e : Event Callback Msg) : Option (Network ι Callback Msg) :=
  (Relay.step (env rt topics i) (s.nodes i) e).map fun node => { s with nodes := Function.update s.nodes i node }

/-- One thing happens. A message that is not published is not carried. -/
def step (s : Network ι Callback Msg) : NetworkEvent ι Callback Msg → Option (Network ι Callback Msg)
  | .start i => s.update rt topics i .start
  | .subscribe i decoders callback =>
    s.update rt topics i (.subscribeWithUnsubscribe (decoders.map (·.toIDecoder rt)) callback)
  | .unsubscribe i call => s.update rt topics i (.unsubscribe call)
  | .send i pubsubTopic toProtoObj message =>
    match prepare (topics i) (wireEncoder rt pubsubTopic toProtoObj) message with
    | .ok (.ok msg) => some { s with carried := s.carried ++ [(pubsubTopic, msg)] }
    | _ => some s
  | .foreign topic data => some { s with carried := s.carried ++ [(topic, data)] }
  | .deliver i topic data =>
    if (topic, data) ∈ s.carried ∧ topic ∈ (s.nodes i).listeners ∧ messageValidator rt data then
      some { s with calls := s.calls ++ (gossipsubMessage (env rt topics i) (s.nodes i) topic data).map (i, ·) }
    else none

/-- New nodes, each with GossipSub started or not. -/
def init (started : ι → Bool) : Network ι Callback Msg where
  nodes i := new (env rt topics i) (started i)
  carried := []
  calls := []

end Network

/-- What a node did and got in a run. -/
def NetworkEvent.history (i : ι) (es : List (NetworkEvent ι Callback Msg)) : List (Event Callback Msg) :=
  es.filterMap (own rt i)

/-! ## Nodes within the network -/

section

variable {rt topics} {s s' t : Network ι Callback Msg} {started : ι → Bool}

theorem Network.update_eq_some {i : ι} {e : Event Callback Msg} (h : s.update rt topics i e = some s') :
    ∃ node, Relay.step (env rt topics i) (s.nodes i) e = some node ∧
      s' = { s with nodes := Function.update s.nodes i node } := by
  obtain ⟨node, hnode, rfl⟩ := Option.map_eq_some_iff.1 h
  exact ⟨node, hnode, rfl⟩

/-- A step of one node is no step of another. -/
theorem Network.update_nodes {j : ι} {e : Event Callback Msg} (h : s.update rt topics j e = some s') (i : ι) :
    (if i = j then some e else none).elim (s'.nodes i = s.nodes i) fun e' =>
      Relay.step (env rt topics i) (s.nodes i) e' = some (s'.nodes i) := by
  obtain ⟨node, hnode, rfl⟩ := update_eq_some h
  by_cases hij : i = j
  · subst hij
    rw [if_pos rfl]
    simpa using hnode
  · rw [if_neg hij]
    exact Function.update_of_ne hij node s.nodes

/-- A step of the network is a step of a node, or leaves it alone. -/
theorem Network.step_nodes (s : Network ι Callback Msg) (e : NetworkEvent ι Callback Msg) (s' : Network ι Callback Msg)
    (h : step rt topics s e = some s') (i : ι) :
    (e.own rt i).elim (s'.nodes i = s.nodes i) fun e' =>
      Relay.step (env rt topics i) (s.nodes i) e' = some (s'.nodes i) := by
  cases e with
  | start j => exact update_nodes h i
  | subscribe j decoders callback => exact update_nodes h i
  | unsubscribe j call => exact update_nodes h i
  | send j pubsubTopic toProtoObj message =>
    simp only [step] at h
    split at h <;> cases h <;> rfl
  | foreign topic data =>
    cases h
    rfl
  | deliver j topic data =>
    simp only [step] at h
    split at h <;> cases h
    rfl

/-- In a run of the network each node runs its own code. -/
theorem Network.run_node (es : List (NetworkEvent ι Callback Msg))
    (hrun : run (step rt topics) (init rt topics started) es = some s) (i : ι) :
    run (Relay.step (env rt topics i)) (new (env rt topics i) (started i)) (NetworkEvent.history rt i es) =
      some (s.nodes i) :=
  run_component (fun s => s.nodes i) (fun s e s' h => step_nodes s e s' h i) es hrun

end

/-! ## One message at one node -/

/-- What a callback is called with for a proto object, unless its decoder throws or has nothing. -/
def callWith (pubsubTopic : String) (protoMsg : IProtoMessage) : Callback × IDecoder Msg → Option (Callback × Msg)
  | (callback, d) =>
    match d.fromProtoObj pubsubTopic protoMsg with
    | .ok (some msg) => some (callback, msg)
    | _ => none

section

variable {env : Env} {s : State Callback Msg} {entries : List (Subscription Callback Msg × List (Observer Callback Msg))}
  {p : String} {data : Bytes}

theorem Observer.notify_of_wire {o : Observer Callback Msg} {protoMsg : IProtoMessage}
    (h : o.decoder.fromWireToProtoObj data = .ok (some protoMsg)) :
    o.notify p data = callWith p protoMsg (o.callback, o.decoder) := by
  cases hresult : o.decoder.fromProtoObj p protoMsg with
  | error e => simp [notify, h, callWith, hresult]
  | ok result => cases result <;> simp [notify, h, callWith, hresult]

/-- The calls of a node, for a message on a topic that it listens to. -/
theorem Refines.gossipsubMessage_eq (h : Refines env s entries) (hp : p ∈ s.listeners) :
    gossipsubMessage env s p data = processIncomingMessage env s p data := by
  have hnodup : s.listeners.Nodup := by
    rw [h.listeners]
    split
    · exact env.nodup
    · exact List.nodup_nil
  exact flatMap_listeners hnodup hp _

/-- They are those that the subscriptions are due. -/
theorem Refines.calls_of_wire (h : Refines env s entries) (hp : p ∈ s.listeners) {topicOnlyMsg protoMsg : IProtoMessage}
    (htopic : env.defaultDecoder data = .ok (some topicOnlyMsg)) (hne : topicOnlyMsg.contentTopic ≠ "")
    (hwire : ∀ sub ∈ entries.map Prod.fst, ∀ d ∈ sub.decoders, d.fromWireToProtoObj data = .ok (some protoMsg)) :
    gossipsubMessage env s p data =
      ((entries.map Prod.fst).flatMap (·.due p topicOnlyMsg.contentTopic)).filterMap (callWith p protoMsg) := by
  rw [h.gossipsubMessage_eq hp, processIncomingMessage, htopic]
  dsimp only
  rw [if_neg hne, ← h.map_observersOf, List.filterMap_map]
  refine List.filterMap_congr fun o ho => Observer.notify_of_wire ?_
  have hdue : (o.callback, o.decoder) ∈ (entries.map Prod.fst).flatMap (·.due p topicOnlyMsg.contentTopic) := by
    rw [← h.map_observersOf]
    exact List.mem_map_of_mem ho
  obtain ⟨sub, hsub, hmem⟩ := List.mem_flatMap.1 hdue
  exact hwire sub hsub o.decoder (Subscription.mem_due hmem).1

/-- A call comes from a subscription for the topics of the message. -/
theorem Refines.mem_calls (h : Refines env s entries) (hp : p ∈ s.listeners) {callback : Callback} {msg : Msg}
    (hcall : (callback, msg) ∈ gossipsubMessage env s p data) :
    ∃ topicOnlyMsg protoMsg sub d, env.defaultDecoder data = .ok (some topicOnlyMsg) ∧ topicOnlyMsg.contentTopic ≠ "" ∧
      sub ∈ entries.map Prod.fst ∧ (callback, d) ∈ sub.due p topicOnlyMsg.contentTopic ∧
      d.fromWireToProtoObj data = .ok (some protoMsg) ∧ d.fromProtoObj p protoMsg = .ok (some msg) := by
  rw [h.gossipsubMessage_eq hp, processIncomingMessage] at hcall
  split at hcall
  · rename_i topicOnlyMsg htopic
    split at hcall
    · cases hcall
    rename_i hne
    obtain ⟨o, ho, hnotify⟩ := List.mem_filterMap.1 hcall
    have hdue : (o.callback, o.decoder) ∈ (entries.map Prod.fst).flatMap (·.due p topicOnlyMsg.contentTopic) := by
      rw [← h.map_observersOf]
      exact List.mem_map_of_mem ho
    obtain ⟨sub, hsub, hmem⟩ := List.mem_flatMap.1 hdue
    unfold Observer.notify at hnotify
    split at hnotify
    · rename_i protoMsg hwire
      split at hnotify
      · rename_i msg' hmsg
        cases hnotify
        exact ⟨topicOnlyMsg, protoMsg, sub, o.decoder, htopic, hne, hsub, hmem, hwire, hmsg⟩
      · cases hnotify
    · cases hnotify
  · cases hcall

end

/-- A subscription was made by a call. -/
theorem mem_subscriptions {es : List (Event Callback Msg)} {sub : Subscription Callback Msg}
    (h : sub ∈ subscriptions es) : .subscribeWithUnsubscribe sub.decoders sub.callback ∈ es := by
  induction es using List.reverseRecOn generalizing sub with
  | nil => cases h
  | append_singleton es e ih =>
    rw [subscriptions, List.foldl_append] at h
    change sub ∈ subscribed (subscriptions es) e at h
    cases e with
    | subscribeWithUnsubscribe decoders callback =>
      rcases List.mem_append.1 h with h | h
      · exact List.mem_append_left _ (ih h)
      · cases List.mem_singleton.1 h
        exact List.mem_append_right _ (List.mem_singleton_self _)
    | unsubscribe call =>
      obtain ⟨sub', hsub', hsame⟩ : ∃ sub' ∈ subscriptions es, sub'.decoders = sub.decoders ∧
          sub'.callback = sub.callback := by
        obtain ⟨j, hj⟩ := List.mem_iff_getElem?.1 h
        rw [subscribed, List.getElem?_modify] at hj
        obtain ⟨sub', hsub', hmodified⟩ := Option.map_eq_some_iff.1 hj
        refine ⟨sub', List.mem_of_getElem? hsub', ?_⟩
        split at hmodified <;> cases hmodified <;> exact ⟨rfl, rfl⟩
      rw [← hsame.1, ← hsame.2]
      exact List.mem_append_left _ (ih hsub')
    | start => exact List.mem_append_left _ (ih h)
    | message topic data => exact List.mem_append_left _ (ih h)

/-! ## Messages of the encoders -/

/-- The proto objects of the encoder have a flag and numbers that fit. -/
def NetworkEvent.Encodes : NetworkEvent ι Callback Msg → Prop
  | .send _ _ toProtoObj message =>
    ∀ proto, toProtoObj message = .ok proto → WakuMessage.InRange proto ∧ proto.ephemeral ≠ none
  | _ => True

omit [DecidableEq ι] in
/-- So do those of the encoders of the packages, for messages that are stamped in time. -/
theorem NetworkEvent.encodes_packages {now : Date} {message : IMessage} (htime : message.InTime now) (i : ι) (p : String)
    (C : Crypto) (randomBytes : ℕ → Bytes) :
    (∀ enc : EncoderFields,
      (send i p (Version0.Encoder.toProtoObj enc now) message : NetworkEvent ι Callback Msg).Encodes) ∧
    (∀ (enc : MessageEncryption.Ecies.Encoder) (ephemPrivateKey : RandomBytes 32) (iv : RandomBytes 16),
      (send i p (enc.toProtoObj C ephemPrivateKey iv randomBytes now) message : NetworkEvent ι Callback Msg).Encodes) ∧
    ∀ (enc : MessageEncryption.Symmetric.Encoder) (iv : RandomBytes Symmetric.ivSize),
      (send i p (enc.toProtoObj C iv randomBytes now) message : NetworkEvent ι Callback Msg).Encodes := by
  refine ⟨fun enc proto hproto => ?_, fun enc ephemPrivateKey iv proto hproto => ?_, fun enc iv proto hproto => ?_⟩
  · exact EncoderFields.inRange_protoObj (by decide) htime hproto
  · exact MessageEncryption.inRange_toProtoObj htime hproto
  · exact MessageEncryption.inRange_toProtoObj htime hproto

section

variable {rt} {pubsubTopics : List String} {pubsubTopic : String}
  {toProtoObj : IMessage → Except JsError IProtoMessage} {message : IMessage} {proto : IProtoMessage} {data : Bytes}

/-- What a node publishes is the proto object of the encoder, of at most a megabyte, on one of its topics. -/
theorem prepare_wireEncoder (h : prepare pubsubTopics (wireEncoder rt pubsubTopic toProtoObj) message = .ok (.ok data)) :
    pubsubTopic ∈ pubsubTopics ∧ Short data ∧
      ∃ proto, toProtoObj message = .ok proto ∧ data = WakuMessage.encode rt proto := by
  unfold prepare at h
  split at h
  · cases h
  rename_i htopic
  obtain ⟨msg, hmsg, h⟩ := bind_eq_ok.1 h
  obtain ⟨proto, hproto, hmsg⟩ := bind_eq_ok.1 hmsg
  cases hmsg
  dsimp only at h
  split at h
  · cases h
  rename_i hsize
  cases h
  refine ⟨not_not.1 htopic, ?_, proto, hproto, rfl⟩
  have hle : (WakuMessage.encode rt proto).length ≤ SIZE_CAP_IN_MB * MB := by simpa [isWireSizeUnderCap] using hsize
  exact lt_of_le_of_lt hle (by decide)

variable (hrt : rt.Lawful)
include hrt

/-- The validator accepts what has a content topic and a payload. -/
theorem messageValidator_encode (hrange : WakuMessage.InRange proto) (hshort : Short (WakuMessage.encode rt proto)) :
    messageValidator rt (WakuMessage.encode rt proto) = true ↔ proto.contentTopic ≠ "" ∧ proto.payload ≠ [] := by
  simp [messageValidator, WakuMessage.decode_encode hrt hrange hshort]

theorem topicOnlyDecoder_encode (hrange : WakuMessage.InRange proto) (hshort : Short (WakuMessage.encode rt proto)) :
    TopicOnlyDecoder.fromWireToProtoObj rt (WakuMessage.encode rt proto) =
      .ok (some { WakuMessage.empty with contentTopic := proto.contentTopic }) := by
  rw [TopicOnlyDecoder.fromWireToProtoObj, TopicOnlyMessage.decode_encode hrt hrange hshort]
  rfl

end

section

variable {rt topics} {s s' : Network ι Callback Msg} {started : ι → Bool}

/-- The decoders of a node inherit `fromWireToProtoObj`. -/
theorem exists_decoder {es : List (NetworkEvent ι Callback Msg)} {i : ι} {sub : Subscription Callback Msg}
    (hsub : sub ∈ subscriptions (NetworkEvent.history rt i es)) :
    ∃ decoders, .subscribe i decoders sub.callback ∈ es ∧ sub.decoders = decoders.map (·.toIDecoder rt) := by
  obtain ⟨e, he, hown⟩ := List.mem_filterMap.1 (mem_subscriptions hsub)
  unfold NetworkEvent.own at hown
  split at hown
  · split at hown <;> cases hown
  · rename_i j decoders callback
    split at hown
    · rename_i hij
      subst hij
      rw [Option.some.injEq, Event.subscribeWithUnsubscribe.injEq] at hown
      exact ⟨decoders, hown.2 ▸ he, hown.1.symm⟩
    · cases hown
  · split at hown <;> cases hown
  · cases hown

/-- What a call of a subscription was due for. -/
theorem Subscription.callback_of_due {sub : Subscription Callback Msg} {p c : String} {callback : Callback}
    {d : IDecoder Msg} (h : (callback, d) ∈ sub.due p c) : sub.callback = callback := by
  unfold due at h
  split at h
  · obtain ⟨d', hd', heq⟩ := List.mem_map.1 h
    exact (Prod.mk.inj heq).1
  · cases h

variable (rt topics) in
/-- Where a carried message comes from. -/
inductive Origin (es : List (NetworkEvent ι Callback Msg)) (p : String) (data : Bytes) : Prop
  | sent {j : ι} {toProtoObj : IMessage → Except JsError IProtoMessage} {message : IMessage}
    (hmem : .send j p toProtoObj message ∈ es)
    (hsent : prepare (topics j) (wireEncoder rt p toProtoObj) message = .ok (.ok data)) : Origin es p data
  | foreign (hmem : .foreign p data ∈ es) : Origin es p data

omit [DecidableEq ι] in
theorem Origin.append {es : List (NetworkEvent ι Callback Msg)} {p : String} {data : Bytes}
    (h : Origin rt topics es p data) (e : NetworkEvent ι Callback Msg) : Origin rt topics (es ++ [e]) p data := by
  cases h with
  | sent hmem hsent => exact .sent (List.mem_append_left _ hmem) hsent
  | foreign hmem => exact .foreign (List.mem_append_left _ hmem)

/-- Every carried message has an origin. -/
theorem carried_origin (es : List (NetworkEvent ι Callback Msg))
    (hrun : run (Network.step rt topics) (Network.init rt topics started) es = some s) :
    ∀ p data, (p, data) ∈ s.carried → Origin rt topics es p data := by
  refine run_invariant_of_history (P := fun s es => ∀ p data, (p, data) ∈ s.carried → Origin rt topics es p data)
    (fun p data hmem => absurd hmem List.not_mem_nil) ?_ es hrun
  intro es s e s' _ hs hstep p data hmem
  have hkeep (hsame : s'.carried = s.carried) : Origin rt topics (es ++ [e]) p data :=
    (hs p data (hsame ▸ hmem)).append e
  cases e with
  | start j =>
    obtain ⟨node, -, rfl⟩ := Network.update_eq_some hstep
    exact hkeep rfl
  | subscribe j decoders callback =>
    obtain ⟨node, -, rfl⟩ := Network.update_eq_some hstep
    exact hkeep rfl
  | unsubscribe j call =>
    obtain ⟨node, -, rfl⟩ := Network.update_eq_some hstep
    exact hkeep rfl
  | send j pubsubTopic toProtoObj message =>
    simp only [Network.step] at hstep
    split at hstep
    · rename_i msg hprepare
      cases hstep
      rcases List.mem_append.1 hmem with hmem | hmem
      · exact (hs p data hmem).append _
      · cases List.mem_singleton.1 hmem
        exact .sent (List.mem_append_right _ (List.mem_singleton_self _)) hprepare
    · cases hstep
      exact hkeep rfl
  | foreign topic bytes =>
    cases hstep
    rcases List.mem_append.1 hmem with hmem | hmem
    · exact (hs p data hmem).append _
    · cases List.mem_singleton.1 hmem
      exact .foreign (List.mem_append_right _ (List.mem_singleton_self _))
  | deliver j topic bytes =>
    simp only [Network.step] at hstep
    split at hstep
    · cases hstep
      exact hkeep rfl
    · cases hstep

variable (rt topics) in
/-- Why a node called: a subscription of it, with a decoder for the topics of a message that has a payload. -/
def Accounted (es : List (NetworkEvent ι Callback Msg)) (call : ι × Callback × Msg) : Prop :=
  ∃ data decoders, ∃ d ∈ decoders, ∃ protoMsg, .subscribe call.1 decoders call.2.1 ∈ es ∧
    d.pubsubTopic ∈ (topics call.1).1 ∧ Origin rt topics es d.pubsubTopic data ∧
    TopicOnlyMessage.decode rt data = .ok ⟨d.contentTopic⟩ ∧ d.contentTopic ≠ "" ∧
    Version0.Decoder.fromWireToProtoObj rt data = .ok protoMsg ∧ protoMsg.payload ≠ [] ∧
    d.fromProtoObj d.pubsubTopic protoMsg = .ok (some call.2.2)

omit [DecidableEq ι] in
theorem Accounted.append {es : List (NetworkEvent ι Callback Msg)} {call : ι × Callback × Msg}
    (h : Accounted rt topics es call) (e : NetworkEvent ι Callback Msg) : Accounted rt topics (es ++ [e]) call := by
  obtain ⟨data, decoders, d, hd, protoMsg, hmem, htopic, horigin, hrest⟩ := h
  exact ⟨data, decoders, d, hd, protoMsg, List.mem_append_left _ hmem, htopic, horigin.append e, hrest⟩

/-- What the validator accepts has a payload. -/
theorem payload_of_valid {data : Bytes} {protoMsg : IProtoMessage} (hvalid : messageValidator rt data = true)
    (h : Version0.Decoder.fromWireToProtoObj rt data = .ok protoMsg) : protoMsg.payload ≠ [] := by
  obtain ⟨protoMessage, hdecode, h⟩ := bind_eq_ok.1 h
  cases h
  simp only [messageValidator, hdecode, Bool.not_eq_true', decide_eq_false_iff_not, not_or] at hvalid
  exact hvalid.2

/-- The calls for a message that is delivered are accounted for. -/
theorem accounted_deliver (es : List (NetworkEvent ι Callback Msg))
    (hrun : run (Network.step rt topics) (Network.init rt topics started) es = some s) {i : ι} {p : String} {data : Bytes}
    (hcarried : (p, data) ∈ s.carried) (hp : p ∈ (s.nodes i).listeners) (hvalid : messageValidator rt data = true)
    {callback : Callback} {msg : Msg}
    (hcall : (callback, msg) ∈ gossipsubMessage (Network.env rt topics i) (s.nodes i) p data) :
    Accounted rt topics es (i, callback, msg) := by
  obtain ⟨entries, h, hsubs⟩ := refines_run _ (refines_new _ (started i)) (Network.run_node es hrun i)
  change entries.map Prod.fst = subscriptions (NetworkEvent.history rt i es) at hsubs
  obtain ⟨topicOnlyMsg, protoMsg, sub, d, htopic, hne, hsub, hdue, hwire, hmsg⟩ := h.mem_calls hp hcall
  rw [hsubs] at hsub
  obtain ⟨decoders, hmem, hdecoders⟩ := exists_decoder hsub
  obtain ⟨hd, hfor⟩ := Subscription.mem_due hdue
  rw [hdecoders] at hd
  obtain ⟨d', hd', rfl⟩ := List.mem_map.1 hd
  obtain ⟨rfl, hcontentTopic⟩ := of_decide_eq_true hfor
  rw [Subscription.callback_of_due hdue] at hmem
  obtain ⟨protoMessage, htopicOnly, hempty⟩ := bind_eq_ok.1 htopic
  cases hempty
  have hcontent : d'.contentTopic = protoMessage.contentTopic := hcontentTopic
  rw [← hcontent] at hne
  have hfrom : Version0.Decoder.fromWireToProtoObj rt data = .ok protoMsg := by
    cases hresult : Version0.Decoder.fromWireToProtoObj rt data with
    | error e => simp [Decoder.toIDecoder, hresult] at hwire
    | ok result => simpa [Decoder.toIDecoder, hresult] using hwire
  have htopics : d'.pubsubTopic ∈ (topics i).1 := by
    have hlisteners := h.listeners
    split at hlisteners
    · rwa [hlisteners] at hp
    · rw [hlisteners] at hp
      cases hp
  refine ⟨data, decoders, d', hd', protoMsg, hmem, htopics, carried_origin es hrun _ _ hcarried, ?_, hne, hfrom,
    payload_of_valid hvalid hfrom, hmsg⟩
  rw [htopicOnly, hcontent]

/-- In every run the calls are accounted for. -/
theorem accounted_calls (es : List (NetworkEvent ι Callback Msg))
    (hrun : run (Network.step rt topics) (Network.init rt topics started) es = some s) :
    ∀ call ∈ s.calls, Accounted rt topics es call := by
  refine run_invariant_of_history (P := fun s es => ∀ call ∈ s.calls, Accounted rt topics es call)
    (fun call hmem => absurd hmem List.not_mem_nil) ?_ es hrun
  intro es s e s' hrun hs hstep call hmem
  have hkeep (hsame : s'.calls = s.calls) : Accounted rt topics (es ++ [e]) call := (hs call (hsame ▸ hmem)).append e
  cases e with
  | start j =>
    obtain ⟨node, -, rfl⟩ := Network.update_eq_some hstep
    exact hkeep rfl
  | subscribe j decoders callback =>
    obtain ⟨node, -, rfl⟩ := Network.update_eq_some hstep
    exact hkeep rfl
  | unsubscribe j call =>
    obtain ⟨node, -, rfl⟩ := Network.update_eq_some hstep
    exact hkeep rfl
  | send j pubsubTopic toProtoObj message =>
    simp only [Network.step] at hstep
    split at hstep <;> cases hstep <;> exact hkeep rfl
  | foreign topic bytes =>
    cases hstep
    exact hkeep rfl
  | deliver j topic bytes =>
    simp only [Network.step] at hstep
    split at hstep
    · rename_i hcan
      cases hstep
      rcases List.mem_append.1 hmem with hmem | hmem
      · exact (hs call hmem).append _
      · obtain ⟨⟨callback, msg⟩, hcall, rfl⟩ := List.mem_map.1 hmem
        exact (accounted_deliver es hrun hcan.1 hcan.2.1 hcan.2.2 hcall).append _
    · cases hstep

variable (topics) in
/-- A carried message reaches a node that listens, if the validator accepts it. -/
theorem step_deliver {i : ι} {p : String} {data : Bytes} (hcarried : (p, data) ∈ s.carried)
    (hp : p ∈ (s.nodes i).listeners) (hvalid : messageValidator rt data = true) :
    Network.step rt topics s (.deliver i p data) = some { s with
      calls := s.calls ++ (gossipsubMessage (Network.env rt topics i) (s.nodes i) p data).map (i, ·) } :=
  if_pos ⟨hcarried, hp, hvalid⟩

/-- **No call without a message.** In every run, a call comes from a subscription of its node, by a decoder for the topics
of a message with a payload: the proto object that a node's encoder made when it sent on that topic, or what another program
put there. -/
theorem calls_sound (hrt : rt.Lawful) (es : List (NetworkEvent ι Callback Msg)) (hes : ∀ e ∈ es, e.Encodes)
    (hrun : run (Network.step rt topics) (Network.init rt topics started) es = some s) {i : ι} {callback : Callback}
    {msg : Msg} (hcall : (i, callback, msg) ∈ s.calls) :
    ∃ decoders, ∃ d ∈ decoders, ∃ protoMsg, .subscribe i decoders callback ∈ es ∧ d.pubsubTopic ∈ (topics i).1 ∧
      d.contentTopic ≠ "" ∧ protoMsg.payload ≠ [] ∧ d.fromProtoObj d.pubsubTopic protoMsg = .ok (some msg) ∧
      ((∃ j toProtoObj message, .send j d.pubsubTopic toProtoObj message ∈ es ∧ d.pubsubTopic ∈ (topics j).1 ∧
          toProtoObj message = .ok protoMsg ∧ protoMsg.contentTopic = d.contentTopic) ∨
        ∃ data, .foreign d.pubsubTopic data ∈ es ∧ TopicOnlyMessage.decode rt data = .ok ⟨d.contentTopic⟩ ∧
          Version0.Decoder.fromWireToProtoObj rt data = .ok protoMsg) := by
  obtain ⟨data, decoders, d, hd, protoMsg, hsubscribe, htopic, horigin, htopicOnly, hne, hwire, hpayload, hmsg⟩ :=
    accounted_calls es hrun _ hcall
  refine ⟨decoders, d, hd, protoMsg, hsubscribe, htopic, hne, hpayload, hmsg, ?_⟩
  cases horigin with
  | foreign hmem => exact .inr ⟨data, hmem, htopicOnly, hwire⟩
  | @sent j toProtoObj message hmem hsent =>
    obtain ⟨hj, hshort, proto, hproto, rfl⟩ := prepare_wireEncoder hsent
    obtain ⟨hrange, hephemeral⟩ := hes _ hmem proto hproto
    rw [Version0.fromWireToProtoObj_encode hrt hrange hephemeral hshort] at hwire
    cases hwire
    rw [TopicOnlyMessage.decode_encode hrt hrange hshort] at htopicOnly
    exact .inl ⟨j, toProtoObj, message, hmem, hj, hproto, by injection htopicOnly with h; injection h⟩

/-- **Delivery of what a node sent.** The validators accept what a node publishes iff it has a content topic and a
payload. A delivery of it calls for every subscription that is live at the receiver, once for each decoder for the topics,
with the proto object that the sender's encoder made. -/
theorem deliver_sent (hrt : rt.Lawful) (es : List (NetworkEvent ι Callback Msg))
    (hrun : run (Network.step rt topics) (Network.init rt topics started) es = some s) {j : ι} {p : String}
    {toProtoObj : IMessage → Except JsError IProtoMessage} {message : IMessage} {data : Bytes}
    (hencodes : (NetworkEvent.send j p toProtoObj message : NetworkEvent ι Callback Msg).Encodes)
    (hsent : prepare (topics j) (wireEncoder rt p toProtoObj) message = .ok (.ok data)) (i : ι) :
    ∃ proto, toProtoObj message = .ok proto ∧
      (messageValidator rt data = true ↔ proto.contentTopic ≠ "" ∧ proto.payload ≠ []) ∧
      ∀ s', Network.step rt topics s (.deliver i p data) = some s' →
        s'.calls = s.calls ++ (((subscriptions (NetworkEvent.history rt i es)).flatMap
          (·.due p proto.contentTopic)).filterMap (callWith p proto)).map (i, ·) := by
  obtain ⟨-, hshort, proto, hproto, rfl⟩ := prepare_wireEncoder hsent
  obtain ⟨hrange, hephemeral⟩ := hencodes proto hproto
  have hvalid := messageValidator_encode hrt hrange hshort
  refine ⟨proto, hproto, hvalid, fun s' hstep => ?_⟩
  simp only [Network.step] at hstep
  split at hstep
  · rename_i hcan
    cases hstep
    obtain ⟨entries, h, hsubs⟩ := refines_run _ (refines_new _ (started i)) (Network.run_node es hrun i)
    change entries.map Prod.fst = subscriptions (NetworkEvent.history rt i es) at hsubs
    have hwire : ∀ sub ∈ entries.map Prod.fst, ∀ d ∈ sub.decoders,
        d.fromWireToProtoObj (WakuMessage.encode rt proto) = .ok (some proto) := by
      intro sub hsub d hd
      rw [hsubs] at hsub
      obtain ⟨decoders, -, hdecoders⟩ := exists_decoder hsub
      rw [hdecoders] at hd
      obtain ⟨d', -, rfl⟩ := List.mem_map.1 hd
      simp only [Decoder.toIDecoder, Version0.fromWireToProtoObj_encode hrt hrange hephemeral hshort]
      rfl
    have htopicOnly := topicOnlyDecoder_encode hrt hrange hshort
    have hcalls := h.calls_of_wire hcan.2.1 htopicOnly (hvalid.1 hcan.2.2).1 hwire
    rw [hsubs] at hcalls
    dsimp only
    rw [hcalls]
  · cases hstep

end

/-! ## A run -/

/-- Two nodes on one topic. -/
def sampleTopics (_ : Bool) : { topics : List String // topics.Nodup } := ⟨["/waku/2/rs/1/0"], List.nodup_singleton _⟩

/-- A version 0 decoder. -/
def sampleDecoder : Decoder Version0.DecodedMessage where
  pubsubTopic := "/waku/2/rs/1/0"
  contentTopic := "/test/1/waku-light-push/utf8"
  fromProtoObj pubsubTopic proto := .ok (Version0.Decoder.fromProtoObj pubsubTopic proto)

/-- What the encoder of the second node makes at the first millisecond. -/
def sampleToProtoObj : IMessage → Except JsError IProtoMessage :=
  Version0.Encoder.toProtoObj MessageEncryption.sampleFields ⟨some 1⟩

/-- The proto object of the message `[7]`. -/
def sampleProto : IProtoMessage where
  payload := [7]
  contentTopic := "/test/1/waku-light-push/utf8"
  version := some 0
  timestamp := some 1000000
  metaField := none
  rateLimitProof := none
  ephemeral := some false

/-- The first node subscribes, and the second sends the message `[7]`. -/
def sampleEvents : List (NetworkEvent Bool ℕ Version0.DecodedMessage) :=
  [.subscribe true [sampleDecoder] 5, .send false "/waku/2/rs/1/0" sampleToProtoObj MessageEncryption.sampleMessage]

theorem encodes_sampleEvents : ∀ e ∈ sampleEvents, e.Encodes := by
  intro e he
  simp only [sampleEvents, List.mem_cons, List.not_mem_nil, or_false] at he
  rcases he with rfl | rfl
  · trivial
  · have htime : MessageEncryption.sampleMessage.InTime ⟨some 1⟩ := fun ns hns => by cases hns; decide
    exact (NetworkEvent.encodes_packages htime _ _ MessageEncryption.sampleCrypto fun n => List.replicate n 0).1 _

/-- The network after them, which carries the message to the first node. -/
theorem run_sampleEvents :
    ∃ s, run (Network.step wireFormat sampleTopics) (Network.init wireFormat sampleTopics fun _ => true) sampleEvents =
        some s ∧
      s.carried = [("/waku/2/rs/1/0", WakuMessage.encode wireFormat sampleProto)] ∧ s.calls = [] ∧
      (s.nodes true).listeners = ["/waku/2/rs/1/0"] := by
  have h : (run (Network.step wireFormat sampleTopics) (Network.init wireFormat sampleTopics fun _ => true)
      sampleEvents).map (fun s => (s.carried, s.calls.length, (s.nodes true).listeners)) =
        some ([("/waku/2/rs/1/0", WakuMessage.encode wireFormat sampleProto)], 0, ["/waku/2/rs/1/0"]) := by
    decide +kernel
  obtain ⟨s, hrun, hs⟩ := Option.map_eq_some_iff.1 h
  rw [Prod.mk.injEq, Prod.mk.injEq, List.length_eq_zero_iff] at hs
  exact ⟨s, hrun, hs⟩

/-- The message reaches the first node, and calls the callback. -/
theorem deliver_sent_sample :
    ∃ s s', run (Network.step wireFormat sampleTopics) (Network.init wireFormat sampleTopics fun _ => true)
        sampleEvents = some s ∧
      Network.step wireFormat sampleTopics s (.deliver true "/waku/2/rs/1/0" (WakuMessage.encode wireFormat sampleProto)) =
        some s' ∧
      s'.calls = [(true, 5, ⟨"/waku/2/rs/1/0", sampleProto⟩)] := by
  obtain ⟨s, hrun, hcarried, hcalls, hlisteners⟩ := run_sampleEvents
  obtain ⟨proto, hproto, hvalid, hdeliver⟩ := deliver_sent wireFormat_lawful sampleEvents hrun
    (encodes_sampleEvents _ (List.mem_cons_of_mem _ List.mem_cons_self))
    (show prepare (sampleTopics false) (wireEncoder wireFormat "/waku/2/rs/1/0" sampleToProtoObj) _ =
      .ok (.ok (WakuMessage.encode wireFormat sampleProto)) from rfl) true
  cases hproto
  have hmem : ("/waku/2/rs/1/0", WakuMessage.encode wireFormat sampleProto) ∈ s.carried := by
    rw [hcarried]
    exact List.mem_singleton_self _
  have hlistens : "/waku/2/rs/1/0" ∈ (s.nodes true).listeners := by
    rw [hlisteners]
    exact List.mem_singleton_self _
  have hstep := step_deliver sampleTopics hmem hlistens (hvalid.2 ⟨by decide, by decide⟩)
  refine ⟨s, _, hrun, hstep, ?_⟩
  rw [hdeliver _ hstep, hcalls]
  decide +kernel

/-- The message `[7]` was sent, and so was the call for it. -/
theorem calls_sound_sample :
    ∃ s, run (Network.step wireFormat sampleTopics) (Network.init wireFormat sampleTopics fun _ => true)
        (sampleEvents ++ [.deliver true "/waku/2/rs/1/0" (WakuMessage.encode wireFormat sampleProto)]) = some s ∧
      (true, 5, ⟨"/waku/2/rs/1/0", sampleProto⟩) ∈ s.calls ∧
      ∃ decoders, (NetworkEvent.subscribe true decoders 5 : NetworkEvent Bool ℕ Version0.DecodedMessage) ∈ sampleEvents := by
  have h : (run (Network.step wireFormat sampleTopics) (Network.init wireFormat sampleTopics fun _ => true)
      (sampleEvents ++ [.deliver true "/waku/2/rs/1/0" (WakuMessage.encode wireFormat sampleProto)])).map (·.calls) =
        some [(true, 5, ⟨"/waku/2/rs/1/0", sampleProto⟩)] := by decide +kernel
  obtain ⟨s, hrun, hcalls⟩ := Option.map_eq_some_iff.1 h
  have hcall : (true, 5, ⟨"/waku/2/rs/1/0", sampleProto⟩) ∈ s.calls := by rw [hcalls]; exact List.mem_singleton_self _
  have hes : ∀ e ∈ sampleEvents ++ [.deliver true "/waku/2/rs/1/0" (WakuMessage.encode wireFormat sampleProto)],
      e.Encodes := by
    intro e he
    rcases List.mem_append.1 he with he | he
    · exact encodes_sampleEvents e he
    · cases List.mem_singleton.1 he
      trivial
  obtain ⟨decoders, -, -, -, hsubscribe, -⟩ := calls_sound wireFormat_lawful _ hes hrun hcall
  exact ⟨s, hrun, hcall, decoders, (List.mem_append.1 hsubscribe).resolve_right fun h => nomatch List.mem_singleton.1 h⟩

end JsWaku.Relay
