import JsWaku.Core.RequestMethods
import JsWaku.Proto.Requests
import JsWaku.Proto.WireFormat

/-!
# Requests and the peer that serves them

`FilterSubscribeRpc` and `PushRpc` of `packages/core/src/lib/filter/filter_rpc.ts` and `light_push/push_rpc.ts`, which
write the requests and read the responses, and a peer at the other end of the transport. The peer is a parameter: any
state, and what it does and answers for a request that it has decoded. The transport may refuse the stream, lose the
request or the response, and break at any time.

Whatever the transport does in a run of calls, the state of the peer is what it makes of the requests that reached it,
and a call reports a success iff its request reached the peer, the peer accepted it in the state of that moment, and the
response came back; that of `unsubscribe` only says that its request was sent (`calls_served`).
-/

namespace JsWaku.RequestMethods

open Proto

/-! ## The code -/

/-- `FilterSubscribeRpc.proto`. -/
def FilterSubscribeRpc.proto (rpc : FilterSubscribeRpc) : FilterSubscribeRequest where
  requestId := rpc.requestId
  filterSubscribeType := rpc.filterSubscribeType
  pubsubTopic := some rpc.pubsubTopic
  contentTopics := rpc.contentTopics

/-- `PushRpc.proto`. -/
def PushRpc.proto (rpc : PushRpc) : Proto.PushRpc where
  requestId := rpc.requestId
  request := rpc.request.map fun request => ⟨request.pubsubTopic, some request.message⟩
  response := rpc.response.map fun response => ⟨response.isSuccess, response.info⟩

section

variable (rt : Runtime)

/-- `FilterSubscribeRpc.encode`. -/
def FilterSubscribeRpc.encode (rpc : FilterSubscribeRpc) : Bytes := (FilterSubscribeRequest.codec rt).encode rpc.proto

/-- `PushRpc.encode`. -/
def PushRpc.encode (rpc : PushRpc) : Bytes := (Proto.PushRpc.codec rt).encode rpc.proto

/-- `FilterSubscribeResponse.decode`. -/
def FilterSubscribeResponse.decode (bytes : Bytes) : Except JsError FilterSubscribeResponse := do
  let { statusCode, .. } ← (Proto.FilterSubscribeResponse.codec rt).decode rt bytes
  return { statusCode }

/-- `PushRpc.decode`. A request without a message does not count. -/
def PushRpc.decode (bytes : Bytes) : Except JsError PushRpc := do
  let { requestId, request, response } ← (Proto.PushRpc.codec rt).decode rt bytes
  return {
    requestId
    request := request.bind fun request => request.message.map fun message => ⟨message, request.pubsubTopic⟩
    response := response.map fun response => ⟨response.isSuccess, response.info⟩ }

end

/-- The request of a method. A message that is not prepared has none. -/
inductive Request
  | filter (rpc : FilterSubscribeRpc)
  | lightPush (rpc : PushRpc)

def Method.request (uuid : String) : Method → Option Request
  | .subscribe pubsubTopic contentTopics => some (.filter ⟨uuid, .SUBSCRIBE, pubsubTopic, contentTopics⟩)
  | .unsubscribe pubsubTopic contentTopics => some (.filter ⟨uuid, .UNSUBSCRIBE, pubsubTopic, contentTopics⟩)
  | .unsubscribeAll pubsubTopic => some (.filter ⟨uuid, .UNSUBSCRIBE_ALL, pubsubTopic, []⟩)
  | .ping => some (.filter ⟨uuid, .SUBSCRIBER_PING, "", []⟩)
  | .send encoder message => (preparePushMessage uuid encoder message).toOption.map .lightPush

/-! ## The peer and the transport -/

/-- A peer: what it does with a request in its state, and what it answers. -/
structure Service (σ : Type) where
  filter : σ → FilterSubscribeRequest → σ × Proto.FilterSubscribeResponse
  lightPush : σ → Proto.PushRpc → σ × Proto.PushRpc

/-- What the transport does in one call. -/
structure Transport where
  stream : Except JsError Unit
  /-- The request reaches the peer. -/
  delivered : Bool
  /-- The response comes back. -/
  replied : Bool
  /-- What `pipe` throws. -/
  failure : Option JsError

namespace Service

variable {σ : Type} (rt : Runtime) (service : Service σ) (s : σ)

/-- The peer reads bytes: its state then, and its answer. It drops what it cannot decode. -/
def read {Rq Rs : Type} (request : Codec Rq) (response : Codec Rs) (handle : Rq → σ × Rs) (bytes : Bytes) :
    σ × Option Bytes :=
  match request.decode rt bytes with
  | .error _ => (s, none)
  | .ok request => ((handle request).1, some (response.encode (handle request).2))

def readFilter : Bytes → σ × Option Bytes :=
  read rt s (FilterSubscribeRequest.codec rt) (Proto.FilterSubscribeResponse.codec rt) (service.filter s)

def readLightPush : Bytes → σ × Option Bytes :=
  read rt s (Proto.PushRpc.codec rt) (Proto.PushRpc.codec rt) (service.lightPush s)

/-- The chunks of `all(source)` where the answer is this. -/
def chunks (transport : Transport) (answer : Option Bytes) : Except JsError (List Bytes) :=
  match transport.failure with
  | some error => throw error
  | none => return if transport.delivered && transport.replied then answer.toList else []

/-- What a call meets. -/
def remote (transport : Transport) : Remote where
  getStream := transport.stream
  exchange rpc := chunks transport (service.readFilter rt s (rpc.encode rt)).2
  sink _ :=
    match transport.failure with
    | some error => throw error
    | none => return
  push rpc := chunks transport (service.readLightPush rt s (rpc.encode rt)).2
  decodeFilterSubscribeResponse := FilterSubscribeResponse.decode rt
  decodePushRpc := PushRpc.decode rt

/-- The state of the peer after the bytes of a request. -/
def afterBytes : Request → σ
  | .filter rpc => (service.readFilter rt s (rpc.encode rt)).1
  | .lightPush rpc => (service.readLightPush rt s (rpc.encode rt)).1

end Service

/-- A call over a transport. -/
structure Call where
  uuid : String
  peerId : PeerId
  method : Method
  transport : Transport

/-- The request that reaches the peer. -/
def Call.delivered (c : Call) : Option Request :=
  match c.transport.stream with
  | .ok _ => if c.transport.delivered then c.method.request c.uuid else none
  | .error _ => none

/-- Calls one after the other: the state of the peer after them, and what they return. -/
def Service.calls {σ : Type} (rt : Runtime) (service : Service σ) :
    σ → List Call → σ × List (Except JsError CoreProtocolResult)
  | s, [] => (s, [])
  | s, c :: rest =>
    let result := call (service.remote rt s c.transport) c.uuid c.peerId c.method
    let s' := match c.delivered with
      | some request => service.afterBytes rt s request
      | none => s
    let (t, results) := calls rt service s' rest
    (t, result :: results)

/-! ## Requests without a wire -/

/-- The peer takes a light push. -/
def accepts (rpc : Proto.PushRpc) : Bool :=
  match rpc.response with
  | none => false
  | some response => !isRLNResponseError response.info && response.isSuccess

/-- What a peer makes of a request: its state then, and whether it accepted. -/
def Service.handle {σ : Type} (service : Service σ) (s : σ) : Request → σ × Bool
  | .filter rpc =>
    let (s', response) := service.filter s rpc.proto
    (s', 200 ≤ response.statusCode ∧ response.statusCode < 300)
  | .lightPush rpc =>
    let (s', reply) := service.lightPush s rpc.proto
    (s', accepts reply)

/-- The state of a peer after requests. -/
def Service.after {σ : Type} (service : Service σ) (s : σ) (requests : List Request) : σ :=
  requests.foldl (fun s request => (service.handle s request).1) s

/-- What a success of a call stands for, in the state of the peer at that moment. -/
def Call.Accepted {σ : Type} (service : Service σ) (s : σ) (c : Call) : Prop :=
  c.transport.stream = .ok () ∧ c.transport.failure = none ∧ ∃ request, c.method.request c.uuid = some request ∧
    ((∃ pubsubTopic contentTopics, c.method = .unsubscribe pubsubTopic contentTopics) ∨
      c.transport.delivered = true ∧ c.transport.replied = true ∧ (service.handle s request).2 = true)

/-- A request and the responses of the peer to it can be written. -/
def Service.Writable {σ : Type} (rt : Runtime) (service : Service σ) : Request → Prop
  | .filter rpc => Short (rpc.encode rt) ∧ ∀ s, (service.filter s rpc.proto).2.statusCode < 2 ^ 32 ∧
      Short ((Proto.FilterSubscribeResponse.codec rt).encode (service.filter s rpc.proto).2)
  | .lightPush rpc => ((∀ request ∈ rpc.request, WakuMessage.InRange request.message) ∧ Short (rpc.encode rt)) ∧ ∀ s,
      (∀ request ∈ (service.lightPush s rpc.proto).2.request, ∀ m ∈ request.message, WakuMessage.InRange m) ∧
        Short ((Proto.PushRpc.codec rt).encode (service.lightPush s rpc.proto).2)

/-! ## One call -/

section

variable {rt : Runtime} (hrt : rt.Lawful) {σ : Type} {service : Service σ} (s : σ)

theorem succeeded_ne_failed {peerId : PeerId} {error : ProtocolError} :
    (Except.ok (failed error peerId) : Except JsError CoreProtocolResult) ≠ .ok (succeeded peerId) := by
  intro h
  cases h

theorem Service.handle_filter (rpc : FilterSubscribeRpc) : (service.handle s (.filter rpc)).2 =
    decide (200 ≤ (service.filter s rpc.proto).2.statusCode ∧ (service.filter s rpc.proto).2.statusCode < 300) := rfl

include hrt

/-- The peer reads a filter request as it was made. -/
theorem Service.readFilter_encode {rpc : FilterSubscribeRpc} (h : service.Writable rt (.filter rpc)) :
    service.readFilter rt s (rpc.encode rt) = ((service.filter s rpc.proto).1,
      some ((Proto.FilterSubscribeResponse.codec rt).encode (service.filter s rpc.proto).2)) := by
  have hdecode := Codec.roundTrips hrt (FilterSubscribeRequest.forward hrt)
    (fun obj (_ : True) => FilterSubscribeRequest.writes hrt obj) rpc.proto trivial h.1
  rw [readFilter, read, FilterSubscribeRpc.encode, hdecode]

/-- The peer reads a light push as it was made. -/
theorem Service.readLightPush_encode {rpc : PushRpc} (h : service.Writable rt (.lightPush rpc)) :
    service.readLightPush rt s (rpc.encode rt) = ((service.lightPush s rpc.proto).1,
      some ((Proto.PushRpc.codec rt).encode (service.lightPush s rpc.proto).2)) := by
  have hrange : ∀ request ∈ rpc.proto.request, ∀ m ∈ request.message, WakuMessage.InRange m := by
    intro request hrequest m hm
    obtain ⟨original, horiginal, rfl⟩ := Option.map_eq_some_iff.1 hrequest
    cases hm
    exact h.1.1 original horiginal
  have hdecode := Codec.roundTrips hrt (Proto.PushRpc.forward hrt) (Proto.PushRpc.writes hrt) rpc.proto hrange h.1.2
  rw [readLightPush, read, PushRpc.encode, hdecode]

/-- The caller reads the status code of a response. -/
theorem Service.decode_filter {rpc : FilterSubscribeRpc} (h : service.Writable rt (.filter rpc)) :
    FilterSubscribeResponse.decode rt ((Proto.FilterSubscribeResponse.codec rt).encode (service.filter s rpc.proto).2) =
      .ok ⟨(service.filter s rpc.proto).2.statusCode⟩ := by
  have hdecode := Codec.roundTrips hrt (Proto.FilterSubscribeResponse.forward hrt)
    (Proto.FilterSubscribeResponse.writes hrt) _ (h.2 s).1 (h.2 s).2
  rw [FilterSubscribeResponse.decode, hdecode]
  rfl

/-- The caller accepts the reply to a light push that the peer takes. -/
theorem Service.decode_lightPush (peerId : PeerId) {rpc : PushRpc} (h : service.Writable rt (.lightPush rpc)) :
    ∃ reply, PushRpc.decode rt ((Proto.PushRpc.codec rt).encode (service.lightPush s rpc.proto).2) = .ok reply ∧
      (checkPushResponse peerId reply = succeeded peerId ↔ accepts (service.lightPush s rpc.proto).2 = true) := by
  have hdecode := Codec.roundTrips hrt (Proto.PushRpc.forward hrt) (Proto.PushRpc.writes hrt) _ (h.2 s).1 (h.2 s).2
  refine ⟨_, by rw [PushRpc.decode, hdecode]; rfl, ?_⟩
  rw [checkPushResponse, accepts]
  cases (service.lightPush s rpc.proto).2.response with
  | none => exact iff_of_false (by simp [failed, succeeded]) (by simp)
  | some response =>
    simp only [Option.map_some]
    by_cases hrln : isRLNResponseError response.info = true
    · exact iff_of_false (by simp [hrln, failed, succeeded]) (by simp [hrln])
    · by_cases hsuccess : response.isSuccess = true
      · exact iff_of_true (by simp [hrln, hsuccess]) (by simp [hrln, hsuccess])
      · exact iff_of_false (by simp [hrln, hsuccess, failed, succeeded]) (by simp [hsuccess])

/-- What comes back of a filter request, where the transport does not break. -/
def Service.back (rt : Runtime) (service : Service σ) (s : σ) (transport : Transport) (rpc : FilterSubscribeRpc) :
    List Bytes :=
  if transport.delivered && transport.replied then
    [(Proto.FilterSubscribeResponse.codec rt).encode (service.filter s rpc.proto).2]
  else []

/-- The check of what comes back succeeds iff there is a response of a peer that accepted. -/
theorem checkResponse_iff (transport : Transport) (peerId : PeerId) {rpc : FilterSubscribeRpc}
    (h : service.Writable rt (.filter rpc)) :
    checkResponse (service.remote rt s transport) peerId (service.back rt s transport rpc) = .ok (succeeded peerId) ↔
      transport.delivered = true ∧ transport.replied = true ∧ (service.handle s (.filter rpc)).2 = true := by
  rw [← and_assoc, ← Bool.and_eq_true, Service.back]
  cases transport.delivered && transport.replied with
  | false => exact iff_of_false nofun nofun
  | true =>
    have hdecode := service.decode_filter hrt s h
    rw [Service.handle_filter, decide_eq_true_eq]
    simp only [if_true, checkResponse, Service.remote, hdecode, ok_bind, true_and]
    split
    · rename_i hcode
      exact iff_of_false succeeded_ne_failed (by omega)
    · rename_i hcode
      exact iff_of_true rfl (by omega)

/-- So it does where an empty list of chunks is sorted out before. -/
theorem unlessEmpty_iff (transport : Transport) (peerId : PeerId) {rpc : FilterSubscribeRpc}
    (h : service.Writable rt (.filter rpc)) :
    (if (service.back rt s transport rpc).isEmpty then return failed .NO_RESPONSE peerId
      else checkResponse (service.remote rt s transport) peerId (service.back rt s transport rpc)) =
        .ok (succeeded peerId) ↔
      transport.delivered = true ∧ transport.replied = true ∧ (service.handle s (.filter rpc)).2 = true := by
  rw [← checkResponse_iff hrt s transport peerId h]
  cases service.back rt s transport rpc with
  | nil => exact iff_of_false succeeded_ne_failed nofun
  | cons chunk rest => exact Iff.rfl

/-- What a filter request meets. -/
theorem exchange_eq {rpc : FilterSubscribeRpc} (h : service.Writable rt (.filter rpc)) (transport : Transport) :
    (service.remote rt s transport).exchange rpc =
      match transport.failure with
      | some error => .error error
      | none => .ok (service.back rt s transport rpc) := by
  simp only [Service.remote, Service.chunks, service.readFilter_encode hrt s h, Service.back]
  rfl

/-- No bytes are a reply without a response. -/
theorem decode_nil : PushRpc.decode rt [] = .ok ⟨"", none, none⟩ := by
  have hempty : (Proto.PushRpc.codec rt).encode ⟨"", none, none⟩ = [] := by
    simp [Codec.encode, Proto.PushRpc.codec, Writer.required, Writer.optional]
  have hdecode := Codec.roundTrips hrt (Proto.PushRpc.forward hrt) (Proto.PushRpc.writes hrt) ⟨"", none, none⟩
    (fun request hrequest => by cases hrequest) (by simp [hempty, Short])
  rw [hempty] at hdecode
  rw [PushRpc.decode, hdecode]
  rfl

/-- What comes back of a light push is decoded, and it is a success iff the peer took the message. -/
theorem backPush_iff (transport : Transport) (peerId : PeerId) {rpc : PushRpc}
    (h : service.Writable rt (.lightPush rpc)) :
    ∃ reply, PushRpc.decode rt (if transport.delivered && transport.replied then
        (some ((Proto.PushRpc.codec rt).encode (service.lightPush s rpc.proto).2)).toList else []).flatten = .ok reply ∧
      (checkPushResponse peerId reply = succeeded peerId ↔
        transport.delivered = true ∧ transport.replied = true ∧ (service.handle s (.lightPush rpc)).2 = true) := by
  have hback : ∀ p : Prop, (transport.delivered = true ∧ transport.replied = true ∧ p) ↔
      (transport.delivered && transport.replied) = true ∧ p := fun p => by rw [Bool.and_eq_true, and_assoc]
  simp only [hback]
  cases transport.delivered && transport.replied with
  | false =>
    exact ⟨_, decode_nil hrt, iff_of_false (by simp [checkPushResponse, failed, succeeded]) (by simp)⟩
  | true =>
    obtain ⟨reply, hdecode, hiff⟩ := service.decode_lightPush hrt s peerId h
    exact ⟨reply, by simpa using hdecode, hiff.trans (and_iff_right rfl).symm⟩

/-- A call succeeds iff its request was accepted. -/
theorem call_iff (c : Call) (hc : ∀ request ∈ c.method.request c.uuid, service.Writable rt request) :
    call (service.remote rt s c.transport) c.uuid c.peerId c.method = .ok (succeeded c.peerId) ↔ c.Accepted service s := by
  obtain ⟨uuid, peerId, method, transport⟩ := c
  have hstream : (service.remote rt s transport).getStream = transport.stream := rfl
  have hremote : ∀ rpc, service.Writable rt (.filter rpc) → (service.remote rt s transport).exchange rpc =
      match transport.failure with
      | some error => .error error
      | none => .ok (service.back rt s transport rpc) := fun rpc h => exchange_eq hrt s h transport
  cases method with
  | subscribe pubsubTopic contentTopics =>
    have hexchange := hremote _ (hc _ rfl)
    simp only [Call.Accepted, call, subscribe, hstream, hexchange, Method.request, Option.some.injEq, exists_eq_left',
      reduceCtorEq, exists_false, false_or]
    cases transport.stream with
    | error e => exact iff_of_false (by simp) (by simp)
    | ok stream =>
      rw [ok_bind]
      cases transport.failure with
      | some e => exact iff_of_false succeeded_ne_failed (by simp)
      | none => simpa using checkResponse_iff hrt s transport peerId (hc _ rfl)
  | unsubscribe pubsubTopic contentTopics =>
    simp only [Call.Accepted, call, unsubscribe, Service.remote, Method.request, Option.some.injEq,
      exists_eq_left']
    cases transport.stream with
    | error e => exact iff_of_false succeeded_ne_failed (by simp)
    | ok stream =>
      cases transport.failure with
      | some e => exact iff_of_false succeeded_ne_failed (by simp)
      | none => exact iff_of_true rfl ⟨rfl, rfl, .inl ⟨pubsubTopic, contentTopics, rfl⟩⟩
  | unsubscribeAll pubsubTopic =>
    have hexchange := hremote _ (hc _ rfl)
    simp only [Call.Accepted, call, unsubscribeAll, hstream, hexchange, Method.request, Option.some.injEq,
      exists_eq_left', reduceCtorEq, exists_false, false_or]
    cases transport.stream with
    | error e => exact iff_of_false (by simp) (by simp)
    | ok stream =>
      rw [ok_bind]
      cases transport.failure with
      | some e => exact iff_of_false (by simp) (by simp)
      | none => simpa using unlessEmpty_iff hrt s transport peerId (hc _ rfl)
  | ping =>
    have hexchange := hremote _ (hc _ rfl)
    simp only [Call.Accepted, call, ping, hstream, hexchange, Method.request, Option.some.injEq, exists_eq_left',
      reduceCtorEq, exists_false, false_or]
    cases transport.stream with
    | error e => exact iff_of_false succeeded_ne_failed (by simp)
    | ok stream =>
      cases transport.failure with
      | some e => exact iff_of_false succeeded_ne_failed (by simp)
      | none => simpa using unlessEmpty_iff hrt s transport peerId (hc _ rfl)
  | send encoder message =>
    simp only [Call.Accepted, call, send, hstream, Method.request, reduceCtorEq, exists_false, false_or]
    cases hquery : preparePushMessage uuid encoder message with
    | error e => exact iff_of_false succeeded_ne_failed (by simp [Except.toOption])
    | ok query =>
      cases transport.stream with
      | error e => exact iff_of_false succeeded_ne_failed (by simp)
      | ok stream =>
        have hwritable := hc (.lightPush query) (by rw [Method.request, hquery]; rfl)
        have hread := service.readLightPush_encode hrt s hwritable
        simp only [Service.remote, Service.chunks, hread]
        cases transport.failure with
        | some e => exact iff_of_false succeeded_ne_failed (by simp)
        | none =>
          obtain ⟨reply, hreply, hiff⟩ := backPush_iff hrt s transport peerId hwritable
          simp only [pure, Except.pure, hreply, Except.ok.injEq, hiff, Except.toOption]
          simp

/-- The peer makes of the bytes what it makes of the request. -/
theorem Service.afterBytes_eq {request : Request} (h : service.Writable rt request) :
    service.afterBytes rt s request = (service.handle s request).1 := by
  cases request with
  | filter rpc => rw [afterBytes, service.readFilter_encode hrt s h, handle]
  | lightPush rpc => rw [afterBytes, service.readLightPush_encode hrt s h, handle]

end

/-! ## Runs -/

theorem Call.delivered_request {c : Call} {request : Request} (h : c.delivered = some request) :
    c.method.request c.uuid = some request := by
  unfold delivered at h
  split at h
  · split at h
    · exact h
    · cases h
  · cases h

/-- **Over the wire a peer sees the requests, and the caller its decisions.** In any run of calls, whatever the
transport does in each: the state of the peer is what it makes of the requests that reached it, in order; and a call
reports a success iff its request was accepted in the state of the peer at that moment. -/
theorem calls_served {rt : Runtime} (hrt : rt.Lawful) {σ : Type} {service : Service σ} (s : σ)
    (calls : List Call) (hcalls : ∀ c ∈ calls, ∀ request ∈ c.method.request c.uuid, service.Writable rt request) :
    (service.calls rt s calls).1 = service.after s (calls.filterMap Call.delivered) ∧
      ∀ before c rest, calls = before ++ c :: rest →
        ((service.calls rt s calls).2[before.length]? = some (.ok (succeeded c.peerId)) ↔
          c.Accepted service (service.after s (before.filterMap Call.delivered))) := by
  induction calls generalizing s with
  | nil => exact ⟨rfl, fun before c rest h => by simp at h⟩
  | cons c calls ih =>
    have hc := hcalls c List.mem_cons_self
    obtain ⟨s', hs', hafter⟩ : ∃ s', (match c.delivered with
        | some request => service.afterBytes rt s request
        | none => s) = s' ∧ ∀ calls : List Call, service.after s ((c :: calls).filterMap Call.delivered) =
          service.after s' (calls.filterMap Call.delivered) := by
      refine ⟨_, rfl, fun calls => ?_⟩
      cases hdelivered : c.delivered with
      | none => rw [List.filterMap_cons_none hdelivered]
      | some request =>
        have hwritable := hc request (Call.delivered_request hdelivered)
        rw [List.filterMap_cons_some hdelivered]
        simp only [Service.after, List.foldl_cons, Service.afterBytes_eq hrt s hwritable]
    obtain ⟨hstate, hresults⟩ := ih s' fun c' hc' => hcalls c' (List.mem_cons_of_mem _ hc')
    have hrun : service.calls rt s (c :: calls) = ((service.calls rt s' calls).1,
        call (service.remote rt s c.transport) c.uuid c.peerId c.method :: (service.calls rt s' calls).2) := by
      rw [Service.calls, ← hs']
    rw [hrun]
    refine ⟨by rw [hafter, ← hstate], fun before c' rest hsplit => ?_⟩
    cases before with
    | nil =>
      cases hsplit
      rw [List.length_nil, List.getElem?_cons_zero, Option.some.injEq]
      exact call_iff hrt s c hc
    | cons d before =>
      cases hsplit
      rw [List.length_cons, List.getElem?_cons_succ, hafter]
      exact hresults before c' rest rfl

/-- A peer that keeps the content topics that it was given. -/
def sampleService : Service (List String) where
  filter topics request := (topics ++ request.contentTopics,
    ⟨request.requestId, if request.filterSubscribeType = .SUBSCRIBE then 200 else 400, none⟩)
  lightPush topics rpc := (topics, ⟨rpc.requestId, none, some ⟨true, none⟩⟩)

/-- A request that comes through, one that is lost, and a ping that the peer rejects. -/
def sampleCalls : List Call :=
  [⟨"1", "p", .subscribe "t" ["a"], ⟨.ok (), true, true, none⟩⟩,
    ⟨"2", "p", .subscribe "t" ["b"], ⟨.ok (), false, true, none⟩⟩, ⟨"3", "p", .ping, ⟨.ok (), true, true, none⟩⟩]

theorem calls_served_sample :
    (sampleService.calls wireFormat [] sampleCalls).1 = ["a"] ∧
      (sampleService.calls wireFormat [] sampleCalls).2[0]? = some (.ok (succeeded "p")) ∧
      (sampleService.calls wireFormat [] sampleCalls).2[2]? ≠ some (.ok (succeeded "p")) := by
  have hwritable : ∀ rpc : FilterSubscribeRpc, Short (rpc.encode wireFormat) →
      Short ((Proto.FilterSubscribeResponse.codec wireFormat).encode (sampleService.filter [] rpc.proto).2) →
      sampleService.Writable wireFormat (.filter rpc) := by
    refine fun rpc hrequest hresponse => ⟨hrequest, fun _ => ⟨?_, hresponse⟩⟩
    simp only [sampleService]
    split <;> decide
  have hcalls : ∀ c ∈ sampleCalls, ∀ request ∈ c.method.request c.uuid, sampleService.Writable wireFormat request := by
    intro c hc request hrequest
    simp only [sampleCalls, List.mem_cons, List.not_mem_nil, or_false] at hc
    rcases hc with rfl | rfl | rfl <;> cases hrequest <;>
      exact hwritable _ (by unfold Short; decide +kernel) (by unfold Short; decide +kernel)
  obtain ⟨hstate, hresults⟩ := calls_served wireFormat_lawful [] sampleCalls hcalls
  refine ⟨hstate, (hresults [] _ _ rfl).2 ⟨rfl, rfl, _, rfl, .inr ⟨rfl, rfl, rfl⟩⟩, fun h => ?_⟩
  obtain ⟨-, -, request, hrequest, hunsubscribe | ⟨-, -, haccepted⟩⟩ := (hresults (sampleCalls.take 2) _ _ rfl).1 h
  · obtain ⟨pubsubTopic, contentTopics, hmethod⟩ := hunsubscribe
    cases hmethod
  · cases hrequest
    cases haccepted

end JsWaku.RequestMethods
