import JsWaku.Core.Message
import JsWaku.Runtime.Libp2p
import JsWaku.Runtime.Text

/-!
# The request methods of the protocols

`FilterCore.subscribe`, `unsubscribe`, `unsubscribeAll` and `ping` of `packages/core/src/lib/filter/filter.ts` and
`LightPushCore.send` of `packages/core/src/lib/light_push/light_push.ts`. Each opens a stream, sends a request and checks
the response, with its own `try` blocks; `Remote` is how the transport and the peer behave meanwhile. An error that a
method throws is its rejection.

`send` and `unsubscribe` catch every failure. The other three leave a step outside their `try` blocks, and a method
reports its outcome iff these steps succeed (`reports_iff`).
-/

namespace JsWaku.RequestMethods

open Text

/-! ## Data -/

/-- `ProtocolError`, the members that the methods return. -/
inductive ProtocolError
  | GENERIC_FAIL
  | ENCODE_FAILED
  | DECODE_FAILED
  | EMPTY_PAYLOAD
  | SIZE_TOO_BIG
  | NO_STREAM_AVAILABLE
  | NO_RESPONSE
  | REMOTE_PEER_REJECTED
  | RLN_IDENTITY_MISSING
  | RLN_MEMBERSHIP_INDEX
  | RLN_LIMIT_MISSING
  | RLN_PROOF_GENERATION
  deriving DecidableEq, Repr

/-- `Failure`. -/
structure Failure where
  error : ProtocolError
  peerId : Option PeerId
  deriving DecidableEq, Repr

/-- `CoreProtocolResult`. -/
structure CoreProtocolResult where
  success : Option PeerId
  failure : Option Failure
  deriving DecidableEq, Repr

/-- `FilterSubscribeType`. -/
inductive FilterSubscribeType
  | SUBSCRIBER_PING
  | SUBSCRIBE
  | UNSUBSCRIBE
  | UNSUBSCRIBE_ALL
  deriving DecidableEq, Repr

/-- `FilterSubscribeRpc`. -/
structure FilterSubscribeRpc where
  requestId : String
  filterSubscribeType : FilterSubscribeType
  pubsubTopic : String
  contentTopics : List String
  deriving DecidableEq, Repr

/-- `FilterSubscribeResponse`, without the texts that are only logged. -/
structure FilterSubscribeResponse where
  statusCode : ℕ
  deriving DecidableEq, Repr

/-- `PushRequest`. -/
structure PushRequest where
  message : IProtoMessage
  pubsubTopic : String

/-- `PushResponse`. -/
structure PushResponse where
  isSuccess : Bool
  info : Option String
  deriving DecidableEq, Repr

/-- `PushRpc`. -/
structure PushRpc where
  requestId : String
  request : Option PushRequest
  response : Option PushResponse

/-- `IEncoder`: user code, which may throw or return `undefined`. -/
structure IEncoder where
  pubsubTopic : String
  toWire : IMessage → Except JsError (Option Bytes)
  toProtoObj : IMessage → Except JsError (Option IProtoMessage)

/-- What happens during a call: the stream is opened or not; a request sent over it is answered with chunks of bytes or
fails (for an unsubscribe request only sending it counts); and what the protobuf decoders make of the bytes. -/
structure Remote where
  getStream : Except JsError Unit
  exchange : FilterSubscribeRpc → Except JsError (List Bytes)
  sink : FilterSubscribeRpc → Except JsError Unit
  push : PushRpc → Except JsError (List Bytes)
  decodeFilterSubscribeResponse : Bytes → Except JsError FilterSubscribeResponse
  decodePushRpc : Bytes → Except JsError PushRpc

/-! ## The code -/

/-- The result of a success. -/
def succeeded (peerId : PeerId) : CoreProtocolResult := { success := some peerId, failure := none }

/-- The result of a failure. -/
def failed (error : ProtocolError) (peerId : PeerId) : CoreProtocolResult :=
  { success := none, failure := some { error, peerId := some peerId } }

/-- The end of `subscribe`, `unsubscribeAll` and `ping`: the first chunk is decoded, which throws where there is none,
and its status code is checked. -/
def checkResponse (remote : Remote) (peerId : PeerId) (res : List Bytes) : Except JsError CoreProtocolResult :=
  match res with
  | [] => throw .typeError
  | chunk :: _ => do
    let { statusCode } ← remote.decodeFilterSubscribeResponse chunk
    if statusCode < 200 ∨ statusCode ≥ 300 then return failed .REMOTE_PEER_REJECTED peerId
    return succeeded peerId

section FilterCore

variable (remote : Remote) (uuid : String)

/-- `FilterCore.subscribe`. -/
def subscribe (pubsubTopic : String) (peerId : PeerId) (contentTopics : List String) :
    Except JsError CoreProtocolResult := do
  let _stream ← remote.getStream
  match remote.exchange ⟨uuid, .SUBSCRIBE, pubsubTopic, contentTopics⟩ with
  | .error _ => return failed .GENERIC_FAIL peerId
  | .ok res => checkResponse remote peerId res

/-- `FilterCore.unsubscribe`. -/
def unsubscribe (pubsubTopic : String) (peerId : PeerId) (contentTopics : List String) :
    Except JsError CoreProtocolResult :=
  match remote.getStream with
  | .error _ => return failed .NO_STREAM_AVAILABLE peerId
  | .ok _stream =>
    match remote.sink ⟨uuid, .UNSUBSCRIBE, pubsubTopic, contentTopics⟩ with
    | .error _ => return failed .GENERIC_FAIL peerId
    | .ok _ => return succeeded peerId

/-- `FilterCore.unsubscribeAll`. -/
def unsubscribeAll (pubsubTopic : String) (peerId : PeerId) : Except JsError CoreProtocolResult := do
  let _stream ← remote.getStream
  let res ← remote.exchange ⟨uuid, .UNSUBSCRIBE_ALL, pubsubTopic, []⟩
  if res.isEmpty then return failed .NO_RESPONSE peerId
  checkResponse remote peerId res

/-- `FilterCore.ping`. -/
def ping (peerId : PeerId) : Except JsError CoreProtocolResult :=
  match remote.getStream with
  | .error _ => return failed .NO_STREAM_AVAILABLE peerId
  | .ok _stream =>
    match remote.exchange ⟨uuid, .SUBSCRIBER_PING, "", []⟩ with
    | .error _ => return failed .GENERIC_FAIL peerId
    | .ok res => if res.isEmpty then return failed .NO_RESPONSE peerId else checkResponse remote peerId res

end FilterCore

/-- `MB` of `packages/utils/src/common/is_size_valid.ts`. -/
def MB : ℕ := 1024 ^ 2

def SIZE_CAP_IN_MB : ℕ := 1

/-- `isWireSizeUnderCap`. -/
def isWireSizeUnderCap (buf : Bytes) : Bool := buf.length ≤ SIZE_CAP_IN_MB * MB

/-- `isMessageSizeUnderCap`. -/
def isMessageSizeUnderCap (encoder : IEncoder) (message : IMessage) : Except JsError Bool := do
  match ← encoder.toWire message with
  | none => return false
  | some buf => return isWireSizeUnderCap buf

/-- The `try` block of `preparePushMessage`. -/
def tryPreparePushMessage (uuid : String) (encoder : IEncoder) (message : IMessage) :
    Except JsError (Except ProtocolError PushRpc) := do
  if message.payload.isEmpty then return .error .EMPTY_PAYLOAD
  if !(← isMessageSizeUnderCap encoder message) then return .error .SIZE_TOO_BIG
  match ← encoder.toProtoObj message with
  | none => return .error .ENCODE_FAILED
  | some protoMessage =>
    return .ok { requestId := uuid, request := some ⟨protoMessage, encoder.pubsubTopic⟩, response := none }

/-- `preparePushMessage`. -/
def preparePushMessage (uuid : String) (encoder : IEncoder) (message : IMessage) : Except ProtocolError PushRpc :=
  match tryPreparePushMessage uuid encoder message with
  | .error _ => .error .GENERIC_FAIL
  | .ok result => result

/-- `RLN_GENERATION_PREFIX_ERROR` of `utils.ts`. -/
def RLN_GENERATION_PREFIX_ERROR : String := "could not generate rln-v2 proof"

/-- `isRLNResponseError`. -/
def isRLNResponseError (info : Option String) : Bool :=
  match info with
  | none => false
  | some info => includes info RLN_GENERATION_PREFIX_ERROR

/-- `rlnErrorMap`, with the texts of its keys in lower case. -/
def rlnErrorMap : List (String × ProtocolError) :=
  [("identity credentials are not set", .RLN_IDENTITY_MISSING), ("membership index is not set", .RLN_MEMBERSHIP_INDEX),
    ("user message limit is not set", .RLN_LIMIT_MISSING)]

/-- `matchRLNErrorMessage`. The keys have letters of ASCII only. -/
def matchRLNErrorMessage (info : String) : ProtocolError :=
  match rlnErrorMap.find? fun entry => includes (toLowerCase info) entry.1 with
  | some (_, error) => error
  | none => .RLN_PROOF_GENERATION

/-- The end of `send`: the checks of the decoded reply. -/
def checkPushResponse (peerId : PeerId) (rpc : PushRpc) : CoreProtocolResult :=
  match rpc.response with
  | none => failed .NO_RESPONSE peerId
  | some response =>
    if isRLNResponseError response.info then failed (matchRLNErrorMessage (response.info.getD "")) peerId
    else if !response.isSuccess then failed .REMOTE_PEER_REJECTED peerId
    else succeeded peerId

/-- `LightPushCore.send`. -/
def send (remote : Remote) (uuid : String) (encoder : IEncoder) (message : IMessage) (peerId : PeerId) :
    Except JsError CoreProtocolResult :=
  match preparePushMessage uuid encoder message with
  | .error error => return failed error peerId
  | .ok query =>
    match remote.getStream with
    | .error _ => return failed .NO_STREAM_AVAILABLE peerId
    | .ok _stream =>
      match remote.push query with
      | .error _ => return failed .GENERIC_FAIL peerId
      | .ok res =>
        match remote.decodePushRpc res.flatten with
        | .error _ => return failed .DECODE_FAILED peerId
        | .ok rpc => return checkPushResponse peerId rpc

/-- The request methods with their arguments. -/
inductive Method
  | subscribe (pubsubTopic : String) (contentTopics : List String)
  | unsubscribe (pubsubTopic : String) (contentTopics : List String)
  | unsubscribeAll (pubsubTopic : String)
  | ping
  | send (encoder : IEncoder) (message : IMessage)

/-- A call of a request method. -/
def call (remote : Remote) (uuid : String) (peerId : PeerId) : Method → Except JsError CoreProtocolResult
  | .subscribe pubsubTopic contentTopics => subscribe remote uuid pubsubTopic peerId contentTopics
  | .unsubscribe pubsubTopic contentTopics => unsubscribe remote uuid pubsubTopic peerId contentTopics
  | .unsubscribeAll pubsubTopic => unsubscribeAll remote uuid pubsubTopic peerId
  | .ping => ping remote uuid peerId
  | .send encoder message => send remote uuid encoder message peerId

/-! ## Reported outcomes -/

/-- The outcome is a result with one of success and failure, and a success is of the peer and was `accepted`. -/
def Reported (peerId : PeerId) (accepted : Prop) (outcome : Except JsError CoreProtocolResult) : Prop :=
  ∃ result, outcome = .ok result ∧ result.success.isSome = !result.failure.isSome ∧
    ∀ p, result.success = some p → p = peerId ∧ accepted

/-- The first chunk is decoded. -/
def Decodes (remote : Remote) (res : List Bytes) : Prop :=
  ∃ chunk ∈ res.head?, ∃ response, remote.decodeFilterSubscribeResponse chunk = .ok response

/-- The request was answered with a response that has a success code. -/
def AcceptedBy (remote : Remote) (request : FilterSubscribeRpc) : Prop :=
  remote.getStream = .ok () ∧ ∃ chunk rest response, remote.exchange request = .ok (chunk :: rest) ∧
    remote.decodeFilterSubscribeResponse chunk = .ok response ∧ 200 ≤ response.statusCode ∧ response.statusCode < 300

/-- What a success of the method stands for. -/
def Accepted (remote : Remote) (uuid : String) : Method → Prop
  | .subscribe pubsubTopic contentTopics => AcceptedBy remote ⟨uuid, .SUBSCRIBE, pubsubTopic, contentTopics⟩
  | .unsubscribe pubsubTopic contentTopics =>
    remote.getStream = .ok () ∧ remote.sink ⟨uuid, .UNSUBSCRIBE, pubsubTopic, contentTopics⟩ = .ok ()
  | .unsubscribeAll pubsubTopic => AcceptedBy remote ⟨uuid, .UNSUBSCRIBE_ALL, pubsubTopic, []⟩
  | .ping => AcceptedBy remote ⟨uuid, .SUBSCRIBER_PING, "", []⟩
  | .send encoder message => remote.getStream = .ok () ∧ ∃ query res rpc response,
      preparePushMessage uuid encoder message = .ok query ∧ remote.push query = .ok res ∧
        remote.decodePushRpc res.flatten = .ok rpc ∧ rpc.response = some response ∧
          isRLNResponseError response.info = false ∧ response.isSuccess = true

/-- The steps of the method outside its `try` blocks succeed. -/
def Guarded (remote : Remote) (uuid : String) : Method → Prop
  | .subscribe pubsubTopic contentTopics => remote.getStream = .ok () ∧
      ∀ res, remote.exchange ⟨uuid, .SUBSCRIBE, pubsubTopic, contentTopics⟩ = .ok res → Decodes remote res
  | .unsubscribe _ _ => True
  | .unsubscribeAll pubsubTopic => remote.getStream = .ok () ∧
      ∃ res, remote.exchange ⟨uuid, .UNSUBSCRIBE_ALL, pubsubTopic, []⟩ = .ok res ∧ (res = [] ∨ Decodes remote res)
  | .ping => remote.getStream = .ok () →
      ∀ res, remote.exchange ⟨uuid, .SUBSCRIBER_PING, "", []⟩ = .ok res → res = [] ∨ Decodes remote res
  | .send _ _ => True

section Reports

variable {remote : Remote} {uuid : String} {peerId : PeerId} {accepted : Prop}

theorem reported_failed (error : ProtocolError) : Reported peerId accepted (.ok (failed error peerId)) :=
  ⟨_, rfl, rfl, fun _ h => by cases h⟩

theorem reported_succeeded (h : accepted) : Reported peerId accepted (.ok (succeeded peerId)) :=
  ⟨_, rfl, rfl, fun _ hp => by cases hp; exact ⟨rfl, h⟩⟩

theorem not_reported_error (error : JsError) : ¬Reported peerId accepted (.error error) := by
  rintro ⟨result, h, -⟩
  cases h

/-- The check of a response reports its outcome iff there is a chunk that is decoded. -/
theorem reported_checkResponse_iff {res : List Bytes}
    (haccepted : ∀ chunk rest response, res = chunk :: rest → remote.decodeFilterSubscribeResponse chunk = .ok response →
      200 ≤ response.statusCode → response.statusCode < 300 → accepted) :
    Reported peerId accepted (checkResponse remote peerId res) ↔ Decodes remote res := by
  cases res with
  | nil =>
    refine ⟨fun h => absurd h (not_reported_error _), ?_⟩
    rintro ⟨chunk, hchunk, -⟩
    cases hchunk
  | cons chunk rest =>
    cases hdecode : remote.decodeFilterSubscribeResponse chunk with
    | error e =>
      rw [checkResponse, hdecode, error_bind]
      refine ⟨fun h => absurd h (not_reported_error _), ?_⟩
      rintro ⟨chunk', hchunk, response, hresponse⟩
      cases hchunk
      rw [hdecode] at hresponse
      cases hresponse
    | ok response =>
      refine iff_of_true ?_ ⟨chunk, rfl, response, hdecode⟩
      rw [checkResponse, hdecode, ok_bind]
      by_cases hcode : response.statusCode < 200 ∨ response.statusCode ≥ 300
      · simp only [if_pos hcode]
        exact reported_failed _
      · simp only [if_neg hcode]
        exact reported_succeeded (haccepted chunk rest response rfl hdecode (by omega) (by omega))

theorem reported_subscribe_iff (pubsubTopic : String) (contentTopics : List String) :
    Reported peerId (Accepted remote uuid (.subscribe pubsubTopic contentTopics))
      (subscribe remote uuid pubsubTopic peerId contentTopics) ↔
        Guarded remote uuid (.subscribe pubsubTopic contentTopics) := by
  cases hstream : remote.getStream with
  | error e =>
    refine iff_of_false ?_ fun h => ?_
    · rw [subscribe, hstream, error_bind]
      exact not_reported_error _
    · rw [Guarded, hstream] at h
      cases h.1
  | ok stream =>
    rw [Guarded, and_iff_right hstream, subscribe, hstream, ok_bind]
    cases hres : remote.exchange ⟨uuid, .SUBSCRIBE, pubsubTopic, contentTopics⟩ with
    | error e => exact iff_of_true (reported_failed _) fun res h => by cases h
    | ok res =>
      refine (reported_checkResponse_iff fun chunk rest response hcons hdecode hlow hhigh => ?_).trans
        ⟨fun h res' h' => by cases h'; exact h, fun h => h res rfl⟩
      exact ⟨hstream, chunk, rest, response, hcons ▸ hres, hdecode, hlow, hhigh⟩

theorem reported_unsubscribe (pubsubTopic : String) (contentTopics : List String) :
    Reported peerId (Accepted remote uuid (.unsubscribe pubsubTopic contentTopics))
      (unsubscribe remote uuid pubsubTopic peerId contentTopics) := by
  rw [unsubscribe]
  cases hstream : remote.getStream with
  | error e => exact reported_failed _
  | ok stream =>
    cases hsink : remote.sink ⟨uuid, .UNSUBSCRIBE, pubsubTopic, contentTopics⟩ with
    | error e => exact reported_failed _
    | ok sent => exact reported_succeeded ⟨hstream, hsink⟩

theorem reported_unsubscribeAll_iff (pubsubTopic : String) :
    Reported peerId (Accepted remote uuid (.unsubscribeAll pubsubTopic)) (unsubscribeAll remote uuid pubsubTopic peerId) ↔
      Guarded remote uuid (.unsubscribeAll pubsubTopic) := by
  rw [unsubscribeAll, Guarded]
  cases hstream : remote.getStream with
  | error e => exact iff_of_false (not_reported_error _) fun h => by cases h.1
  | ok stream =>
    rw [ok_bind]
    cases hres : remote.exchange ⟨uuid, .UNSUBSCRIBE_ALL, pubsubTopic, []⟩ with
    | error e =>
      refine iff_of_false (not_reported_error _) ?_
      rintro ⟨-, res, h, -⟩
      cases h
    | ok res =>
      rw [ok_bind]
      cases res with
      | nil => exact iff_of_true (reported_failed _) ⟨rfl, [], rfl, .inl rfl⟩
      | cons chunk rest =>
        show Reported peerId _ (checkResponse remote peerId (chunk :: rest)) ↔ _
        refine (reported_checkResponse_iff fun chunk rest response hcons hdecode hlow hhigh => ?_).trans
          ⟨fun h => ⟨rfl, _, rfl, .inr h⟩, ?_⟩
        · exact ⟨hstream, chunk, rest, response, hcons ▸ hres, hdecode, hlow, hhigh⟩
        · rintro ⟨-, res, h, hguard⟩
          cases h
          exact hguard.resolve_left (List.cons_ne_nil _ _)

theorem reported_ping_iff :
    Reported peerId (Accepted remote uuid .ping) (ping remote uuid peerId) ↔ Guarded remote uuid .ping := by
  rw [ping, Guarded]
  cases hstream : remote.getStream with
  | error e => exact iff_of_true (reported_failed _) fun h => by cases h
  | ok stream =>
    cases hres : remote.exchange ⟨uuid, .SUBSCRIBER_PING, "", []⟩ with
    | error e => exact iff_of_true (reported_failed _) fun _ res h => by cases h
    | ok res =>
      cases res with
      | nil => exact iff_of_true (reported_failed _) fun _ res h => by cases h; exact .inl rfl
      | cons chunk rest =>
        show Reported peerId _ (checkResponse remote peerId (chunk :: rest)) ↔ _
        refine (reported_checkResponse_iff fun chunk rest response hcons hdecode hlow hhigh => ?_).trans
          ⟨fun h _ res h' => by cases h'; exact .inr h, fun h => (h rfl _ rfl).resolve_left (List.cons_ne_nil _ _)⟩
        exact ⟨hstream, chunk, rest, response, hcons ▸ hres, hdecode, hlow, hhigh⟩

theorem reported_checkPushResponse {rpc : PushRpc}
    (haccepted : ∀ response, rpc.response = some response → isRLNResponseError response.info = false →
      response.isSuccess = true → accepted) :
    Reported peerId accepted (.ok (checkPushResponse peerId rpc)) := by
  unfold checkPushResponse
  split
  next => exact reported_failed _
  next response hresponse =>
    split
    next => exact reported_failed _
    next hrln =>
      split
      next => exact reported_failed _
      next hsuccess =>
        exact reported_succeeded (haccepted response hresponse (by simpa using hrln) (by simpa using hsuccess))

theorem reported_send (encoder : IEncoder) (message : IMessage) :
    Reported peerId (Accepted remote uuid (.send encoder message)) (send remote uuid encoder message peerId) := by
  rw [send]
  cases hquery : preparePushMessage uuid encoder message with
  | error e => exact reported_failed _
  | ok query =>
    cases hstream : remote.getStream with
    | error e => exact reported_failed _
    | ok stream =>
      dsimp only
      cases hres : remote.push query with
      | error e => exact reported_failed _
      | ok res =>
        dsimp only
        cases hrpc : remote.decodePushRpc res.flatten with
        | error e => exact reported_failed _
        | ok rpc =>
          refine reported_checkPushResponse fun response hresponse hrln hsuccess => ?_
          exact ⟨hstream, query, res, rpc, response, hquery, hres, hrpc, hresponse, hrln, hsuccess⟩

/-- **When a request method reports its outcome.** A call of any of the five methods resolves to a result with one of
success and failure, and to a success only of the given peer and after it was accepted, iff the steps that the method
leaves outside its `try` blocks succeed. -/
theorem reports_iff (remote : Remote) (uuid : String) (peerId : PeerId) (method : Method) :
    Reported peerId (Accepted remote uuid method) (call remote uuid peerId method) ↔ Guarded remote uuid method := by
  cases method with
  | subscribe pubsubTopic contentTopics => exact reported_subscribe_iff pubsubTopic contentTopics
  | unsubscribe pubsubTopic contentTopics => exact iff_of_true (reported_unsubscribe pubsubTopic contentTopics) trivial
  | unsubscribeAll pubsubTopic => exact reported_unsubscribeAll_iff pubsubTopic
  | ping => exact reported_ping_iff
  | send encoder message => exact iff_of_true (reported_send encoder message) trivial

end Reports

/-- No connection to the peer. -/
def unreachable : Remote where
  getStream := .error (.error "No connection found for remote peer")
  exchange _ := .ok []
  sink _ := .ok ()
  push _ := .ok []
  decodeFilterSubscribeResponse _ := .error .rangeError
  decodePushRpc _ := .error .rangeError

/-- The peer closes the stream without a response. -/
def silent : Remote := { unreachable with getStream := .ok () }

/-- Without a stream `subscribe` and `unsubscribeAll` reject, and `subscribe` also without a response. -/
theorem not_reported_subscribe :
    ¬Reported "p" (Accepted unreachable "id" (.subscribe "t" ["c"])) (call unreachable "id" "p" (.subscribe "t" ["c"])) ∧
      ¬Reported "p" (Accepted unreachable "id" (.unsubscribeAll "t")) (call unreachable "id" "p" (.unsubscribeAll "t")) ∧
      ¬Reported "p" (Accepted silent "id" (.subscribe "t" ["c"])) (call silent "id" "p" (.subscribe "t" ["c"])) := by
  refine ⟨?_, ?_, ?_⟩ <;> exact not_reported_error _

end JsWaku.RequestMethods
