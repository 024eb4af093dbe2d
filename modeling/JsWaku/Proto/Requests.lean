import JsWaku.Core.RequestMethods
import JsWaku.Proto.WakuMessage

/-!
# The wire format of requests

The messages of `packages/proto/src/generated/filter_v2.ts` and `light_push.ts`. A request, a response and a push are
decoded as they were encoded.
-/

namespace JsWaku.Proto

open Reading Codec.Writes
open RequestMethods (FilterSubscribeType)

/-! ## Filter -/

/-- `FilterSubscribeRequest`. -/
structure FilterSubscribeRequest where
  requestId : String
  filterSubscribeType : FilterSubscribeType
  pubsubTopic : Option String
  contentTopics : List String
  deriving DecidableEq, Repr

/-- `FilterSubscribeResponse`. -/
structure FilterSubscribeResponse where
  requestId : String
  statusCode : ℕ
  statusDesc : Option String
  deriving DecidableEq, Repr

/-- `MessagePush`. -/
structure MessagePush where
  wakuMessage : Option IProtoMessage
  pubsubTopic : Option String
  deriving DecidableEq, Repr

section

variable (rt : Runtime)

namespace FilterSubscribeType

/-- `__FilterSubscribeTypeValues`. -/
def value : FilterSubscribeType → Fin 4
  | .SUBSCRIBER_PING => 0
  | .SUBSCRIBE => 1
  | .UNSUBSCRIBE => 2
  | .UNSUBSCRIBE_ALL => 3

/-- The member with this value. -/
def ofValue : Fin 4 → FilterSubscribeType
  | 0 => .SUBSCRIBER_PING
  | 1 => .SUBSCRIBE
  | 2 => .UNSUBSCRIBE
  | 3 => .UNSUBSCRIBE_ALL

theorem ofValue_value (t : FilterSubscribeType) : ofValue (value t) = t := by
  cases t <;> rfl

/-- `FilterSubscribeType.codec().encode`. -/
def write (t : FilterSubscribeType) : Bytes := rt.w.enumeration 4 (value t)

/-- `FilterSubscribeType.codec().decode`. -/
def read : Reading.Reader JsError FilterSubscribeType := do
  let member ← rt.reader.enumeration 4
  return ofValue member

end FilterSubscribeType

/-- `FilterSubscribeRequest.codec`. -/
def FilterSubscribeRequest.codec : Codec FilterSubscribeRequest where
  fields obj :=
    rt.w.required 10 rt.w.string "" obj.requestId ++
      rt.w.required 16 (FilterSubscribeType.write rt) .SUBSCRIBER_PING obj.filterSubscribeType ++
      rt.w.optional 82 rt.w.string obj.pubsubTopic ++ rt.w.repeated 90 rt.w.string obj.contentTopics
  empty := { requestId := "", filterSubscribeType := .SUBSCRIBER_PING, pubsubTopic := none, contentTopics := [] }
  cases obj
    | 1 => some do return { obj with requestId := ← rt.reader.string }
    | 2 => some do return { obj with filterSubscribeType := ← FilterSubscribeType.read rt }
    | 10 => some do return { obj with pubsubTopic := some (← rt.reader.string) }
    | 11 => some do return { obj with contentTopics := obj.contentTopics ++ [← rt.reader.string] }
    | _ => none

/-- `FilterSubscribeResponse.codec`. -/
def FilterSubscribeResponse.codec : Codec FilterSubscribeResponse where
  fields obj :=
    rt.w.required 10 rt.w.string "" obj.requestId ++ rt.w.required 80 rt.w.uint32 0 obj.statusCode ++
      rt.w.optional 90 rt.w.string obj.statusDesc
  empty := { requestId := "", statusCode := 0, statusDesc := none }
  cases obj
    | 1 => some do return { obj with requestId := ← rt.reader.string }
    | 10 => some do return { obj with statusCode := ← rt.reader.uint32 }
    | 11 => some do return { obj with statusDesc := some (← rt.reader.string) }
    | _ => none

/-- `MessagePush.codec`. -/
def MessagePush.codec : Codec MessagePush where
  fields obj :=
    rt.w.optional 10 ((WakuMessage.codec rt).writeNested rt) obj.wakuMessage ++
      rt.w.optional 18 rt.w.string obj.pubsubTopic
  empty := { wakuMessage := none, pubsubTopic := none }
  cases obj
    | 1 => some do return { obj with wakuMessage := some (← (WakuMessage.codec rt).readNested rt) }
    | 2 => some do return { obj with pubsubTopic := some (← rt.reader.string) }
    | _ => none

/-! ## Light push -/

/-- `PushRequest`. -/
structure PushRequest where
  pubsubTopic : String
  message : Option IProtoMessage
  deriving DecidableEq, Repr

/-- `PushResponse`. -/
structure PushResponse where
  isSuccess : Bool
  info : Option String
  deriving DecidableEq, Repr

/-- `PushRpc`. -/
structure PushRpc where
  requestId : String
  request : Option PushRequest
  response : Option PushResponse
  deriving DecidableEq, Repr

/-- `PushRequest.codec`. -/
def PushRequest.codec : Codec PushRequest where
  fields obj :=
    rt.w.required 10 rt.w.string "" obj.pubsubTopic ++
      rt.w.optional 18 ((WakuMessage.codec rt).writeNested rt) obj.message
  empty := { pubsubTopic := "", message := none }
  cases obj
    | 1 => some do return { obj with pubsubTopic := ← rt.reader.string }
    | 2 => some do return { obj with message := some (← (WakuMessage.codec rt).readNested rt) }
    | _ => none

/-- `PushResponse.codec`. -/
def PushResponse.codec : Codec PushResponse where
  fields obj := rt.w.required 8 rt.w.bool false obj.isSuccess ++ rt.w.optional 18 rt.w.string obj.info
  empty := { isSuccess := false, info := none }
  cases obj
    | 1 => some do return { obj with isSuccess := ← rt.reader.bool }
    | 2 => some do return { obj with info := some (← rt.reader.string) }
    | _ => none

/-- `PushRpc.codec`. -/
def PushRpc.codec : Codec PushRpc where
  fields obj :=
    rt.w.required 10 rt.w.string "" obj.requestId ++
      rt.w.optional 18 ((PushRequest.codec rt).writeNested rt) obj.request ++
      rt.w.optional 26 ((PushResponse.codec rt).writeNested rt) obj.response
  empty := { requestId := "", request := none, response := none }
  cases obj
    | 1 => some do return { obj with requestId := ← rt.reader.string }
    | 2 => some do return { obj with request := some (← (PushRequest.codec rt).readNested rt) }
    | 3 => some do return { obj with response := some (← (PushResponse.codec rt).readNested rt) }
    | _ => none

end

/-! ## Nested messages -/

section

variable {rt : Runtime} (hrt : rt.Lawful)
include hrt

theorem FilterSubscribeType.forward : Forward (read rt) :=
  (hrt.forward_enumeration 4).bind fun _ => Forward.pure _

theorem FilterSubscribeType.reads (t : FilterSubscribeType) : Reads (read rt) (write rt t) t := by
  have hmap := (hrt.enumeration 4 (by decide) (value t)).map ofValue
  rwa [ofValue_value] at hmap

theorem FilterSubscribeRequest.forward : (codec rt).IsForward := by
  intro obj n read h
  simp only [codec] at h
  split at h <;> cases h <;> refine Forward.bind ?_ fun _ => Forward.pure _
  · exact hrt.forward_string
  · exact FilterSubscribeType.forward hrt
  · exact hrt.forward_string
  · exact hrt.forward_string

theorem FilterSubscribeRequest.writes (obj : FilterSubscribeRequest) :
    (codec rt).Writes rt (codec rt).empty ((codec rt).fields obj) obj := by
  obtain ⟨requestId, type, pubsubTopic, contentTopics⟩ := obj
  have hrequestId := required (c := codec rt) 10 (by decide) hrt ""
    (fun s => ⟨s, .SUBSCRIBER_PING, none, []⟩) (hrt.string requestId) rfl
  have htype := required (c := codec rt) 16 (by decide) hrt .SUBSCRIBER_PING
    (fun t => ⟨requestId, t, none, []⟩) (fun _ => FilterSubscribeType.reads hrt type) rfl
  have hpubsubTopic := optional (c := codec rt) 82 (by decide) hrt pubsubTopic
    (fun s => ⟨requestId, type, s, []⟩) (fun s _ => hrt.string s) rfl
  have hcontentTopics := repeated (c := codec rt) 90 (by decide) hrt contentTopics
    (fun l => ⟨requestId, type, pubsubTopic, l⟩) (fun s _ => hrt.string s) fun _ => rfl
  exact ((hrequestId.append htype).append hpubsubTopic).append hcontentTopics

theorem FilterSubscribeResponse.forward : (codec rt).IsForward := by
  intro obj n read h
  simp only [codec] at h
  split at h <;> cases h <;> refine Forward.bind ?_ fun _ => Forward.pure _
  · exact hrt.forward_string
  · exact hrt.progress_uint32.forward
  · exact hrt.forward_string

theorem FilterSubscribeResponse.writes (obj : FilterSubscribeResponse) (h : obj.statusCode < 2 ^ 32) :
    (codec rt).Writes rt (codec rt).empty ((codec rt).fields obj) obj := by
  obtain ⟨requestId, statusCode, statusDesc⟩ := obj
  have hrequestId := required (c := codec rt) 10 (by decide) hrt ""
    (fun s => ⟨s, 0, none⟩) (hrt.string requestId) rfl
  have hstatusCode := required (c := codec rt) 80 (by decide) hrt 0
    (fun n => ⟨requestId, n, none⟩) (fun _ => hrt.uint32 statusCode h) rfl
  have hstatusDesc := optional (c := codec rt) 90 (by decide) hrt statusDesc
    (fun s => ⟨requestId, statusCode, s⟩) (fun s _ => hrt.string s) rfl
  exact (hrequestId.append hstatusCode).append hstatusDesc

theorem MessagePush.forward : (codec rt).IsForward := by
  intro obj n read h
  simp only [codec] at h
  split at h <;> cases h <;> refine Forward.bind ?_ fun _ => Forward.pure _
  · exact Codec.forward_nested hrt (WakuMessage.forward hrt)
  · exact hrt.forward_string

theorem MessagePush.writes (obj : MessagePush) (h : ∀ m ∈ obj.wakuMessage, WakuMessage.InRange m) :
    (codec rt).Writes rt (codec rt).empty ((codec rt).fields obj) obj := by
  obtain ⟨wakuMessage, pubsubTopic⟩ := obj
  have hwakuMessage := optional (c := codec rt) 10 (by decide) hrt wakuMessage (fun m => ⟨m, none⟩)
    (fun m hm => Codec.reads_nested hrt (WakuMessage.forward hrt) (WakuMessage.writes hrt (h m hm))) rfl
  have hpubsubTopic := optional (c := codec rt) 18 (by decide) hrt pubsubTopic (fun s => ⟨wakuMessage, s⟩)
    (fun s _ => hrt.string s) rfl
  exact hwakuMessage.append hpubsubTopic

theorem PushRequest.forward : (codec rt).IsForward := by
  intro obj n read h
  simp only [codec] at h
  split at h <;> cases h <;> refine Forward.bind ?_ fun _ => Forward.pure _
  · exact hrt.forward_string
  · exact Codec.forward_nested hrt (WakuMessage.forward hrt)

theorem PushRequest.writes (obj : PushRequest) (h : ∀ m ∈ obj.message, WakuMessage.InRange m) :
    (codec rt).Writes rt (codec rt).empty ((codec rt).fields obj) obj := by
  obtain ⟨pubsubTopic, message⟩ := obj
  have hpubsubTopic := required (c := codec rt) 10 (by decide) hrt "" (fun s => ⟨s, none⟩) (hrt.string pubsubTopic) rfl
  have hmessage := optional (c := codec rt) 18 (by decide) hrt message (fun m => ⟨pubsubTopic, m⟩)
    (fun m hm => Codec.reads_nested hrt (WakuMessage.forward hrt) (WakuMessage.writes hrt (h m hm))) rfl
  exact hpubsubTopic.append hmessage

theorem PushResponse.forward : (codec rt).IsForward := by
  intro obj n read h
  simp only [codec] at h
  split at h <;> cases h <;> refine Forward.bind ?_ fun _ => Forward.pure _
  · exact hrt.forward_bool
  · exact hrt.forward_string

theorem PushResponse.writes (obj : PushResponse) :
    (codec rt).Writes rt (codec rt).empty ((codec rt).fields obj) obj := by
  obtain ⟨isSuccess, info⟩ := obj
  have hisSuccess := required (c := codec rt) 8 (by decide) hrt false (fun b => ⟨b, none⟩)
    (fun _ => hrt.bool isSuccess) rfl
  have hinfo := optional (c := codec rt) 18 (by decide) hrt info (fun s => ⟨isSuccess, s⟩)
    (fun s _ => hrt.string s) rfl
  exact hisSuccess.append hinfo

theorem PushRpc.forward : (codec rt).IsForward := by
  intro obj n read h
  simp only [codec] at h
  split at h <;> cases h <;> refine Forward.bind ?_ fun _ => Forward.pure _
  · exact hrt.forward_string
  · exact Codec.forward_nested hrt (PushRequest.forward hrt)
  · exact Codec.forward_nested hrt (PushResponse.forward hrt)

theorem PushRpc.writes (obj : PushRpc) (h : ∀ request ∈ obj.request, ∀ m ∈ request.message, WakuMessage.InRange m) :
    (codec rt).Writes rt (codec rt).empty ((codec rt).fields obj) obj := by
  obtain ⟨requestId, request, response⟩ := obj
  have hrequestId := required (c := codec rt) 10 (by decide) hrt "" (fun s => ⟨s, none, none⟩) (hrt.string requestId) rfl
  have hrequest := optional (c := codec rt) 18 (by decide) hrt request (fun r => ⟨requestId, r, none⟩)
    (fun r hr => Codec.reads_nested hrt (PushRequest.forward hrt) (PushRequest.writes hrt r (h r hr))) rfl
  have hresponse := optional (c := codec rt) 26 (by decide) hrt response
    (fun r => ⟨requestId, request, r⟩)
    (fun r _ => Codec.reads_nested hrt (PushResponse.forward hrt) (PushResponse.writes hrt r)) rfl
  exact (hrequestId.append hrequest).append hresponse

/-! ## Round trips -/

/-- **Requests, responses and pushes are decoded as they were encoded.** -/
theorem requests_roundTrips :
    (FilterSubscribeRequest.codec rt).RoundTrips rt (fun _ => True) ∧
      (FilterSubscribeResponse.codec rt).RoundTrips rt (fun response => response.statusCode < 2 ^ 32) ∧
      (MessagePush.codec rt).RoundTrips rt (fun push => ∀ m ∈ push.wakuMessage, WakuMessage.InRange m) ∧
      (PushRpc.codec rt).RoundTrips rt fun rpc =>
        ∀ request ∈ rpc.request, ∀ m ∈ request.message, WakuMessage.InRange m :=
  ⟨Codec.roundTrips hrt (FilterSubscribeRequest.forward hrt) fun obj _ => FilterSubscribeRequest.writes hrt obj,
    Codec.roundTrips hrt (FilterSubscribeResponse.forward hrt) (FilterSubscribeResponse.writes hrt),
    Codec.roundTrips hrt (MessagePush.forward hrt) (MessagePush.writes hrt),
    Codec.roundTrips hrt (PushRpc.forward hrt) (PushRpc.writes hrt)⟩

end

/-- A request for the topic `a`. -/
def sampleSubscribe : FilterSubscribeRequest := ⟨"1", .SUBSCRIBE, some "/waku/2/rs/1/0", ["a"]⟩

theorem requests_roundTrips_sample :
    (FilterSubscribeRequest.codec wireFormat).decode wireFormat
      ((FilterSubscribeRequest.codec wireFormat).encode sampleSubscribe) = .ok sampleSubscribe :=
  (requests_roundTrips wireFormat_lawful).1 sampleSubscribe trivial (by unfold Short; decide +kernel)

end JsWaku.Proto
