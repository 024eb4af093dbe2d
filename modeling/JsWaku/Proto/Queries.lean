import JsWaku.Core.Store
import JsWaku.Proto.WakuMessage

/-!
# The wire format of queries

The messages of `packages/proto/src/generated/store_v3.ts`, `metadata.ts` and `peer_exchange.ts`. They are decoded as they
were encoded, but for a store request without content topics: it comes back with an empty list of them
(`StoreQueryRequest.onWire`).
-/

namespace JsWaku.Proto

open Reading Codec.Writes
open Store (WakuMessageKeyValue StoreQueryRequest)

/-! ## Store -/

/-- `StoreQueryResponse`. -/
structure StoreQueryResponse where
  requestId : String
  statusCode : Option ℕ
  statusDesc : Option String
  messages : List WakuMessageKeyValue
  paginationCursor : Option Bytes
  deriving DecidableEq, Repr

section

variable (rt : Runtime)

/-- `WakuMessageKeyValue.codec`. -/
def WakuMessageKeyValue.codec : Codec WakuMessageKeyValue where
  fields obj :=
    rt.w.optional 10 rt.w.bytes obj.messageHash ++
      rt.w.optional 18 ((WakuMessage.codec rt).writeNested rt) obj.message ++
      rt.w.optional 26 rt.w.string obj.pubsubTopic
  empty := { messageHash := none, message := none, pubsubTopic := none }
  cases obj
    | 1 => some do return { obj with messageHash := some (← rt.reader.bytes) }
    | 2 => some do return { obj with message := some (← (WakuMessage.codec rt).readNested rt) }
    | 3 => some do return { obj with pubsubTopic := some (← rt.reader.string) }
    | _ => none

/-- `StoreQueryRequest.codec`. Absent content topics are written as none. -/
def StoreQueryRequest.codec : Codec StoreQueryRequest where
  fields obj :=
    rt.w.required 10 rt.w.string "" obj.requestId ++ rt.w.required 16 rt.w.bool false obj.includeData ++
      rt.w.optional 82 rt.w.string obj.pubsubTopic ++
      rt.w.repeated 90 rt.w.string (obj.contentTopics.getD []) ++ rt.w.optional 96 rt.w.sint64 obj.timeStart ++
      rt.w.optional 104 rt.w.sint64 obj.timeEnd ++ rt.w.repeated 162 rt.w.bytes obj.messageHashes ++
      rt.w.optional 410 rt.w.bytes obj.paginationCursor ++
      rt.w.required 416 rt.w.bool false obj.paginationForward ++ rt.w.optional 424 rt.w.uint64 obj.paginationLimit
  empty :=
    { requestId := "", includeData := false, pubsubTopic := none, contentTopics := some [], timeStart := none,
      timeEnd := none, messageHashes := [], paginationCursor := none, paginationForward := false,
      paginationLimit := none }
  cases obj
    | 1 => some do return { obj with requestId := ← rt.reader.string }
    | 2 => some do return { obj with includeData := ← rt.reader.bool }
    | 10 => some do return { obj with pubsubTopic := some (← rt.reader.string) }
    | 11 => some do return { obj with contentTopics := some (obj.contentTopics.getD [] ++ [← rt.reader.string]) }
    | 12 => some do return { obj with timeStart := some (← rt.reader.sint64) }
    | 13 => some do return { obj with timeEnd := some (← rt.reader.sint64) }
    | 20 => some do return { obj with messageHashes := obj.messageHashes ++ [← rt.reader.bytes] }
    | 51 => some do return { obj with paginationCursor := some (← rt.reader.bytes) }
    | 52 => some do return { obj with paginationForward := ← rt.reader.bool }
    | 53 => some do return { obj with paginationLimit := some (← rt.reader.uint64) }
    | _ => none

/-- `StoreQueryResponse.codec`. -/
def StoreQueryResponse.codec : Codec StoreQueryResponse where
  fields obj :=
    rt.w.required 10 rt.w.string "" obj.requestId ++ rt.w.optional 80 rt.w.uint32 obj.statusCode ++
      rt.w.optional 90 rt.w.string obj.statusDesc ++
      rt.w.repeated 162 ((WakuMessageKeyValue.codec rt).writeNested rt) obj.messages ++
      rt.w.optional 410 rt.w.bytes obj.paginationCursor
  empty := { requestId := "", statusCode := none, statusDesc := none, messages := [], paginationCursor := none }
  cases obj
    | 1 => some do return { obj with requestId := ← rt.reader.string }
    | 10 => some do return { obj with statusCode := some (← rt.reader.uint32) }
    | 11 => some do return { obj with statusDesc := some (← rt.reader.string) }
    | 20 => some do
      return { obj with messages := obj.messages ++ [← (WakuMessageKeyValue.codec rt).readNested rt] }
    | 51 => some do return { obj with paginationCursor := some (← rt.reader.bytes) }
    | _ => none

/-! ## Metadata -/

/-- `WakuMetadataRequest` and `WakuMetadataResponse`, which have the same fields. -/
structure WakuMetadata where
  clusterId : Option ℕ
  shards : List ℕ
  deriving DecidableEq, Repr

/-- The codec of both. The shards are not packed. -/
def WakuMetadata.codec : Codec WakuMetadata where
  fields obj := rt.w.optional 8 rt.w.uint32 obj.clusterId ++ rt.w.repeated 16 rt.w.uint32 obj.shards
  empty := { clusterId := none, shards := [] }
  cases obj
    | 1 => some do return { obj with clusterId := some (← rt.reader.uint32) }
    | 2 => some do return { obj with shards := obj.shards ++ [← rt.reader.uint32] }
    | _ => none

/-! ## Peer exchange -/

/-- `PeerInfo`. -/
structure PeerInfo where
  enr : Option Bytes
  deriving DecidableEq, Repr

/-- `PeerExchangeQuery`. -/
structure PeerExchangeQuery where
  numPeers : Option ℕ
  deriving DecidableEq, Repr

/-- `PeerExchangeResponse`. -/
structure PeerExchangeResponse where
  peerInfos : List PeerInfo
  deriving DecidableEq, Repr

/-- `PeerExchangeRPC`. -/
structure PeerExchangeRPC where
  query : Option PeerExchangeQuery
  response : Option PeerExchangeResponse
  deriving DecidableEq, Repr

/-- `PeerInfo.codec`. -/
def PeerInfo.codec : Codec PeerInfo where
  fields obj := rt.w.optional 10 rt.w.bytes obj.enr
  empty := { enr := none }
  cases obj
    | 1 => some do return { obj with enr := some (← rt.reader.bytes) }
    | _ => none

/-- `PeerExchangeQuery.codec`. -/
def PeerExchangeQuery.codec : Codec PeerExchangeQuery where
  fields obj := rt.w.optional 8 rt.w.uint64 obj.numPeers
  empty := { numPeers := none }
  cases obj
    | 1 => some do return { obj with numPeers := some (← rt.reader.uint64) }
    | _ => none

/-- `PeerExchangeResponse.codec`. -/
def PeerExchangeResponse.codec : Codec PeerExchangeResponse where
  fields obj := rt.w.repeated 10 ((PeerInfo.codec rt).writeNested rt) obj.peerInfos
  empty := { peerInfos := [] }
  cases obj
    | 1 => some do return { obj with peerInfos := obj.peerInfos ++ [← (PeerInfo.codec rt).readNested rt] }
    | _ => none

/-- `PeerExchangeRPC.codec`. -/
def PeerExchangeRPC.codec : Codec PeerExchangeRPC where
  fields obj :=
    rt.w.optional 10 ((PeerExchangeQuery.codec rt).writeNested rt) obj.query ++
      rt.w.optional 18 ((PeerExchangeResponse.codec rt).writeNested rt) obj.response
  empty := { query := none, response := none }
  cases obj
    | 1 => some do return { obj with query := some (← (PeerExchangeQuery.codec rt).readNested rt) }
    | 2 => some do return { obj with response := some (← (PeerExchangeResponse.codec rt).readNested rt) }
    | _ => none

end

/-! ## Ranges -/

/-- A request as it comes back. -/
def StoreQueryRequest.onWire (request : StoreQueryRequest) : StoreQueryRequest :=
  { request with contentTopics := some (request.contentTopics.getD []) }

/-- The numbers of a request are those of their fields. -/
structure StoreQueryRequest.InRange (request : StoreQueryRequest) : Prop where
  timeStart : ∀ t ∈ request.timeStart, -2 ^ 63 ≤ t ∧ t < 2 ^ 63
  timeEnd : ∀ t ∈ request.timeEnd, -2 ^ 63 ≤ t ∧ t < 2 ^ 63
  paginationLimit : ∀ n ∈ request.paginationLimit, n < 2 ^ 64

/-- The numbers of a response are those of their fields. -/
structure StoreQueryResponse.InRange (response : StoreQueryResponse) : Prop where
  statusCode : ∀ n ∈ response.statusCode, n < 2 ^ 32
  messages : ∀ entry ∈ response.messages, ∀ m ∈ entry.message, WakuMessage.InRange m

/-- The cluster and the shards are `uint32`. -/
structure WakuMetadata.InRange (obj : WakuMetadata) : Prop where
  clusterId : ∀ n ∈ obj.clusterId, n < 2 ^ 32
  shards : ∀ n ∈ obj.shards, n < 2 ^ 32

/-! ## Nested messages -/

section

variable {rt : Runtime} (hrt : rt.Lawful)
include hrt

theorem WakuMessageKeyValue.forward : (codec rt).IsForward := by
  intro obj n read h
  simp only [codec] at h
  split at h <;> cases h <;> refine Forward.bind ?_ fun _ => Forward.pure _
  · exact hrt.forward_bytes
  · exact Codec.forward_nested hrt (WakuMessage.forward hrt)
  · exact hrt.forward_string

theorem WakuMessageKeyValue.writes (obj : WakuMessageKeyValue) (h : ∀ m ∈ obj.message, WakuMessage.InRange m) :
    (codec rt).Writes rt (codec rt).empty ((codec rt).fields obj) obj := by
  obtain ⟨messageHash, message, pubsubTopic⟩ := obj
  have hmessageHash := optional (c := codec rt) 10 (by decide) hrt messageHash (fun bs => ⟨bs, none, none⟩)
    (fun bs _ => hrt.bytes bs) rfl
  have hmessage := optional (c := codec rt) 18 (by decide) hrt message (fun m => ⟨messageHash, m, none⟩)
    (fun m hm => Codec.reads_nested hrt (WakuMessage.forward hrt) (WakuMessage.writes hrt (h m hm))) rfl
  have hpubsubTopic := optional (c := codec rt) 26 (by decide) hrt pubsubTopic
    (fun s => ⟨messageHash, message, s⟩) (fun s _ => hrt.string s) rfl
  exact (hmessageHash.append hmessage).append hpubsubTopic

theorem StoreQueryRequest.forward : (codec rt).IsForward := by
  intro obj n read h
  simp only [codec] at h
  split at h <;> cases h <;> refine Forward.bind ?_ fun _ => Forward.pure _
  · exact hrt.forward_string
  · exact hrt.forward_bool
  · exact hrt.forward_string
  · exact hrt.forward_string
  · exact hrt.forward_sint64
  · exact hrt.forward_sint64
  · exact hrt.forward_bytes
  · exact hrt.forward_bytes
  · exact hrt.forward_bool
  · exact hrt.forward_uint64

theorem StoreQueryRequest.writes (obj : StoreQueryRequest) (h : InRange obj) :
    (codec rt).Writes rt (codec rt).empty ((codec rt).fields obj) (onWire obj) := by
  obtain ⟨requestId, includeData, pubsubTopic, contentTopics, timeStart, timeEnd, messageHashes, paginationCursor,
    paginationForward, paginationLimit⟩ := obj
  have hrequestId := required (c := codec rt) 10 (by decide) hrt ""
    (fun s => ⟨s, false, none, some [], none, none, [], none, false, none⟩) (hrt.string requestId) rfl
  have hincludeData := required (c := codec rt) 16 (by decide) hrt false
    (fun b => ⟨requestId, b, none, some [], none, none, [], none, false, none⟩) (fun _ => hrt.bool includeData) rfl
  have hpubsubTopic := optional (c := codec rt) 82 (by decide) hrt pubsubTopic
    (fun s => ⟨requestId, includeData, s, some [], none, none, [], none, false, none⟩) (fun s _ => hrt.string s) rfl
  have hcontentTopics := repeated (c := codec rt) 90 (by decide) hrt (contentTopics.getD [])
    (fun l => ⟨requestId, includeData, pubsubTopic, some l, none, none, [], none, false, none⟩)
    (fun s _ => hrt.string s) fun _ => rfl
  have htimeStart := optional (c := codec rt) 96 (by decide) hrt timeStart
    (fun t => ⟨requestId, includeData, pubsubTopic, some (contentTopics.getD []), t, none, [], none, false, none⟩)
    (fun t ht _ => hrt.sint64 t (h.timeStart t ht).1 (h.timeStart t ht).2) rfl
  have htimeEnd := optional (c := codec rt) 104 (by decide) hrt timeEnd
    (fun t => ⟨requestId, includeData, pubsubTopic, some (contentTopics.getD []), timeStart, t, [], none, false, none⟩)
    (fun t ht _ => hrt.sint64 t (h.timeEnd t ht).1 (h.timeEnd t ht).2) rfl
  have hmessageHashes := repeated (c := codec rt) 162 (by decide) hrt messageHashes
    (fun l => ⟨requestId, includeData, pubsubTopic, some (contentTopics.getD []), timeStart, timeEnd, l, none, false,
      none⟩)
    (fun bs _ => hrt.bytes bs) fun _ => rfl
  have hpaginationCursor := optional (c := codec rt) 410 (by decide) hrt paginationCursor
    (fun bs => ⟨requestId, includeData, pubsubTopic, some (contentTopics.getD []), timeStart, timeEnd, messageHashes, bs,
      false, none⟩)
    (fun bs _ => hrt.bytes bs) rfl
  have hpaginationForward := required (c := codec rt) 416 (by decide) hrt false
    (fun b => ⟨requestId, includeData, pubsubTopic, some (contentTopics.getD []), timeStart, timeEnd, messageHashes,
      paginationCursor, b, none⟩)
    (fun _ => hrt.bool paginationForward) rfl
  have hpaginationLimit := optional (c := codec rt) 424 (by decide) hrt paginationLimit
    (fun n => ⟨requestId, includeData, pubsubTopic, some (contentTopics.getD []), timeStart, timeEnd, messageHashes,
      paginationCursor, paginationForward, n⟩)
    (fun n hn _ => hrt.uint64 n (h.paginationLimit n hn)) rfl
  exact ((((((((hrequestId.append hincludeData).append hpubsubTopic).append hcontentTopics).append htimeStart).append
    htimeEnd).append hmessageHashes).append hpaginationCursor).append hpaginationForward).append hpaginationLimit

theorem StoreQueryResponse.forward : (codec rt).IsForward := by
  intro obj n read h
  simp only [codec] at h
  split at h <;> cases h <;> refine Forward.bind ?_ fun _ => Forward.pure _
  · exact hrt.forward_string
  · exact hrt.progress_uint32.forward
  · exact hrt.forward_string
  · exact Codec.forward_nested hrt (WakuMessageKeyValue.forward hrt)
  · exact hrt.forward_bytes

theorem StoreQueryResponse.writes (obj : StoreQueryResponse) (h : InRange obj) :
    (codec rt).Writes rt (codec rt).empty ((codec rt).fields obj) obj := by
  obtain ⟨requestId, statusCode, statusDesc, messages, paginationCursor⟩ := obj
  have hrequestId := required (c := codec rt) 10 (by decide) hrt "" (fun s => ⟨s, none, none, [], none⟩)
    (hrt.string requestId) rfl
  have hstatusCode := optional (c := codec rt) 80 (by decide) hrt statusCode
    (fun n => ⟨requestId, n, none, [], none⟩) (fun n hn _ => hrt.uint32 n (h.statusCode n hn)) rfl
  have hstatusDesc := optional (c := codec rt) 90 (by decide) hrt statusDesc
    (fun s => ⟨requestId, statusCode, s, [], none⟩) (fun s _ => hrt.string s) rfl
  have hmessages := repeated (c := codec rt) 162 (by decide) hrt messages
    (fun l => ⟨requestId, statusCode, statusDesc, l, none⟩)
    (fun entry hentry => Codec.reads_nested hrt (WakuMessageKeyValue.forward hrt)
      (WakuMessageKeyValue.writes hrt entry (h.messages entry hentry))) fun _ => rfl
  have hpaginationCursor := optional (c := codec rt) 410 (by decide) hrt paginationCursor
    (fun bs => ⟨requestId, statusCode, statusDesc, messages, bs⟩) (fun bs _ => hrt.bytes bs) rfl
  exact (((hrequestId.append hstatusCode).append hstatusDesc).append hmessages).append hpaginationCursor

theorem WakuMetadata.forward : (codec rt).IsForward := by
  intro obj n read h
  simp only [codec] at h
  split at h <;> cases h <;> refine Forward.bind ?_ fun _ => Forward.pure _
  · exact hrt.progress_uint32.forward
  · exact hrt.progress_uint32.forward

theorem WakuMetadata.writes (obj : WakuMetadata) (h : InRange obj) :
    (codec rt).Writes rt (codec rt).empty ((codec rt).fields obj) obj := by
  obtain ⟨clusterId, shards⟩ := obj
  have hclusterId := optional (c := codec rt) 8 (by decide) hrt clusterId (fun n => ⟨n, []⟩)
    (fun n hn _ => hrt.uint32 n (h.clusterId n hn)) rfl
  have hshards := repeated (c := codec rt) 16 (by decide) hrt shards (fun l => ⟨clusterId, l⟩)
    (fun n hn _ => hrt.uint32 n (h.shards n hn)) fun _ => rfl
  exact hclusterId.append hshards

theorem PeerInfo.forward : (codec rt).IsForward := by
  intro obj n read h
  simp only [codec] at h
  split at h <;> cases h
  exact hrt.forward_bytes.bind fun _ => Forward.pure _

theorem PeerInfo.writes (obj : PeerInfo) : (codec rt).Writes rt (codec rt).empty ((codec rt).fields obj) obj :=
  optional (c := codec rt) 10 (by decide) hrt _ PeerInfo.mk (fun bs _ => hrt.bytes bs) rfl

theorem PeerExchangeQuery.forward : (codec rt).IsForward := by
  intro obj n read h
  simp only [codec] at h
  split at h <;> cases h
  exact hrt.forward_uint64.bind fun _ => Forward.pure _

theorem PeerExchangeQuery.writes (obj : PeerExchangeQuery) (h : ∀ n ∈ obj.numPeers, n < 2 ^ 64) :
    (codec rt).Writes rt (codec rt).empty ((codec rt).fields obj) obj :=
  optional (c := codec rt) 8 (by decide) hrt _ PeerExchangeQuery.mk (fun n hn _ => hrt.uint64 n (h n hn)) rfl

theorem PeerExchangeResponse.forward : (codec rt).IsForward := by
  intro obj n read h
  simp only [codec] at h
  split at h <;> cases h
  exact (Codec.forward_nested hrt (PeerInfo.forward hrt)).bind fun _ => Forward.pure _

theorem PeerExchangeResponse.writes (obj : PeerExchangeResponse) :
    (codec rt).Writes rt (codec rt).empty ((codec rt).fields obj) obj :=
  repeated (c := codec rt) 10 (by decide) hrt _ PeerExchangeResponse.mk
    (fun info _ => Codec.reads_nested hrt (PeerInfo.forward hrt) (PeerInfo.writes hrt info)) fun _ => rfl

theorem PeerExchangeRPC.forward : (codec rt).IsForward := by
  intro obj n read h
  simp only [codec] at h
  split at h <;> cases h <;> refine Forward.bind ?_ fun _ => Forward.pure _
  · exact Codec.forward_nested hrt (PeerExchangeQuery.forward hrt)
  · exact Codec.forward_nested hrt (PeerExchangeResponse.forward hrt)

theorem PeerExchangeRPC.writes (obj : PeerExchangeRPC)
    (h : ∀ query ∈ obj.query, ∀ n ∈ query.numPeers, n < 2 ^ 64) :
    (codec rt).Writes rt (codec rt).empty ((codec rt).fields obj) obj := by
  obtain ⟨query, response⟩ := obj
  have hquery := optional (c := codec rt) 10 (by decide) hrt query (fun q => ⟨q, none⟩)
    (fun q hq => Codec.reads_nested hrt (PeerExchangeQuery.forward hrt) (PeerExchangeQuery.writes hrt q (h q hq))) rfl
  have hresponse := optional (c := codec rt) 18 (by decide) hrt response (fun r => ⟨query, r⟩)
    (fun r _ => Codec.reads_nested hrt (PeerExchangeResponse.forward hrt) (PeerExchangeResponse.writes hrt r)) rfl
  exact hquery.append hresponse

/-! ## Round trips -/

/-- **Store requests and responses are decoded as they were encoded**, absent content topics as none. -/
theorem store_roundTrips :
    (∀ request, StoreQueryRequest.InRange request → Short ((StoreQueryRequest.codec rt).encode request) →
      (StoreQueryRequest.codec rt).decode rt ((StoreQueryRequest.codec rt).encode request) =
        .ok (StoreQueryRequest.onWire request)) ∧
      (StoreQueryResponse.codec rt).RoundTrips rt StoreQueryResponse.InRange :=
  ⟨fun request h => Codec.decode_of_writes hrt (StoreQueryRequest.forward hrt) (StoreQueryRequest.writes hrt request h),
    Codec.roundTrips hrt (StoreQueryResponse.forward hrt) (StoreQueryResponse.writes hrt)⟩

/-- **Metadata and peer exchange messages are decoded as they were encoded.** -/
theorem discovery_roundTrips :
    (WakuMetadata.codec rt).RoundTrips rt WakuMetadata.InRange ∧
      (PeerExchangeRPC.codec rt).RoundTrips rt fun rpc => ∀ query ∈ rpc.query, ∀ n ∈ query.numPeers, n < 2 ^ 64 :=
  ⟨Codec.roundTrips hrt (WakuMetadata.forward hrt) (WakuMetadata.writes hrt),
    Codec.roundTrips hrt (PeerExchangeRPC.forward hrt) (PeerExchangeRPC.writes hrt)⟩

end

/-- A request for the topic `a`, of at most 20 messages. -/
def sampleQuery : StoreQueryRequest where
  requestId := "1"
  includeData := true
  pubsubTopic := some "/waku/2/rs/1/0"
  contentTopics := some ["a"]
  timeStart := some (-1)
  timeEnd := none
  messageHashes := []
  paginationCursor := none
  paginationForward := true
  paginationLimit := some 20

theorem store_roundTrips_sample :
    (StoreQueryRequest.codec wireFormat).decode wireFormat ((StoreQueryRequest.codec wireFormat).encode sampleQuery) =
      .ok sampleQuery := by
  refine (store_roundTrips wireFormat_lawful).1 sampleQuery ⟨?_, ?_, ?_⟩ (by unfold Short; decide +kernel) <;>
    rintro _ ⟨⟩ <;> decide

theorem discovery_roundTrips_sample :
    (PeerExchangeRPC.codec wireFormat).decode wireFormat
      ((PeerExchangeRPC.codec wireFormat).encode ⟨some ⟨some 10⟩, none⟩) = .ok ⟨some ⟨some 10⟩, none⟩ := by
  refine (discovery_roundTrips wireFormat_lawful).2 _ ?_ (by unfold Short; decide +kernel)
  rintro _ ⟨⟩ _ ⟨⟩
  decide

end JsWaku.Proto
