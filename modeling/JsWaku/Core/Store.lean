import JsWaku.Core.Message
import JsWaku.Lib.Paging
import JsWaku.Runtime.Map
import JsWaku.Runtime.Number

/-!
# Store queries

`StoreQueryRequest.create` of `packages/core/src/lib/store/rpc.ts` and `StoreCore.queryPerPage` of
`packages/core/src/lib/store/store.ts`. The protobuf and length-prefix codecs of a request and its response are left
out: a peer answers a request with a response, or the stream fails.

Against a server that answers with the next page of at most `L` messages, each with its hash, `queryPerPage` ends after
`pageCount n L + 1` requests and its pages hold the `n` messages past the cursor, each once and in order
(`queryPerPage_complete`). The server is an abstract one, told only by the pages it answers with (`Serves`), and so is
what a page is to hold for a message (`Promised`).
-/

namespace JsWaku.Store

open Paging

/-! ## Messages of the protocol -/

/-- `WakuMessage` of the store protocol: it has the fields of `IProtoMessage`. -/
abbrev WakuMessage := IProtoMessage

/-- `toProtoMessage`: a field the wire message lacks is undefined, as it is in `EmptyMessage`. -/
def toProtoMessage (wire : WakuMessage) : IProtoMessage := wire

/-- `WakuMessageKeyValue`. -/
structure WakuMessageKeyValue where
  messageHash : Option Bytes
  message : Option WakuMessage
  pubsubTopic : Option String
  deriving DecidableEq, Repr

/-- `QueryRequestParams`. The store passes on a partial object of the caller, so that a topic may be undefined. -/
structure QueryRequestParams where
  includeData : Bool
  pubsubTopic : Option String
  contentTopics : Option (List String)
  timeStart : Option Date
  timeEnd : Option Date
  messageHashes : Option (List Bytes)
  paginationCursor : Option Bytes
  paginationForward : Bool
  paginationLimit : Option ℕ
  deriving DecidableEq, Repr

/-- `proto.StoreQueryRequest`. -/
structure StoreQueryRequest where
  requestId : String
  includeData : Bool
  pubsubTopic : Option String
  contentTopics : Option (List String)
  timeStart : Option ℤ
  timeEnd : Option ℤ
  messageHashes : List Bytes
  paginationCursor : Option Bytes
  paginationForward : Bool
  paginationLimit : Option ℕ
  deriving DecidableEq, Repr

/-- `proto.StoreQueryResponse`, as far as the code reads it. -/
structure StoreQueryResponse where
  statusCode : Option ℕ
  statusDesc : Option String
  messages : List WakuMessageKeyValue
  deriving DecidableEq, Repr

/-- `IDecoder`; its promise resolves to a message or to undefined, or is rejected. -/
structure IDecoder (T : Type) where
  pubsubTopic : String
  contentTopic : String
  fromProtoObj : String → IProtoMessage → Except JsError (Option T)

/-! ## Requests -/

/-- `DEFAULT_PAGE_SIZE`. -/
def DEFAULT_PAGE_SIZE : ℕ := 20

/-- `MAX_PAGE_SIZE`. -/
def MAX_PAGE_SIZE : ℕ := 100

/-- `ONE_MILLION`. -/
def ONE_MILLION : ℤ := 1000000

/-- `BigInt(date.getTime() * ONE_MILLION)`: the product is a `Number`. -/
def nanoseconds (date : Date) : Except JsError ℤ :=
  match date.time with
  | some millis => .ok (Number.ofInt (millis * ONE_MILLION))
  | none => .error .rangeError

/-- A time bound of the request. -/
def timeBound : Option Date → Except JsError (Option ℤ)
  | some date => do
    let ns ← nanoseconds date
    return some ns
  | none => .ok none

/-- A string is truthy when it is there and not empty. -/
def isTruthy (s : Option String) : Bool := s.getD "" != ""

/-- A number is truthy when it is there and not zero. -/
def truthyNumber (n : Option ℕ) : Option ℕ := n.filter (· ≠ 0)

/-- `StoreQueryRequest.create`; `uuid` is the random request id. -/
def StoreQueryRequest.create (uuid : String) (params : QueryRequestParams) : Except JsError StoreQueryRequest := do
  let timeStart ← timeBound params.timeStart
  let timeEnd ← timeBound params.timeEnd
  let request : StoreQueryRequest :=
    { requestId := uuid, includeData := params.includeData, pubsubTopic := params.pubsubTopic,
      contentTopics := params.contentTopics, timeStart, timeEnd, messageHashes := params.messageHashes.getD [],
      paginationCursor := params.paginationCursor, paginationForward := params.paginationForward,
      paginationLimit := truthyNumber params.paginationLimit }
  if (isTruthy params.pubsubTopic && params.contentTopics.isNone) ||
      (!isTruthy params.pubsubTopic && params.contentTopics.isSome) then
    throw (.error "Both pubsubTopic and contentTopics must be set or unset")
  else if params.messageHashes.isSome &&
      (isTruthy params.pubsubTopic || params.contentTopics.isSome || params.timeStart.isSome ||
        params.timeEnd.isSome) then
    throw (.error "Message hash lookup queries cannot include content filter criteria")
  else return request

/-- Neither the request id nor the cursor decides whether a request is made; the request carries both, and the
direction. -/
theorem create_cursor {uuid : String} {params : QueryRequestParams} {request : StoreQueryRequest}
    (h : StoreQueryRequest.create uuid params = .ok request) (uuid' : String) (cursor : Option Bytes) :
    ∃ request', StoreQueryRequest.create uuid' { params with paginationCursor := cursor } = .ok request' ∧
      request'.paginationCursor = cursor ∧ request'.paginationForward = params.paginationForward := by
  obtain ⟨timeStart, hstart, h⟩ := bind_eq_ok.1 h
  obtain ⟨timeEnd, hend, h⟩ := bind_eq_ok.1 h
  simp only [StoreQueryRequest.create, hstart, hend, ok_bind]
  split at h
  · cases h
  · rename_i htopics
    split at h
    · cases h
    · rename_i hhashes
      rw [if_neg htopics, if_neg hhashes]
      exact ⟨_, rfl, rfl, rfl⟩

/-! ## The query loop -/

/-- What a query meets outside the program, by round of its loop: the request ids, the streams, and the peer. -/
structure Network where
  uuid : ℕ → String
  getStream : ℕ → Except JsError Unit
  respond : ℕ → StoreQueryRequest → Except JsError StoreQueryResponse

/-- How a query ends; `outOfFuel` when it was cut off. -/
inductive Ending
  | returned
  | threw (e : JsError)
  | outOfFuel
  deriving DecidableEq, Repr

/-- A query that was drained: the requests it sent, the pages it yielded, and how it ended. -/
structure Query (T : Type) where
  requests : List StoreQueryRequest
  pages : List (List (Except JsError (Option T)))
  ending : Ending

/-- One round of the loop. -/
inductive Round (T : Type)
  | broke (request : Option StoreQueryRequest)
  | threw (request : Option StoreQueryRequest) (e : JsError)
  | yielded (request : StoreQueryRequest) (page : List (Except JsError (Option T))) (cursor : Option Bytes)
      (last : Bool)

/-- `undefined` inside a template string. -/
def template {α : Type} [ToString α] : Option α → String
  | some a => toString a
  | none => "undefined"

variable {T : Type}

/-- The promise for one message of a page. -/
def decodeMessage (decoders : Map String (IDecoder T)) (protoMsg : WakuMessageKeyValue) : Except JsError (Option T) :=
  match protoMsg.message with
  | none => .ok none
  | some message =>
    if message.contentTopic ≠ "" then
      match decoders.get message.contentTopic with
      | some decoder => decoder.fromProtoObj (protoMsg.pubsubTopic.getD "") (toProtoMessage message)
      | none => .ok none
    else .ok none

/-- The body of the loop of `queryPerPage`. -/
def queryRound (net : Network) (queryOpts : QueryRequestParams) (decoders : Map String (IDecoder T)) (round : ℕ)
    (currentCursor : Option Bytes) : Round T :=
  match StoreQueryRequest.create (net.uuid round) { queryOpts with paginationCursor := currentCursor } with
  | .error e => .threw none e
  | .ok storeQueryRequest =>
    match net.getStream round with
    | .error _ => .broke none
    | .ok () =>
      match net.respond round storeQueryRequest with
      | .error e => .threw (some storeQueryRequest) e
      | .ok storeQueryResponse =>
        let statusCode := storeQueryResponse.statusCode.getD 0
        if statusCode = 0 ∨ 300 ≤ statusCode then
          .threw (some storeQueryRequest) (.error ("Store query failed with status code: " ++
            template storeQueryResponse.statusCode ++ ", description: " ++ template storeQueryResponse.statusDesc))
        else if h : storeQueryResponse.messages ≠ [] then
          let messages := storeQueryResponse.messages
          let cursor := if queryOpts.paginationForward then (messages.getLast h).messageHash
            else (messages.head h).messageHash
          .yielded storeQueryRequest (messages.map (decodeMessage decoders)) cursor
            (MAX_PAGE_SIZE < messages.length &&
              messages.length < (truthyNumber queryOpts.paginationLimit).getD DEFAULT_PAGE_SIZE)
        else .broke (some storeQueryRequest)

/-- The loop of `queryPerPage`, at most `fuel` rounds of it. -/
def queryLoop (net : Network) (queryOpts : QueryRequestParams) (decoders : Map String (IDecoder T)) :
    ℕ → ℕ → Option Bytes → Query T
  | 0, _, _ => ⟨[], [], .outOfFuel⟩
  | fuel + 1, round, currentCursor =>
    match queryRound net queryOpts decoders round currentCursor with
    | .broke request => ⟨request.toList, [], .returned⟩
    | .threw request e => ⟨request.toList, [], .threw e⟩
    | .yielded request page cursor last =>
      if last then ⟨[request], [page], .returned⟩
      else
        let rest := queryLoop net queryOpts decoders fuel (round + 1) cursor
        ⟨request :: rest.requests, page :: rest.pages, rest.ending⟩

/-- `toString` of an array of strings. -/
def arrayToString (xs : List String) : String := String.intercalate "," xs

/-- `queryPerPage`. -/
def queryPerPage (net : Network) (queryOpts : QueryRequestParams) (decoders : Map String (IDecoder T)) (fuel : ℕ) :
    Query T :=
  match queryOpts.contentTopics with
  | none => ⟨[], [], .threw .typeError⟩
  | some contentTopics =>
    if arrayToString contentTopics ≠ arrayToString decoders.keys then
      ⟨[], [], .threw (.error "Internal error, the decoders should match the query's content topics")⟩
    else queryLoop net queryOpts decoders fuel 0 queryOpts.paginationCursor

/-! ## The server -/

/-- A message of the store, as it is sent with its hash. -/
structure StoredMessage where
  messageHash : Bytes
  message : Option WakuMessage
  pubsubTopic : Option String
  deriving DecidableEq, Repr

/-- A stored message in a response. -/
def StoredMessage.toKeyValue (m : StoredMessage) : WakuMessageKeyValue :=
  ⟨some m.messageHash, m.message, m.pubsubTopic⟩

/-- What the promise for a stored message is to come to: what the decoder registered for its content topic makes of it on
its pubsub topic, or undefined where it has no body or content topic, or nobody decodes that. -/
inductive Promised (decoders : Map String (IDecoder T)) : StoredMessage → Except JsError (Option T) → Prop
  | decoded {messageHash : Bytes} {message : WakuMessage} {pubsubTopic : Option String} {decoder : IDecoder T}
      (htopic : message.contentTopic ≠ "") (hdecoder : (message.contentTopic, decoder) ∈ decoders.entries) :
      Promised decoders ⟨messageHash, some message, pubsubTopic⟩ (decoder.fromProtoObj (pubsubTopic.getD "") message)
  | undecoded {m : StoredMessage} (h : ∀ message ∈ m.message, message.contentTopic = "" ∨
      message.contentTopic ∉ decoders.entries.map Prod.fst) : Promised decoders m (.ok none)

/-- The stored messages past a cursor, in the direction of the query. -/
def past (content : List StoredMessage) (forward : Bool) (cursor : Option Bytes) : List StoredMessage :=
  remaining StoredMessage.messageHash forward content cursor

/-- Streams open, and the peer answers each request whose cursor is absent or stored with a success status and the
next page of at most `L` messages. -/
structure Serves (net : Network) (content : List StoredMessage) (L : ℕ) : Prop where
  stream : ∀ round, net.getStream round = .ok ()
  answer : ∀ round request,
    (∀ cursor, request.paginationCursor = some cursor → cursor ∈ content.map StoredMessage.messageHash) →
    ∃ response statusCode, net.respond round request = .ok response ∧ response.statusCode = some statusCode ∧
      statusCode ≠ 0 ∧ statusCode < 300 ∧
      response.messages = (page request.paginationForward L
        (past content request.paginationForward request.paginationCursor)).map StoredMessage.toKeyValue

section

variable {net : Network} {content : List StoredMessage} {L : ℕ} {queryOpts : QueryRequestParams}
  {decoders : Map String (IDecoder T)} {cursor : Option Bytes}

/-- The promises of a page are those for its messages. -/
theorem promised_decodeMessage (decoders : Map String (IDecoder T)) (m : StoredMessage) :
    Promised decoders m (decodeMessage decoders m.toKeyValue) := by
  obtain ⟨messageHash, message, pubsubTopic⟩ := m
  cases message with
  | none => exact Promised.undecoded fun message h => by cases h
  | some message =>
    simp only [decodeMessage, StoredMessage.toKeyValue, toProtoMessage]
    by_cases htopic : message.contentTopic = ""
    · rw [if_neg (not_not.2 htopic)]
      refine Promised.undecoded fun message' h => Or.inl ?_
      cases h
      exact htopic
    · rw [if_pos htopic]
      cases hget : decoders.get message.contentTopic with
      | some decoder => exact Promised.decoded htopic (Map.mem_entries_iff.2 hget)
      | none =>
        refine Promised.undecoded fun message' h => Or.inr ?_
        cases h
        exact fun hmem => Map.mem_keys_iff.1 hmem hget

/-- What is past the message next to a page is what the page left. -/
theorem past_next (hnodup : (content.map StoredMessage.messageHash).Nodup) (forward : Bool)
    (h : page forward L (past content forward cursor) ≠ []) :
    past content forward (some (cursorElem forward _ h).messageHash) = leftover forward L (past content forward cursor) :=
  remaining_next forward L hnodup cursor h

/-- The cursor after a page is a stored hash. -/
theorem cursorElem_stored (forward : Bool) (h : page forward L (past content forward cursor) ≠ []) :
    (cursorElem forward _ h).messageHash ∈ content.map StoredMessage.messageHash := by
  refine List.mem_map_of_mem ?_
  cases forward with
  | true => exact (isSuffix_after _ content cursor).mem (List.mem_of_mem_take (List.getLast_mem h))
  | false => exact (isPrefix_before _ content cursor).mem (List.mem_of_mem_drop (List.head_mem h))

/-- A round against the server: with nothing past the cursor the loop breaks, else it yields the next page and goes on
from the message next to what the page leaves. -/
theorem queryRound_serves (decoders : Map String (IDecoder T)) (hserves : Serves net content L)
    (hL : L ≤ MAX_PAGE_SIZE) {uuid : String} {request : StoreQueryRequest} (hcreate : StoreQueryRequest.create uuid queryOpts = .ok request)
    (hcursor : ∀ c, cursor = some c → c ∈ content.map StoredMessage.messageHash) (round : ℕ) :
    ∃ request, queryRound net queryOpts decoders round cursor =
      if h : page queryOpts.paginationForward L (past content queryOpts.paginationForward cursor) ≠ [] then
        .yielded request
          ((page queryOpts.paginationForward L (past content queryOpts.paginationForward cursor)).map
            (decodeMessage decoders ∘ StoredMessage.toKeyValue))
          (some (cursorElem queryOpts.paginationForward _ h).messageHash) false
      else .broke (some request) := by
  obtain ⟨sent, hsent, hsentCursor, hforward⟩ := create_cursor hcreate (net.uuid round) cursor
  obtain ⟨response, statusCode, hrespond, hstatus, hne, hlt, hmessages⟩ :=
    hserves.answer round sent (by rw [hsentCursor]; exact hcursor)
  rw [hsentCursor, hforward] at hmessages
  refine ⟨sent, ?_⟩
  set messages := page queryOpts.paginationForward L (past content queryOpts.paginationForward cursor) with hpage
  have hcode : ¬(statusCode = 0 ∨ 300 ≤ statusCode) := by omega
  simp only [queryRound, hsent, hserves.stream, hrespond, hstatus, Option.getD_some, if_neg hcode, hmessages]
  by_cases hnil : messages = []
  · rw [dif_neg (by simp [hnil]), dif_neg (by simp [hnil])]
  · have hshort : ¬MAX_PAGE_SIZE < messages.length := by
      have := length_page queryOpts.paginationForward L (past content queryOpts.paginationForward cursor)
      rw [← hpage] at this
      omega
    rw [dif_pos (by simpa using hnil), dif_pos hnil]
    cases hfwd : queryOpts.paginationForward <;>
      simp [cursorElem, hshort, StoredMessage.toKeyValue]

/-- The loop against the server, from any round and any stored cursor. -/
theorem queryLoop_serves (hserves : Serves net content L) (hL : 1 ≤ L ∧ L ≤ MAX_PAGE_SIZE)
    (hnodup : (content.map StoredMessage.messageHash).Nodup) {uuid : String} {request : StoreQueryRequest}
    (hcreate : StoreQueryRequest.create uuid queryOpts = .ok request) :
    ∀ (fuel round : ℕ) (cursor : Option Bytes),
      (∀ c, cursor = some c → c ∈ content.map StoredMessage.messageHash) →
      pageCount (past content queryOpts.paginationForward cursor).length L + 1 ≤ fuel →
      let query := queryLoop net queryOpts decoders fuel round cursor
      query.ending = .returned ∧
        query.requests.length = pageCount (past content queryOpts.paginationForward cursor).length L + 1 ∧
        joined queryOpts.paginationForward query.pages =
          (past content queryOpts.paginationForward cursor).map (decodeMessage decoders ∘ StoredMessage.toKeyValue)
  | 0, _, _, _, hfuel => by omega
  | fuel + 1, round, cursor, hcursor, hfuel => by
    obtain ⟨sent, hround⟩ := queryRound_serves decoders hserves hL.2 hcreate hcursor round
    set rest := past content queryOpts.paginationForward cursor with hrest
    by_cases hnil : page queryOpts.paginationForward L rest = []
    · have hend : rest = [] := (page_eq_nil_iff _ hL.1 rest).1 hnil
      rw [dif_neg (by simp [hnil])] at hround
      simp only [queryLoop, hround]
      simp [hend, pageCount_zero hL.1, joined_nil]
    · rw [dif_pos hnil] at hround
      have hpos : 0 < rest.length := by
        rw [List.length_pos_iff]
        exact fun h => hnil ((page_eq_nil_iff _ hL.1 rest).2 h)
      have hnext : past content queryOpts.paginationForward (some (cursorElem _ _ hnil).messageHash) =
          leftover queryOpts.paginationForward L rest := past_next hnodup queryOpts.paginationForward hnil
      have hcount := pageCount_step hpos hL.1
      have ih := queryLoop_serves hserves hL hnodup hcreate fuel (round + 1) (some (cursorElem _ _ hnil).messageHash)
        (by rintro c ⟨⟩; exact cursorElem_stored _ hnil)
        (by rw [hnext, length_leftover]; omega)
      rw [hnext, length_leftover] at ih
      obtain ⟨hending, hrequests, hpages⟩ := ih
      simp only [queryLoop, hround, Bool.false_eq_true, if_false]
      refine ⟨hending, by rw [List.length_cons, hrequests, hcount], ?_⟩
      exact joined_cons_page _ _ L rest hpages

/-- **Pagination is complete and ends.** Let a query pass the checks of its request, with decoders matching its content
topics and a cursor that is absent or stored. Against a server with pages of `L` messages, drained for at least
`pageCount n L + 1` rounds where `n` messages are past the cursor, it returns after that many requests. The forward
pages in yield order, or the backward pages in reverse yield order, are promises for the messages past the cursor, one
for each and in order. -/
theorem queryPerPage_complete (hserves : Serves net content L) (hL : 1 ≤ L ∧ L ≤ MAX_PAGE_SIZE)
    (hnodup : (content.map StoredMessage.messageHash).Nodup) {uuid : String}
    (hcreate : (StoreQueryRequest.create uuid queryOpts).toBool = true)
    (htopics : queryOpts.contentTopics = some decoders.keys)
    (hcursor : ∀ c, queryOpts.paginationCursor = some c → c ∈ content.map StoredMessage.messageHash) (fuel : ℕ)
    (hfuel : pageCount (past content queryOpts.paginationForward queryOpts.paginationCursor).length L + 1 ≤ fuel) :
    let query := queryPerPage net queryOpts decoders fuel
    query.ending = .returned ∧
      query.requests.length =
        pageCount (past content queryOpts.paginationForward queryOpts.paginationCursor).length L + 1 ∧
      List.Forall₂ (Promised decoders) (past content queryOpts.paginationForward queryOpts.paginationCursor)
        (joined queryOpts.paginationForward query.pages) := by
  obtain ⟨request, hrequest⟩ := exists_of_toBool hcreate
  simp only [queryPerPage, htopics, ne_eq, not_true_eq_false, if_false]
  obtain ⟨hending, hrequests, hpages⟩ :=
    queryLoop_serves hserves hL hnodup hrequest fuel 0 queryOpts.paginationCursor hcursor hfuel
  refine ⟨hending, hrequests, ?_⟩
  rw [hpages, List.forall₂_map_right_iff, List.forall₂_same]
  exact fun m _ => promised_decodeMessage decoders m

end

/-! ## A query of five messages by pages of two -/

/-- A stored message with a one-byte hash. -/
def sampleMessage (hash : UInt8) : StoredMessage :=
  { messageHash := [hash], pubsubTopic := some "p",
    message := some { payload := [hash], contentTopic := "c", version := none, timestamp := none, metaField := none,
                      rateLimitProof := none, ephemeral := none } }

/-- Five stored messages. -/
def sampleContent : List StoredMessage := [1, 2, 3, 4, 5].map sampleMessage

/-- A server for them with pages of two. -/
def sampleNet : Network where
  uuid _ := "id"
  getStream _ := .ok ()
  respond _ request := .ok
    { statusCode := some 200, statusDesc := some "OK",
      messages := (page request.paginationForward 2 (past sampleContent request.paginationForward
        request.paginationCursor)).map StoredMessage.toKeyValue }

/-- The backward query for what comes before the fifth message. -/
def sampleQuery : QueryRequestParams :=
  { includeData := true, pubsubTopic := some "p", contentTopics := some ["c"], timeStart := none, timeEnd := none,
    messageHashes := none, paginationCursor := some [5], paginationForward := false, paginationLimit := some 7 }

/-- A decoder of version 0 for the content topic. -/
def sampleDecoders : Map String (IDecoder Version0.DecodedMessage) :=
  Map.empty.set "c" ⟨"p", "c", fun pubsubTopic proto => .ok (Version0.Decoder.fromProtoObj pubsubTopic proto)⟩

theorem sampleNet_serves : Serves sampleNet sampleContent 2 where
  stream _ := rfl
  answer _ _ _ := ⟨_, 200, rfl, rfl, by decide, by decide, rfl⟩

/-- Three requests bring the four messages, in two pages. -/
theorem queryPerPage_complete_sample :
    (queryPerPage sampleNet sampleQuery sampleDecoders 3).ending = .returned ∧
      (queryPerPage sampleNet sampleQuery sampleDecoders 3).requests.length = 3 ∧
      List.Forall₂ (Promised sampleDecoders) ([1, 2, 3, 4].map sampleMessage)
        (joined false (queryPerPage sampleNet sampleQuery sampleDecoders 3).pages) :=
  have hcreate : (StoreQueryRequest.create "id" sampleQuery).toBool = true := by decide
  queryPerPage_complete sampleNet_serves (by decide) (by decide) hcreate (by decide) (by decide) 3 (by decide)

end JsWaku.Store
