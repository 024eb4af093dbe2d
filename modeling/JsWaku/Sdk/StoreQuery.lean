import JsWaku.Runtime.JsSet
import JsWaku.Sdk.PeerManager
import JsWaku.Sdk.Store

/-!
# Store queries from the decoders to the callbacks

`validateDecodersAndPubsubTopic`, `getPeerToUse` and `queryGenerator` of `packages/sdk/src/store/store.ts`, in front of
`queryPerPage`, and the queries with a callback behind it.

Against a server that serves its messages by pages, a callback that never asks to stop is called once for every stored
message past the cursor that a decoder of its content topic decodes, page by page (`callbacks_complete`). A lookup of
message hashes is turned down before any request (`hash_lookup_not_sent`): the query has a content filter, and without
one it cannot be compared with the decoders.
-/

namespace JsWaku.Sdk.Store

open JsWaku.Store Paging

variable {T : Type}

/-! ## The code -/

/-- The error of `ensurePubsubTopicIsConfigured`. -/
def notConfigured (pubsubTopic : String) (configuredTopics : List String) : JsError :=
  .error ("Pubsub topic " ++ pubsubTopic ++ " has not been configured on this instance. Configured topics are: " ++
    arrayToString configuredTopics ++
    ". Please update your configuration by passing in the topic during Waku node instantiation.")

/-- `ensurePubsubTopicIsConfigured`. -/
def ensurePubsubTopicIsConfigured (pubsubTopic : String) (configuredTopics : List String) : Except JsError Unit :=
  if pubsubTopic ∈ configuredTopics then .ok () else .error (notConfigured pubsubTopic configuredTopics)

/-- What `validateDecodersAndPubsubTopic` returns. -/
structure Validated (T : Type) where
  pubsubTopic : String
  contentTopics : List String
  decodersAsMap : Map String (IDecoder T)

/-- One decoder is added to `decodersAsMap`. -/
def addDecoder (decodersAsMap : Map String (IDecoder T)) (dec : IDecoder T) : Except JsError (Map String (IDecoder T)) :=
  if decodersAsMap.has dec.contentTopic then throw (.error "API does not support different decoder per content topic")
  else return decodersAsMap.set dec.contentTopic dec

/-- `validateDecodersAndPubsubTopic`. -/
def validateDecodersAndPubsubTopic (pubsubTopics : List String) (decoders : List (IDecoder T)) :
    Except JsError (Validated T) :=
  if decoders.isEmpty then throw (.error "No decoders provided")
  else
    match (decoders.map (·.pubsubTopic)).eraseDups with
    | [pubsubTopicForQuery] => do
      ensurePubsubTopicIsConfigured pubsubTopicForQuery pubsubTopics
      let decodersAsMap ← decoders.foldlM addDecoder Map.empty
      let contentTopics := (decoders.filter (·.pubsubTopic = pubsubTopicForQuery)).map (·.contentTopic)
      if contentTopics.length = 0 then throw (.error ("No decoders found for topic " ++ pubsubTopicForQuery))
      else return { pubsubTopic := pubsubTopicForQuery, contentTopics, decodersAsMap }
    | _ => throw (.error "API does not support querying multiple pubsub topics at once")

/-- `getPeerToUse`: one of the peers of the peer manager, at random. The peer of the options is looked for and then
not used. -/
def getPeerToUse (random : (n : ℕ) → Fin (n + 1)) (connections : List Connection) : Option PeerId :=
  match PeerManager.getPeers connections with
  | [] => none
  | peerId :: peerIds => some ((peerId :: peerIds).get (random peerIds.length))

/-- The options of the caller: a field that is given takes the place of that of the query, even where it is undefined. A
flag that is undefined counts as false. -/
structure QueryOptions where
  includeData : Option Bool
  pubsubTopic : Option (Option String)
  contentTopics : Option (Option (List String))
  timeStart : Option Date
  timeEnd : Option Date
  messageHashes : Option (List Bytes)
  paginationCursor : Option Bytes
  paginationForward : Option Bool
  paginationLimit : Option ℕ

/-- No options. -/
def QueryOptions.default : QueryOptions :=
  { includeData := none, pubsubTopic := none, contentTopics := none, timeStart := none, timeEnd := none,
    messageHashes := none, paginationCursor := none, paginationForward := none, paginationLimit := none }

/-- `queryOpts` of `queryGenerator`. -/
def queryOpts (v : Validated T) (options : QueryOptions) : QueryRequestParams where
  includeData := options.includeData.getD true
  pubsubTopic := options.pubsubTopic.getD (some v.pubsubTopic)
  contentTopics := options.contentTopics.getD (some v.contentTopics)
  timeStart := options.timeStart
  timeEnd := options.timeEnd
  messageHashes := options.messageHashes
  paginationCursor := options.paginationCursor
  paginationForward := options.paginationForward.getD true
  paginationLimit := options.paginationLimit

/-- `queryGenerator`, drained for at most `fuel` pages; each peer has its own network. -/
def queryGenerator (pubsubTopics : List String) (random : (n : ℕ) → Fin (n + 1)) (connections : List Connection)
    (nets : PeerId → Network) (decoders : List (IDecoder T)) (options : QueryOptions) (fuel : ℕ) : Query T :=
  match validateDecodersAndPubsubTopic pubsubTopics decoders with
  | .error e => ⟨[], [], .threw e⟩
  | .ok v =>
    match getPeerToUse random connections with
    | none => ⟨[], [], .threw (.error "No peers available to query")⟩
    | some peer => queryPerPage (nets peer) (queryOpts v options) v.decodersAsMap fuel

/-! ## The decoders of a query -/

section

variable {pubsubTopics : List String} {decoders : List (IDecoder T)}

theorem foldlM_addDecoder (l : List (IDecoder T)) {m m' : Map String (IDecoder T)} (h : l.foldlM addDecoder m = .ok m') :
    m'.entries = m.entries ++ l.map fun dec => (dec.contentTopic, dec) := by
  induction l generalizing m with
  | nil =>
    cases h
    simp
  | cons dec l ih =>
    obtain ⟨m₁, hadd, hrest⟩ := bind_eq_ok.1 h
    unfold addDecoder at hadd
    split at hadd
    · cases hadd
    rename_i hhas
    cases hadd
    have hnew : dec.contentTopic ∉ m.entries.map Prod.fst := fun hmem => hhas (by
      have hget := Map.mem_keys_iff.1 hmem
      rw [Map.has]
      exact Option.isSome_iff_ne_none.2 hget)
    rw [ih hrest, show (m.set dec.contentTopic dec).entries = _ from Map.setEntry_of_not_mem dec hnew]
    simp

/-- Decoders that pass the checks are of one configured topic, and of different content topics. -/
theorem validated_spec {v : Validated T} (h : validateDecodersAndPubsubTopic pubsubTopics decoders = .ok v) :
    (∀ dec ∈ decoders, dec.pubsubTopic = v.pubsubTopic) ∧ v.pubsubTopic ∈ pubsubTopics ∧
      v.decodersAsMap.entries = (decoders.map fun dec => (dec.contentTopic, dec)) ∧
      v.contentTopics = v.decodersAsMap.keys := by
  unfold validateDecodersAndPubsubTopic at h
  split at h
  · cases h
  split at h
  · rename_i p htopics
    obtain ⟨_, hconfigured, h⟩ := bind_eq_ok.1 h
    obtain ⟨decodersAsMap, hmap, h⟩ := bind_eq_ok.1 h
    dsimp only at h
    split at h
    · cases h
    cases h
    have hsame : ∀ dec ∈ decoders, dec.pubsubTopic = p := by
      intro dec hdec
      have hmem : dec.pubsubTopic ∈ (decoders.map (·.pubsubTopic)).eraseDups :=
        List.mem_eraseDups.2 (List.mem_map_of_mem hdec)
      rw [htopics] at hmem
      exact List.mem_singleton.1 hmem
    have hentries : decodersAsMap.entries = decoders.map fun dec => (dec.contentTopic, dec) := foldlM_addDecoder _ hmap
    refine ⟨hsame, ?_, hentries, ?_⟩
    · unfold ensurePubsubTopicIsConfigured at hconfigured
      split at hconfigured
      · assumption
      · cases hconfigured
    · have hfilter : decoders.filter (fun dec => dec.pubsubTopic = p) = decoders :=
        List.filter_eq_self.2 fun dec hdec => decide_eq_true (hsame dec hdec)
      rw [Map.keys, hentries, List.map_map, hfilter]
      rfl
  · cases h

/-- The decoder of a content topic. -/
theorem validated_get {v : Validated T} (h : validateDecodersAndPubsubTopic pubsubTopics decoders = .ok v)
    (contentTopic : String) :
    v.decodersAsMap.get contentTopic = decoders.find? fun dec => dec.contentTopic = contentTopic := by
  obtain ⟨-, -, hentries, -⟩ := validated_spec h
  rw [Map.get, hentries]
  clear h hentries
  induction decoders with
  | nil => rfl
  | cons dec decoders ih =>
    rw [List.map_cons, List.lookup_cons, List.find?_cons]
    by_cases htopic : dec.contentTopic = contentTopic
    · simp [htopic]
    · have hbeq : (contentTopic == dec.contentTopic) = false := by simpa using fun h => htopic h.symm
      rw [hbeq, decide_eq_false htopic]
      exact ih

end

/-! ## Hash lookups -/

/-- A query of message hashes makes no request. -/
theorem queryLoop_hashes (net : Network) {opts : QueryRequestParams} (decoders : Map String (IDecoder T))
    (hhashes : opts.messageHashes.isSome = true) (hcontent : opts.contentTopics.isSome = true) (fuel round : ℕ)
    (cursor : Option Bytes) :
    ∃ e, JsWaku.Store.queryLoop net opts decoders (fuel + 1) round cursor = ⟨[], [], .threw e⟩ := by
  have hcreate : ∃ e, StoreQueryRequest.create (net.uuid round) { opts with paginationCursor := cursor } = .error e := by
    unfold StoreQueryRequest.create
    cases timeBound opts.timeStart with
    | error e => exact ⟨e, rfl⟩
    | ok timeStart =>
      cases timeBound opts.timeEnd with
      | error e => exact ⟨e, rfl⟩
      | ok timeEnd =>
        simp only [ok_bind, hhashes, hcontent, Bool.true_and, Bool.or_true, Bool.true_or, if_true]
        split <;> exact ⟨_, rfl⟩
  obtain ⟨e, he⟩ := hcreate
  refine ⟨e, ?_⟩
  rw [JsWaku.Store.queryLoop, queryRound, he]
  rfl

/-- **A lookup of message hashes never reaches the store.** Whatever the decoders, the peers, the network and the other
options are: a query with message hashes sends no request, yields no page and throws. -/
theorem hash_lookup_not_sent (pubsubTopics : List String) (random : (n : ℕ) → Fin (n + 1))
    (connections : List Connection) (nets : PeerId → Network) (decoders : List (IDecoder T)) (options : QueryOptions)
    (hashes : List Bytes) (fuel : ℕ) :
    ∃ e, queryGenerator pubsubTopics random connections nets decoders
      { options with messageHashes := some hashes } (fuel + 1) = ⟨[], [], .threw e⟩ := by
  unfold queryGenerator
  split
  · exact ⟨_, rfl⟩
  rename_i v hvalid
  split
  · exact ⟨_, rfl⟩
  rename_i peer hpeer
  unfold queryPerPage
  split
  · exact ⟨_, rfl⟩
  rename_i contentTopics hcontent
  split
  · exact ⟨_, rfl⟩
  · exact queryLoop_hashes (nets peer) v.decodersAsMap rfl (by rw [hcontent]; rfl) fuel 0 _

/-! ## Content queries -/

/-- The message that the decoder of its content topic makes of a stored message. -/
def decoded (decoders : List (IDecoder T)) (m : StoredMessage) : Option T :=
  m.message.bind fun message =>
    if message.contentTopic = "" then none
    else
      (decoders.find? fun dec => dec.contentTopic = message.contentTopic).bind fun dec =>
        (dec.fromProtoObj (m.pubsubTopic.getD "") (toProtoMessage message)).toOption.join

/-- The options leave the topics of the decoders, ask for no hashes, and have valid dates. -/
structure QueryOptions.IsFilter (options : QueryOptions) : Prop where
  pubsubTopic : options.pubsubTopic = none
  contentTopics : options.contentTopics = none
  messageHashes : options.messageHashes = none
  timeStart : ∀ date ∈ options.timeStart, date.time.isSome
  timeEnd : ∀ date ∈ options.timeEnd, date.time.isSome

theorem timeBound_of_valid {date : Option Date} (h : ∀ d ∈ date, d.time.isSome) : ∃ ns, timeBound date = .ok ns := by
  cases date with
  | none => exact ⟨none, rfl⟩
  | some d =>
    obtain ⟨millis, hmillis⟩ := Option.isSome_iff_exists.1 (h d rfl)
    exact ⟨_, by rw [timeBound, nanoseconds, hmillis]; rfl⟩

/-- A request with such options is made. -/
theorem QueryOptions.IsFilter.create {options : QueryOptions} (h : options.IsFilter) {v : Validated T}
    (hne : v.pubsubTopic ≠ "") (uuid : String) :
    ∃ request, StoreQueryRequest.create uuid (queryOpts v options) = .ok request := by
  obtain ⟨start, hstart⟩ := timeBound_of_valid h.timeStart
  obtain ⟨stop, hstop⟩ := timeBound_of_valid h.timeEnd
  have htruthy : isTruthy (some v.pubsubTopic) = true := by simpa [isTruthy] using hne
  unfold StoreQueryRequest.create
  simp only [queryOpts, hstart, hstop, ok_bind, h.pubsubTopic, h.contentTopics, h.messageHashes, Option.getD_none, htruthy]
  exact ⟨_, rfl⟩

section

variable {decoders : List (IDecoder T)} {pubsubTopics : List String}

theorem decodeMessage_eq {v : Validated T} (hvalid : validateDecodersAndPubsubTopic pubsubTopics decoders = .ok v)
    (hresolves : ∀ dec ∈ decoders, ∀ p m, (dec.fromProtoObj p m).toBool = true) (m : StoredMessage) :
    decodeMessage v.decodersAsMap m.toKeyValue = .ok (decoded decoders m) := by
  obtain ⟨hash, message, pubsubTopic⟩ := m
  cases message with
  | none => rfl
  | some message =>
    simp only [decodeMessage, StoredMessage.toKeyValue, decoded, Option.bind_some]
    by_cases hempty : message.contentTopic = ""
    · simp [hempty]
    · rw [if_pos hempty, if_neg hempty, validated_get hvalid]
      cases hfind : decoders.find? fun dec => dec.contentTopic = message.contentTopic with
      | none => rfl
      | some dec =>
        obtain ⟨result, hresult⟩ := exists_of_toBool (hresolves dec (List.mem_of_find?_eq_some hfind)
          (pubsubTopic.getD "") (toProtoMessage message))
        simp only [hresult, Option.bind_some]
        cases result <;> rfl

end

/-! ## The calls of a callback -/

section

variable {α : Type} {items : Page T → Option (List α)} {callback : ℕ → (messages : List α) → Settlement messages.length}
  {ending : Bool} {pages : List (Page T)}

/-- What the callback is called with. -/
def called (items : Page T → Option (List α)) (pages : List (Page T)) : LogEvent → Option α
  | .invoked page i => (pages[page]?.bind items).bind (·[i]?)
  | _ => none

theorem filterMap_getElem_range (l : List α) : (List.range l.length).filterMap (l[·]?) = l := by
  induction l with
  | nil => rfl
  | cons a l ih =>
    rw [List.length_cons, List.range_succ_eq_map, List.filterMap_cons, List.filterMap_map]
    exact congrArg (a :: ·) ih

theorem filterMap_called_pageLog {page : ℕ} {promises : Page T} {messages : List α} (order : List (ℕ × Outcome))
    (hpage : pages[page]? = some promises) (hitems : items promises = some messages) :
    (pageLog page messages.length order).filterMap (called items pages) = messages := by
  have hsettled : (order.map fun settlement => LogEvent.settled page settlement.1 settlement.2).filterMap
      (called items pages) = [] := by
    rw [List.filterMap_map]
    exact List.filterMap_eq_nil_iff.2 fun _ _ => rfl
  rw [pageLog, List.filterMap_append, hsettled, List.append_nil, List.filterMap_map]
  refine Eq.trans ?_ (filterMap_getElem_range messages)
  refine List.filterMap_congr fun i _ => ?_
  simp [called, hpage, hitems]

/-- A callback that never asks to stop is called for every item of every page, in order. -/
theorem called_queryLoop (hitems : ∀ page ∈ pages, ∃ messages, items page = some messages)
    (hquiet : ∀ page messages, (callback page messages).Quiet) (page : ℕ) {rest : List (Page T)}
    (hrest : pages.drop page = rest) :
    (queryLoop items callback ending page rest).filterMap (called items pages) =
      rest.flatMap fun promises => (items promises).getD [] := by
  induction rest generalizing page with
  | nil =>
    rw [queryLoop]
    split <;> rfl
  | cons promises rest ih =>
    have hpage : pages[page]? = some promises := by
      have h := congrArg (·[0]?) hrest
      simpa using h
    obtain ⟨messages, hmessages⟩ := hitems promises (List.mem_of_getElem? hpage)
    have hgo : (callback page messages).result = .resolved false :=
      ((callback page messages).result_eq_resolved_false (hquiet page messages).2.2).2 (hquiet page messages)
    have hnext : pages.drop (page + 1) = rest := by
      rw [← List.tail_drop, hrest, List.tail_cons]
    rw [queryLoop_cons page promises rest hmessages, if_pos hgo, List.filterMap_cons, List.flatMap_cons, hmessages]
    change (pageLog _ _ _ ++ _).filterMap _ = _
    rw [List.filterMap_append, filterMap_called_pageLog _ hpage hmessages, ih (page + 1) hnext]
    rfl

/-- Pages put back together, item by item. -/
theorem joined_map_filterMap {β γ : Type} (f : β → Option γ) (forward : Bool) (pages : List (List β)) :
    joined forward (pages.map (List.filterMap f)) = (joined forward pages).filterMap f := by
  cases forward with
  | true => simp [joined, List.filterMap_flatten]
  | false => simp [joined, List.filterMap_flatten, List.map_reverse]

/-- A promise of a page is on the pages put together. -/
theorem mem_joined {β : Type} (forward : Bool) {pages : List (List β)} {page : List β} {x : β} (hpage : page ∈ pages)
    (hx : x ∈ page) : x ∈ joined forward pages := by
  cases forward with
  | true => exact List.mem_flatten.2 ⟨page, hpage, hx⟩
  | false => exact List.mem_flatten.2 ⟨page, List.mem_reverse.2 hpage, hx⟩

/-- What a promise brings, if it is a message. -/
def resolvedMessage (promise : Except JsError (Option T)) : Option T := promise.toOption.join

/-- The messages of a page without a rejection. -/
theorem processedMessages_eq {page : Page T} (h : ∀ promise ∈ page, ∃ result, promise = .ok result) :
    processedMessages page = some (page.filterMap resolvedMessage) := by
  have hall : ∃ results, promiseAll page = .ok results ∧ results.filterMap id = page.filterMap resolvedMessage := by
    induction page with
    | nil => exact ⟨[], rfl, rfl⟩
    | cons promise page ih =>
      obtain ⟨⟨result, rfl⟩, hrest⟩ := List.forall_mem_cons.1 h
      obtain ⟨results, hresults, hsame⟩ := ih hrest
      refine ⟨result :: results, ?_, ?_⟩
      · rw [promiseAll] at hresults
        simp [promiseAll, List.mapM_cons, hresults]
      · cases result with
        | none => exact hsame
        | some message => exact congrArg (message :: ·) hsame
  obtain ⟨results, hresults, hsame⟩ := hall
  rw [processedMessages, hresults, ← hsame]

end

/-! ## A query -/

/-- A callback that settles with nothing, message by message. -/
def neverStops {α : Type} (messages : List α) : Settlement messages.length where
  order := (List.range messages.length).map fun i => (i, .ok none)
  nodup := by
    rw [List.map_map]
    exact (List.map_id (List.range messages.length)).symm ▸ List.nodup_range
  bound := by simp

theorem quiet_neverStops {α : Type} (messages : List α) : (neverStops messages).Quiet := by
  refine ⟨by simp [neverStops], ?_, ?_⟩
  · rintro ⟨settlement, hmem, herror⟩
    obtain ⟨i, -, rfl⟩ := List.mem_map.1 hmem
    cases herror
  · rintro ⟨settlement, hmem, htrue⟩
    obtain ⟨i, -, rfl⟩ := List.mem_map.1 hmem
    cases htrue

/-- A version 0 decoder. -/
def sampleDecoder : IDecoder Version0.DecodedMessage :=
  ⟨"p", "c", fun pubsubTopic proto => .ok (Version0.Decoder.fromProtoObj pubsubTopic proto)⟩

/-- A query of the five messages that are stored, over the one locked connection. -/
def sampleGenerated : Query Version0.DecodedMessage :=
  queryGenerator ["p"] (fun _ => 0) [⟨0, "a", ["peer-manager-lock"]⟩] (fun _ => sampleNet) [sampleDecoder]
    QueryOptions.default 4

/-! ## Complete queries -/

section

variable {pubsubTopics : List String} {random : (n : ℕ) → Fin (n + 1)} {connections : List Connection}
  {decoders : List (IDecoder T)} {options : QueryOptions} {v : Validated T} {peer : PeerId}
  {content : List StoredMessage} {L : ℕ}

/-- **A callback gets every message that was asked for, once.** Let decoders pass the checks and always resolve, let the
options ask for no hashes, and let the chosen peer serve its messages by pages. A callback that is never rejected and
never asks to stop is then called, page by page, with what the decoders make of the stored messages past the cursor: in
the order of the store, or backward with the pages in reverse order. The promise callback is called with a promise for
each of these messages. -/
theorem callbacks_complete (nets : PeerId → Network)
    (hvalid : validateDecodersAndPubsubTopic pubsubTopics decoders = .ok v)
    (hne : "" ∉ pubsubTopics) (hresolves : ∀ dec ∈ decoders, ∀ p m, (dec.fromProtoObj p m).toBool = true)
    (hpeer : getPeerToUse random connections = some peer) (hoptions : options.IsFilter)
    (hserves : Serves (nets peer) content L) (hL : 1 ≤ L ∧ L ≤ MAX_PAGE_SIZE)
    (hnodup : (content.map StoredMessage.messageHash).Nodup)
    (hcursor : ∀ c, options.paginationCursor = some c → c ∈ content.map StoredMessage.messageHash) (fuel : ℕ)
    (hfuel : pageCount (past content (options.paginationForward.getD true) options.paginationCursor).length L + 1 ≤ fuel)
    {orderedCallback : ℕ → (messages : List T) → Settlement messages.length}
    {promiseCallback : ℕ → (promises : Page T) → Settlement promises.length}
    (hordered : ∀ page messages, (orderedCallback page messages).Quiet)
    (hpromise : ∀ page promises, (promiseCallback page promises).Quiet) :
    let query := queryGenerator pubsubTopics random connections nets decoders options fuel
    let rest := past content (options.paginationForward.getD true) options.paginationCursor
    query.ending = .returned ∧
      (∃ pages : List (List T), joined (options.paginationForward.getD true) pages = rest.filterMap (decoded decoders) ∧
        (queryWithOrderedCallback orderedCallback query.pages true).filterMap (called processedMessages query.pages) =
          pages.flatten) ∧
      ∃ pages : List (Page T),
        joined (options.paginationForward.getD true) pages = rest.map (fun m => .ok (decoded decoders m)) ∧
        (queryWithPromiseCallback promiseCallback query.pages true).filterMap (called some query.pages) =
          pages.flatten := by
  obtain ⟨-, htopic, -, hcontent⟩ := validated_spec hvalid
  obtain ⟨request, hcreate⟩ := hoptions.create (fun h => hne (h ▸ htopic)) ""
  have htopics : (queryOpts v options).contentTopics = some v.decodersAsMap.keys := by
    simp only [queryOpts, hoptions.contentTopics, Option.getD_none, hcontent]
  intro query rest
  have hquery : query = JsWaku.Store.queryLoop (nets peer) (queryOpts v options) v.decodersAsMap fuel 0
      options.paginationCursor := by
    simp only [query, queryGenerator, hvalid, hpeer, queryPerPage, htopics, ne_eq, not_true_eq_false, if_false]
    rfl
  obtain ⟨hending, -, hpages⟩ := queryLoop_serves hserves hL hnodup hcreate fuel 0 options.paginationCursor hcursor hfuel
  rw [← hquery] at hending hpages
  have hjoined : joined (options.paginationForward.getD true) query.pages =
      rest.map fun m => .ok (decoded decoders m) := by
    refine hpages.trans (List.map_congr_left fun m _ => ?_)
    exact decodeMessage_eq hvalid hresolves m
  -- No promise of a page is rejected, so that each page has its messages.
  have hok : ∀ page ∈ query.pages, ∀ promise ∈ page, ∃ result, promise = .ok result := by
    intro page hpage promise hmem
    have h := mem_joined (options.paginationForward.getD true) hpage hmem
    rw [hjoined] at h
    obtain ⟨m, -, rfl⟩ := List.mem_map.1 h
    exact ⟨_, rfl⟩
  refine ⟨hending, ⟨query.pages.map (List.filterMap resolvedMessage), ?_, ?_⟩, query.pages, hjoined, ?_⟩
  · rw [joined_map_filterMap, hjoined, List.filterMap_map]
    rfl
  · rw [queryWithOrderedCallback, called_queryLoop (fun page hpage => ⟨_, processedMessages_eq (hok page hpage)⟩) hordered 0
      List.drop_zero, ← List.flatMap_id', List.flatMap_map]
    refine List.flatMap_congr fun page hpage => ?_
    rw [processedMessages_eq (hok page hpage)]
    rfl
  · rw [queryWithPromiseCallback, called_queryLoop (fun page _ => ⟨page, rfl⟩) hpromise 0 List.drop_zero]
    exact List.flatMap_id'

end

/-- The callback is called for the five messages in order. -/
theorem callbacks_complete_sample :
    (queryWithOrderedCallback (fun _ => neverStops) sampleGenerated.pages true).filterMap
        (called processedMessages sampleGenerated.pages) = sampleContent.filterMap (decoded [sampleDecoder]) := by
  obtain ⟨v, hvalid⟩ := exists_of_toBool
    (show (validateDecodersAndPubsubTopic ["p"] [sampleDecoder]).toBool = true by decide)
  have hpeer : getPeerToUse (fun _ => 0) [⟨0, "a", ["peer-manager-lock"]⟩] = some "a" := by decide
  have hoptions : QueryOptions.default.IsFilter := ⟨rfl, rfl, rfl, nofun, nofun⟩
  have hresolves : ∀ dec ∈ [sampleDecoder], ∀ p m, (dec.fromProtoObj p m).toBool = true := by
    intro dec hdec p m
    cases List.mem_singleton.1 hdec
    rfl
  obtain ⟨-, ⟨pages, hjoined, hcalled⟩, -⟩ := callbacks_complete (fun _ => sampleNet) hvalid (by decide) hresolves hpeer
    hoptions sampleNet_serves (by decide) (by decide) nofun 4 (by decide) (fun _ => quiet_neverStops)
    fun _ => quiet_neverStops
  exact hcalled.trans hjoined

end JsWaku.Sdk.Store
