import JsWaku.Lib.Transition
import JsWaku.Runtime.Libp2p
import JsWaku.Runtime.Map
import JsWaku.Utils.ShardReencoding

/-!
# The metadata protocol

`Metadata` of `packages/core/src/lib/metadata/metadata.ts` as an event system: exchanges of shard infos, the node's own
(`query`) and those of other peers (`onRequest`), interleaved at every `await`. What a peer answers is saved twice
(`savePeerShardInfo`): encoded in the peer store, where the connection manager reads it (`getPeerShardInfo`), and after
the store's promise has resolved as it is in `handshakesConfirmed`, from which `confirmOrAttemptHandshake` answers.

A shard info that is being saved agrees with its encoding iff it is `Encodable`, and two that are saved for one peer
disagree for a while unless they are the same. `Fits` is the condition on a response that follows from this
(`agrees_iff_meets`).
-/

namespace JsWaku.Metadata

open Transition RelayShardCodec

/-! ## Data -/

/-- `WakuMetadataResponse`, which the code uses as a `ShardInfo`. -/
structure WakuMetadataResponse where
  clusterId : Option UInt32
  shards : List UInt32
  deriving DecidableEq

/-- The numbers that `encodeRelayShard` reads: `setUint16` takes `undefined` as 0. -/
def WakuMetadataResponse.toShardInfo (response : WakuMetadataResponse) : ShardInfo where
  clusterId := (response.clusterId.map UInt32.toNat).getD 0
  shards := response.shards.map UInt32.toNat

/-- `ProtocolError`, the members that `query` returns. -/
inductive ProtocolError
  | NO_PEER_AVAILABLE
  | NO_STREAM_AVAILABLE
  deriving DecidableEq

/-- `MetadataQueryResult`. -/
structure MetadataQueryResult where
  shardInfo : Option WakuMetadataResponse
  error : Option ProtocolError
  deriving DecidableEq

/-- The method that runs an exchange. -/
inductive Exchange
  | query
  | onRequest
  deriving DecidableEq

/-- An exchange suspended at an `await`. -/
inductive Task
  /-- Before the response is decoded. -/
  | exchanging (exchange : Exchange) (peerId : PeerId)
  /-- `savePeerShardInfo`, at `merge`; `bytes` is the encoding. -/
  | merging (exchange : Exchange) (peerId : PeerId) (shardInfo : WakuMetadataResponse) (bytes : Bytes)
  /-- `savePeerShardInfo`, once the peer store is written. -/
  | merged (exchange : Exchange) (peerId : PeerId) (shardInfo : WakuMetadataResponse)
  deriving DecidableEq

/-- The metadata `shardInfo` of the peer store, the field `handshakesConfirmed`, the exchanges in progress, and what the
queries have returned. -/
structure State where
  peerStore : Map PeerId Bytes
  handshakesConfirmed : Map PeerId WakuMetadataResponse
  tasks : List Task
  results : List (PeerId × Except JsError MetadataQueryResult)

/-- A new service, with the peer store as it is. -/
def init (peerStore : Map PeerId Bytes) : State :=
  { peerStore, handshakesConfirmed := Map.empty, tasks := [], results := [] }

/-! ## The code between awaits -/

namespace State

variable (s : State) (exchange : Exchange) (peerId : PeerId) (shardInfo : WakuMetadataResponse)

/-- Suspends an exchange. -/
def spawn (t : Task) : State := { s with tasks := s.tasks ++ [t] }

/-- Takes a suspended exchange up again. -/
def resume (t : Task) : Option State := (take t s.tasks).map fun tasks => { s with tasks }

/-- The end of an exchange: a query returns or rejects, `onRequest` only logs. -/
def settle (result : Except JsError MetadataQueryResult) : State :=
  match exchange with
  | .query => { s with results := s.results ++ [(peerId, result)] }
  | .onRequest => s

/-- `query` up to its first `await`. -/
def query : State := s.spawn (.exchanging .query peerId)

/-- `confirmOrAttemptHandshake`. -/
def confirmOrAttemptHandshake : State :=
  match s.handshakesConfirmed.get peerId with
  | some shardInfo => s.settle .query peerId (.ok { shardInfo := some shardInfo, error := none })
  | none => s.query peerId

/-- `savePeerShardInfo` up to its `await`, and the exchange with it: what the encoder throws ends it. -/
def savePeerShardInfo : State :=
  match encodeRelayShard shardInfo.toShardInfo with
  | .error e => s.settle exchange peerId (.error e)
  | .ok bytes => s.spawn (.merging exchange peerId shardInfo bytes)

/-- `merge` writes the peer store. -/
def merge (bytes : Bytes) : State :=
  spawn { s with peerStore := s.peerStore.set peerId bytes } (.merged exchange peerId shardInfo)

/-- `savePeerShardInfo` after its `await`. -/
def confirm : State :=
  settle { s with handshakesConfirmed := s.handshakesConfirmed.set peerId shardInfo } exchange peerId
    (.ok { shardInfo := some shardInfo, error := none })

/-- `getPeerShardInfo` of the connection manager. -/
def getPeerShardInfo : Option (Except JsError ShardInfo) := (s.peerStore.get peerId).map decodeRelayShard

end State

/-! ## Events -/

/-- How an exchange ends before a response is decoded. -/
inductive Failure
  | noPeer
  | noStream
  | rejected (error : JsError)

/-- What `query` makes of it. -/
def Failure.result : Failure → Except JsError MetadataQueryResult
  | noPeer => .ok { shardInfo := none, error := some .NO_PEER_AVAILABLE }
  | noStream => .ok { shardInfo := none, error := some .NO_STREAM_AVAILABLE }
  | rejected error => .error error

/-- A call, a request of a peer, or a resumption. -/
inductive Event
  | confirmOrAttemptHandshake (peerId : PeerId)
  | query (peerId : PeerId)
  /-- A peer has opened a stream. -/
  | requested (peerId : PeerId)
  | failed (exchange : Exchange) (peerId : PeerId) (failure : Failure)
  /-- A response has been decoded. -/
  | responded (exchange : Exchange) (peerId : PeerId) (response : WakuMetadataResponse)
  /-- The peer store is written. -/
  | merged (exchange : Exchange) (peerId : PeerId) (shardInfo : WakuMetadataResponse) (bytes : Bytes)
  | mergeFailed (exchange : Exchange) (peerId : PeerId) (shardInfo : WakuMetadataResponse) (bytes : Bytes)
    (error : JsError)
  /-- The promise of `merge` has resolved. -/
  | saved (exchange : Exchange) (peerId : PeerId) (shardInfo : WakuMetadataResponse)

/-- A step: the code an event runs, up to the next `await`. `none` where the event cannot happen. -/
def step (s : State) : Event → Option State
  | .confirmOrAttemptHandshake peerId => some (s.confirmOrAttemptHandshake peerId)
  | .query peerId => some (s.query peerId)
  | .requested peerId => some (s.spawn (.exchanging .onRequest peerId))
  | .failed exchange peerId failure =>
    (s.resume (.exchanging exchange peerId)).map fun s => s.settle exchange peerId failure.result
  | .responded exchange peerId response =>
    (s.resume (.exchanging exchange peerId)).map fun s => s.savePeerShardInfo exchange peerId response
  | .merged exchange peerId shardInfo bytes =>
    (s.resume (.merging exchange peerId shardInfo bytes)).map fun s => s.merge exchange peerId shardInfo bytes
  | .mergeFailed exchange peerId shardInfo bytes error =>
    (s.resume (.merging exchange peerId shardInfo bytes)).map fun s => s.settle exchange peerId (.error error)
  | .saved exchange peerId shardInfo =>
    (s.resume (.merged exchange peerId shardInfo)).map fun s => s.confirm exchange peerId shardInfo

/-! ## Agreement -/

/-- Where `confirmOrAttemptHandshake` answers without a query, the peer store holds the same cluster and set of shards. -/
def State.Agrees (s : State) : Prop :=
  ∀ peerId shardInfo, s.handshakesConfirmed.get peerId = some shardInfo →
    ∃ info, s.getPeerShardInfo peerId = some (.ok info) ∧ info.Same shardInfo.toShardInfo

/-- A response comes in. -/
def Event.IsResponse : Event → Prop
  | responded _ _ _ => True
  | _ => False

/-- The records agree, and go on to do so until another response comes in. -/
def State.Safe (s : State) : Prop :=
  ∀ es t, (∀ e ∈ es, ¬e.IsResponse) → run step s es = some t → t.Agrees

/-- The shard info is saved for the peer, or on its way. -/
inductive State.Holds (s : State) (peerId : PeerId) (shardInfo : WakuMetadataResponse) : Prop
  | confirmed (h : s.handshakesConfirmed.get peerId = some shardInfo)
  | merging {exchange : Exchange} {bytes : Bytes} (h : .merging exchange peerId shardInfo bytes ∈ s.tasks)
  | merged {exchange : Exchange} (h : .merged exchange peerId shardInfo ∈ s.tasks)

/-- There are 64 or more indices, one of them 1024 or more. -/
def Refused (response : WakuMetadataResponse) : Prop :=
  64 ≤ response.shards.length ∧ ∃ i ∈ response.shards, 1024 ≤ i.toNat

/-- A response that is saved has numbers that its encoding holds, and is the same as all others of its peer. -/
def Fits (s : State) : Event → Prop
  | .responded _ peerId response =>
    Refused response ∨ Encodable response.toShardInfo ∧
      ∀ shardInfo, s.Holds peerId shardInfo → shardInfo.toShardInfo.Same response.toShardInfo
  | _ => True

/-! ## What is saved -/

section

variable {s s' : State} {e : Event} {exchange : Exchange} {peerId : PeerId} {shardInfo : WakuMetadataResponse}
  {bytes : Bytes}

@[simp] theorem peerStore_settle (s : State) (exchange : Exchange) (peerId : PeerId)
    (result : Except JsError MetadataQueryResult) : (s.settle exchange peerId result).peerStore = s.peerStore := by
  cases exchange <;> rfl

@[simp] theorem handshakesConfirmed_settle (s : State) (exchange : Exchange) (peerId : PeerId)
    (result : Except JsError MetadataQueryResult) :
    (s.settle exchange peerId result).handshakesConfirmed = s.handshakesConfirmed := by
  cases exchange <;> rfl

@[simp] theorem tasks_settle (s : State) (exchange : Exchange) (peerId : PeerId)
    (result : Except JsError MetadataQueryResult) : (s.settle exchange peerId result).tasks = s.tasks := by
  cases exchange <;> rfl

/-- The responses that the encoder throws for. -/
theorem refused_iff (response : WakuMetadataResponse) :
    Refused response ↔ ¬∃ bytes, encodeRelayShard response.toShardInfo = .ok bytes := by
  rw [encodeRelayShard_ok_iff]
  simp [Refused, WakuMetadataResponse.toShardInfo]

/-- The encoding of a shard info, read from the store. -/
theorem decode_same_iff (h : encodeRelayShard shardInfo.toShardInfo = .ok bytes) {info : ShardInfo}
    (hinfo : decodeRelayShard bytes = .ok info) : info.Same shardInfo.toShardInfo ↔ Encodable shardInfo.toShardInfo := by
  rw [decodeRelayShard_of_encode h] at hinfo
  cases hinfo
  exact same_kept_iff ((encodeRelayShard_ok_iff _).1 ⟨bytes, h⟩)

/-- The invariant: whatever is saved for a peer, or on its way, is the same, and the store has it once it is written. -/
structure State.Consistent (s : State) : Prop where
  written : ∀ peerId shardInfo,
    (s.handshakesConfirmed.get peerId = some shardInfo ∨ ∃ exchange, .merged exchange peerId shardInfo ∈ s.tasks) →
      ∃ info, s.getPeerShardInfo peerId = some (.ok info) ∧ info.Same shardInfo.toShardInfo
  encoded : ∀ exchange peerId shardInfo bytes, .merging exchange peerId shardInfo bytes ∈ s.tasks →
    encodeRelayShard shardInfo.toShardInfo = .ok bytes ∧ Encodable shardInfo.toShardInfo
  same : ∀ peerId a b, s.Holds peerId a → s.Holds peerId b → a.toShardInfo.Same b.toShardInfo

namespace State.Consistent

/-- Fewer exchanges in progress, and exchanges without a response. -/
theorem of_tasks (hs : s.Consistent) (hstore : s'.peerStore = s.peerStore)
    (hconfirmed : s'.handshakesConfirmed = s.handshakesConfirmed)
    (htasks : ∀ t ∈ s'.tasks, t ∈ s.tasks ∨ ∃ exchange peerId, t = .exchanging exchange peerId) : s'.Consistent := by
  have hmerging : ∀ {exchange peerId shardInfo bytes}, .merging exchange peerId shardInfo bytes ∈ s'.tasks →
      .merging exchange peerId shardInfo bytes ∈ s.tasks :=
    fun h => (htasks _ h).resolve_right (by rintro ⟨_, _, ⟨⟩⟩)
  have hmerged : ∀ {exchange peerId shardInfo}, .merged exchange peerId shardInfo ∈ s'.tasks →
      .merged exchange peerId shardInfo ∈ s.tasks :=
    fun h => (htasks _ h).resolve_right (by rintro ⟨_, _, ⟨⟩⟩)
  have hholds : ∀ {peerId shardInfo}, s'.Holds peerId shardInfo → s.Holds peerId shardInfo := by
    rintro peerId shardInfo (h | h | h)
    · exact .confirmed (hconfirmed ▸ h)
    · exact .merging (hmerging h)
    · exact .merged (hmerged h)
  refine ⟨fun peerId shardInfo h => ?_, fun _ _ _ _ h => hs.encoded _ _ _ _ (hmerging h), fun peerId a b ha hb => ?_⟩
  · rw [State.getPeerShardInfo, hstore]
    refine hs.written peerId shardInfo ?_
    rcases h with h | ⟨exchange, h⟩
    · exact .inl (hconfirmed ▸ h)
    · exact .inr ⟨exchange, hmerged h⟩
  · exact hs.same peerId a b (hholds ha) (hholds hb)

theorem init (peerStore : Map PeerId Bytes) : (init peerStore).Consistent := by
  refine ⟨fun peerId shardInfo h => ?_, fun _ _ _ _ h => (List.not_mem_nil h).elim, fun peerId a b ha _ => ?_⟩
  · rcases h with h | ⟨exchange, h⟩
    · cases h
    · exact (List.not_mem_nil h).elim
  · rcases ha with h | h | h
    · cases h
    · exact (List.not_mem_nil h).elim
    · exact (List.not_mem_nil h).elim

theorem agrees (hs : s.Consistent) : s.Agrees := fun peerId shardInfo h => hs.written peerId shardInfo (.inl h)

theorem spawn (hs : s.Consistent) (exchange : Exchange) (peerId : PeerId) :
    (s.spawn (.exchanging exchange peerId)).Consistent := by
  refine hs.of_tasks rfl rfl fun t ht => ?_
  rcases List.mem_append.1 ht with ht | ht
  · exact .inl ht
  · exact .inr ⟨exchange, peerId, List.mem_singleton.1 ht⟩

theorem settle (hs : s.Consistent) (exchange : Exchange) (peerId : PeerId)
    (result : Except JsError MetadataQueryResult) : (s.settle exchange peerId result).Consistent :=
  hs.of_tasks (peerStore_settle ..) (handshakesConfirmed_settle ..) fun _ ht => .inl (tasks_settle s .. ▸ ht)

theorem resume (hs : s.Consistent) {t : Task} (h : s.resume t = some s') : s'.Consistent := by
  obtain ⟨tasks, htake, rfl⟩ := Option.map_eq_some_iff.1 h
  exact hs.of_tasks rfl rfl fun u hu => .inl (mem_of_take htake hu)

/-- A response that fits is saved. -/
theorem savePeerShardInfo (hs : s.Consistent) (hencodable : ∀ bytes, encodeRelayShard shardInfo.toShardInfo = .ok bytes →
      Encodable shardInfo.toShardInfo ∧ ∀ a, s.Holds peerId a → a.toShardInfo.Same shardInfo.toShardInfo) :
    (s.savePeerShardInfo exchange peerId shardInfo).Consistent := by
  rw [State.savePeerShardInfo]
  split
  next => exact hs.settle ..
  next bytes hencode =>
    obtain ⟨hfits, hsame⟩ := hencodable bytes hencode
    have hholds : ∀ {peerId' a}, (s.spawn (.merging exchange peerId shardInfo bytes)).Holds peerId' a →
        s.Holds peerId' a ∨ peerId' = peerId ∧ a = shardInfo := by
      rintro peerId' a (h | h | h)
      · exact .inl (.confirmed h)
      · rcases List.mem_append.1 h with h | h
        · exact .inl (.merging h)
        · cases List.mem_singleton.1 h
          exact .inr ⟨rfl, rfl⟩
      · rcases List.mem_append.1 h with h | h
        · exact .inl (.merged h)
        · cases List.mem_singleton.1 h
    refine ⟨fun peerId' a h => ?_, fun exchange' peerId' a bytes' h => ?_, fun peerId' a b ha hb => ?_⟩
    · refine hs.written peerId' a ?_
      rcases h with h | ⟨exchange', h⟩
      · exact .inl h
      · rcases List.mem_append.1 h with h | h
        · exact .inr ⟨exchange', h⟩
        · cases List.mem_singleton.1 h
    · rcases List.mem_append.1 h with h | h
      · exact hs.encoded _ _ _ _ h
      · cases List.mem_singleton.1 h
        exact ⟨hencode, hfits⟩
    · rcases hholds ha with ha' | ⟨rfl, rfl⟩
      · rcases hholds hb with hb' | ⟨rfl, rfl⟩
        · exact hs.same peerId' a b ha' hb'
        · exact hsame a ha'
      · rcases hholds hb with hb' | ⟨-, rfl⟩
        · exact (hsame b hb').symm
        · exact ⟨rfl, fun _ => Iff.rfl⟩

/-- The store is written. -/
theorem merge (hs : s.Consistent) (h : s.resume (.merging exchange peerId shardInfo bytes) = some s') :
    (s'.merge exchange peerId shardInfo bytes).Consistent := by
  obtain ⟨tasks, htake, rfl⟩ := Option.map_eq_some_iff.1 h
  have hmem : .merging exchange peerId shardInfo bytes ∈ s.tasks := (take_eq_some.1 htake).1
  obtain ⟨hencode, hencodable⟩ := hs.encoded _ _ _ _ hmem
  have hholds : ∀ {peerId' a}, (State.merge { s with tasks } exchange peerId shardInfo bytes).Holds peerId' a →
      s.Holds peerId' a := by
    rintro peerId' a (h | h | h)
    · exact .confirmed h
    · rcases List.mem_append.1 h with h | h
      · exact .merging (mem_of_take htake h)
      · cases List.mem_singleton.1 h
    · rcases List.mem_append.1 h with h | h
      · exact .merged (mem_of_take htake h)
      · cases List.mem_singleton.1 h
        exact .merging hmem
  refine ⟨fun peerId' a h => ?_, fun exchange' peerId' a bytes' h => ?_, fun peerId' a b ha hb => ?_⟩
  · by_cases hpeer : peerId' = peerId
    · subst hpeer
      have ha : s.Holds peerId' a := hholds (h.elim .confirmed fun ⟨_, h⟩ => .merged h)
      have hkept : (kept shardInfo.toShardInfo).Same shardInfo.toShardInfo :=
        (decode_same_iff hencode (decodeRelayShard_of_encode hencode)).2 hencodable
      refine ⟨kept shardInfo.toShardInfo, ?_, hkept.trans (hs.same peerId' shardInfo a (.merging hmem) ha)⟩
      rw [State.getPeerShardInfo, State.merge, State.spawn, Map.get_set_self, Option.map_some,
        decodeRelayShard_of_encode hencode]
    · rw [State.getPeerShardInfo, State.merge, State.spawn, Map.get_set_ne _ _ hpeer]
      refine hs.written peerId' a ?_
      rcases h with h | ⟨exchange', h⟩
      · exact .inl h
      · rcases List.mem_append.1 h with h | h
        · exact .inr ⟨exchange', mem_of_take htake h⟩
        · cases List.mem_singleton.1 h
          exact absurd rfl hpeer
  · rcases List.mem_append.1 h with h | h
    · exact hs.encoded _ _ _ _ (mem_of_take htake h)
    · cases List.mem_singleton.1 h
  · exact hs.same peerId' a b (hholds ha) (hholds hb)

/-- The answer is recorded. -/
theorem confirm (hs : s.Consistent) (h : s.resume (.merged exchange peerId shardInfo) = some s') :
    (s'.confirm exchange peerId shardInfo).Consistent := by
  obtain ⟨tasks, htake, rfl⟩ := Option.map_eq_some_iff.1 h
  have hmem : .merged exchange peerId shardInfo ∈ s.tasks := (take_eq_some.1 htake).1
  refine State.Consistent.settle ?_ exchange peerId _
  have hconfirmed : ∀ {peerId' a}, (s.handshakesConfirmed.set peerId shardInfo).get peerId' = some a →
      s.handshakesConfirmed.get peerId' = some a ∨ .merged exchange peerId' a ∈ s.tasks := by
    intro peerId' a h
    by_cases hpeer : peerId' = peerId
    · rw [hpeer, Map.get_set_self, Option.some.injEq] at h
      exact .inr (hpeer ▸ h ▸ hmem)
    · exact .inl (Map.get_set_ne s.handshakesConfirmed shardInfo hpeer ▸ h)
  have hholds : ∀ {peerId' a}, State.Holds { s with
      tasks, handshakesConfirmed := s.handshakesConfirmed.set peerId shardInfo } peerId' a → s.Holds peerId' a := by
    rintro peerId' a (h | h | h)
    · exact (hconfirmed h).elim .confirmed .merged
    · exact .merging (mem_of_take htake h)
    · exact .merged (mem_of_take htake h)
  refine ⟨fun peerId' a h => hs.written peerId' a ?_, fun _ _ _ _ h => hs.encoded _ _ _ _ (mem_of_take htake h),
    fun peerId' a b ha hb => hs.same peerId' a b (hholds ha) (hholds hb)⟩
  rcases h with h | ⟨exchange', h⟩
  · exact (hconfirmed h).imp id fun h => ⟨exchange, h⟩
  · exact .inr ⟨exchange', mem_of_take htake h⟩

end State.Consistent

/-- A response that fits and is encoded. -/
theorem encodable_of_fits {response : WakuMetadataResponse} (hfits : Fits s (.responded exchange peerId response))
    (hencode : encodeRelayShard response.toShardInfo = .ok bytes) :
    Encodable response.toShardInfo ∧ ∀ a, s.Holds peerId a → a.toShardInfo.Same response.toShardInfo :=
  hfits.resolve_left fun hrefused => (refused_iff response).1 hrefused ⟨bytes, hencode⟩

theorem consistent_step (hs : s.Consistent) (hfits : Fits s e) (h : step s e = some s') : s'.Consistent := by
  cases e with
  | confirmOrAttemptHandshake peerId =>
    cases h
    unfold State.confirmOrAttemptHandshake
    split
    · exact hs.settle ..
    · exact hs.spawn ..
  | query peerId | requested peerId =>
    cases h
    exact hs.spawn ..
  | failed exchange peerId failure =>
    obtain ⟨s₀, hs₀, rfl⟩ := Option.map_eq_some_iff.1 h
    exact (hs.resume hs₀).settle ..
  | responded exchange peerId response =>
    obtain ⟨s₀, hs₀, rfl⟩ := Option.map_eq_some_iff.1 h
    refine (hs.resume hs₀).savePeerShardInfo fun bytes hencode => ?_
    obtain ⟨hencodable, hsame⟩ := encodable_of_fits hfits hencode
    refine ⟨hencodable, fun a ha => hsame a ?_⟩
    obtain ⟨tasks, htake, rfl⟩ := Option.map_eq_some_iff.1 hs₀
    rcases ha with h | h | h
    · exact .confirmed h
    · exact .merging (mem_of_take htake h)
    · exact .merged (mem_of_take htake h)
  | merged exchange peerId shardInfo bytes =>
    obtain ⟨s₀, hs₀, rfl⟩ := Option.map_eq_some_iff.1 h
    exact hs.merge hs₀
  | mergeFailed exchange peerId shardInfo bytes error =>
    obtain ⟨s₀, hs₀, rfl⟩ := Option.map_eq_some_iff.1 h
    exact (hs.resume hs₀).settle ..
  | saved exchange peerId shardInfo =>
    obtain ⟨s₀, hs₀, rfl⟩ := Option.map_eq_some_iff.1 h
    exact hs.confirm hs₀

/-- Events other than responses fit. -/
theorem fits_of_not_isResponse (h : ¬e.IsResponse) : Fits s e := by
  cases e with
  | responded => exact absurd trivial h
  | _ => trivial

theorem safe_of_consistent (hs : s.Consistent) : s.Safe := by
  intro es t hes hrun
  refine (run_invariant_of_events ?_ es hs hes hrun).agrees
  exact fun s e s' hs hquiet h => consistent_step hs (fits_of_not_isResponse hquiet) h

/-! ## What does not fit -/

theorem State.Safe.agrees (hs : s.Safe) : s.Agrees := hs [] s (fun _ h => (List.not_mem_nil h).elim) rfl

theorem State.Safe.step (hs : s.Safe) (h : step s e = some s') (he : ¬e.IsResponse) : s'.Safe :=
  fun es t hes hrun => hs (e :: es) t (List.forall_mem_cons.2 ⟨he, hes⟩) (run_cons.2 ⟨s', h, hrun⟩)

theorem resume_of_mem {t : Task} (h : t ∈ s.tasks) : s.resume t = some { s with tasks := s.tasks.erase t } := by
  rw [State.resume, take_eq_some.2 ⟨h, rfl⟩]
  rfl

/-- A shard info that is being saved can be written. -/
theorem exists_merged (h : .merging exchange peerId shardInfo bytes ∈ s.tasks) :
    ∃ s', step s (.merged exchange peerId shardInfo bytes) = some s' ∧ s'.peerStore.get peerId = some bytes ∧
      s'.handshakesConfirmed = s.handshakesConfirmed ∧ .merged exchange peerId shardInfo ∈ s'.tasks ∧
        ∀ t ∈ s.tasks, t ≠ .merging exchange peerId shardInfo bytes → t ∈ s'.tasks := by
  refine ⟨State.merge { s with tasks := s.tasks.erase (.merging exchange peerId shardInfo bytes) } exchange peerId
    shardInfo bytes, ?_, Map.get_set_self _ _ _, rfl, List.mem_append_right _ ?_, fun t ht hne => ?_⟩
  · rw [step, resume_of_mem h, Option.map_some]
  · exact List.mem_singleton_self _
  · exact List.mem_append_left _ ((List.mem_erase_of_ne hne).2 ht)

/-- A shard info that is written can be recorded. -/
theorem exists_saved (h : .merged exchange peerId shardInfo ∈ s.tasks) :
    ∃ s', step s (.saved exchange peerId shardInfo) = some s' ∧ s'.peerStore = s.peerStore ∧
      s'.handshakesConfirmed.get peerId = some shardInfo ∧
        ∀ t ∈ s.tasks, t ≠ .merged exchange peerId shardInfo → t ∈ s'.tasks := by
  refine ⟨State.confirm { s with tasks := s.tasks.erase (.merged exchange peerId shardInfo) } exchange peerId shardInfo,
    ?_, peerStore_settle .., ?_, fun t ht hne => ?_⟩
  · rw [step, resume_of_mem h, Option.map_some]
  · rw [State.confirm, handshakesConfirmed_settle, Map.get_set_self]
  · rw [State.confirm, tasks_settle]
    exact (List.mem_erase_of_ne hne).2 ht

/-- The store holds the encoding of a shard info: the answer is the same if the state agrees. -/
theorem same_of_agrees {a : WakuMetadataResponse} (hs : s.Agrees) (hstore : s.peerStore.get peerId = some bytes)
    (hconfirmed : s.handshakesConfirmed.get peerId = some a) :
    ∃ info, decodeRelayShard bytes = .ok info ∧ info.Same a.toShardInfo := by
  obtain ⟨info, hinfo, hsame⟩ := hs peerId a hconfirmed
  rw [State.getPeerShardInfo, hstore, Option.map_some, Option.some.injEq] at hinfo
  exact ⟨info, hinfo, hsame⟩

/-- A shard info that is saved while the records are to agree has numbers that its encoding holds. -/
theorem encodable_of_safe (hs : s.Safe) (hencode : encodeRelayShard shardInfo.toShardInfo = .ok bytes)
    (hmem : .merging exchange peerId shardInfo bytes ∈ s.tasks) : Encodable shardInfo.toShardInfo := by
  obtain ⟨s₁, h₁, hstore, -, hmerged, -⟩ := exists_merged hmem
  obtain ⟨s₂, h₂, hstore', hconfirmed, -⟩ := exists_saved hmerged
  have hs₂ : s₂.Safe := (hs.step h₁ not_false).step h₂ not_false
  obtain ⟨info, hinfo, hsame⟩ := same_of_agrees hs₂.agrees (hstore'.symm ▸ hstore) hconfirmed
  exact (decode_same_iff hencode hinfo).1 hsame

/-- It is the same as every other one of its peer: the other is recorded first, and then this one is written. -/
theorem same_of_safe (hs : s.Safe) (hencode : encodeRelayShard shardInfo.toShardInfo = .ok bytes)
    (hmem : .merging exchange peerId shardInfo bytes ∈ s.tasks) {a : WakuMetadataResponse} (ha : s.Holds peerId a) :
    a.toShardInfo.Same shardInfo.toShardInfo := by
  have hrecorded : ∀ {t : State}, t.Safe → .merging exchange peerId shardInfo bytes ∈ t.tasks →
      t.handshakesConfirmed.get peerId = some a → a.toShardInfo.Same shardInfo.toShardInfo := by
    intro t ht hmem hconfirmed
    obtain ⟨t₁, h₁, hstore, hconfirmed', -⟩ := exists_merged hmem
    obtain ⟨info, hinfo, hsame⟩ := same_of_agrees (ht.step h₁ not_false).agrees hstore (hconfirmed' ▸ hconfirmed)
    exact hsame.symm.trans ((decode_same_iff hencode hinfo).2 (encodable_of_safe ht hencode hmem))
  by_cases heq : a = shardInfo
  · exact heq ▸ ⟨rfl, fun _ => Iff.rfl⟩
  · rcases ha with h | h | h
    · exact hrecorded hs hmem h
    · obtain ⟨s₁, h₁, -, -, hmerged, hothers⟩ := exists_merged h
      obtain ⟨s₂, h₂, -, hconfirmed, hothers'⟩ := exists_saved hmerged
      refine hrecorded ((hs.step h₁ not_false).step h₂ not_false) (hothers' _ (hothers _ hmem ?_) nofun) hconfirmed
      rintro ⟨⟩
      exact heq rfl
    · obtain ⟨s₁, h₁, -, hconfirmed, hothers⟩ := exists_saved h
      exact hrecorded (hs.step h₁ not_false) (hothers _ hmem nofun) hconfirmed

/-- A response after which the records agree fits. -/
theorem fits_of_safe (h : step s e = some s') (hsafe : s'.Safe) : Fits s e := by
  cases e with
  | responded exchange peerId response =>
    obtain ⟨s₀, hs₀, rfl⟩ := Option.map_eq_some_iff.1 h
    by_cases hrefused : Refused response
    · exact .inl hrefused
    · obtain ⟨bytes, hencode⟩ := not_not.1 (mt (refused_iff response).2 hrefused)
      rw [State.savePeerShardInfo, hencode] at hsafe
      have hmem : .merging exchange peerId response bytes ∈ (s₀.spawn (.merging exchange peerId response bytes)).tasks :=
        List.mem_append_right _ (List.mem_singleton_self _)
      refine .inr ⟨encodable_of_safe hsafe hencode hmem, fun a ha => same_of_safe hsafe hencode hmem ?_⟩
      obtain ⟨tasks, htake, rfl⟩ := Option.map_eq_some_iff.1 hs₀
      obtain ⟨-, rfl⟩ := take_eq_some.1 htake
      have hothers : ∀ t ∈ s.tasks, t ≠ .exchanging exchange peerId →
          t ∈ s.tasks.erase (.exchanging exchange peerId) ++ [.merging exchange peerId response bytes] :=
        fun t ht hne => List.mem_append_left _ ((List.mem_erase_of_ne hne).2 ht)
      rcases ha with h | h | h
      · exact .confirmed h
      · exact .merging (hothers _ h nofun)
      · exact .merged (hothers _ h nofun)
  | _ => trivial

/-- **The two records of a peer's shards.** In every state of a run the records agree, and go on to do so however the
exchanges in progress end, iff every response of the run fits. -/
theorem safe_iff_meets (peerStore : Map PeerId Bytes) (es : List Event) {t : State}
    (hrun : run step (init peerStore) es = some t) :
    (∀ es₁ es₂ u, es = es₁ ++ es₂ → run step (init peerStore) es₁ = some u → u.Safe) ↔
      Meets step Fits (init peerStore) es := by
  refine holds_iff_meets (K := State.Consistent) (fun s e s' hs _ h => ⟨⟨fits_of_safe h, fun hfits => ?_⟩, ?_⟩) es
    (.init peerStore) (safe_of_consistent (.init peerStore)) hrun
  · exact safe_of_consistent (consistent_step hs hfits h)
  · exact fun hfits => consistent_step hs hfits h

end

/-! ## Two runs -/

/-- A peer answers twice, the second time with its shards in another order and the default cluster written out. -/
def sameTwice : List Event :=
  [.query "a", .requested "a", .responded .query "a" ⟨none, [1, 2]⟩, .responded .onRequest "a" ⟨some 0, [2, 1]⟩]

/-- A peer of cluster 65537 is asked. -/
def truncated : List Event :=
  [.confirmOrAttemptHandshake "a", .responded .query "a" ⟨some 65537, [0]⟩,
    .merged .query "a" ⟨some 65537, [0]⟩ [0, 1, 1, 0, 0], .saved .query "a" ⟨some 65537, [0]⟩]

/-- The two answers are the same, and the records agree throughout. -/
theorem safe_iff_meets_sameTwice :
    ∃ t, run step (init Map.empty) sameTwice = some t ∧
      ∀ es₁ es₂ u, sameTwice = es₁ ++ es₂ → run step (init Map.empty) es₁ = some u → u.Safe := by
  have hrun : (run step (init Map.empty) sameTwice).isSome = true := by decide +kernel
  obtain ⟨t, ht⟩ := Option.isSome_iff_exists.1 hrun
  have hmeets : Meets step Fits (init Map.empty) sameTwice := by
    have hfirst : RelayShardCodec.Encodable (WakuMetadataResponse.toShardInfo ⟨none, [1, 2]⟩) := by
      unfold RelayShardCodec.Encodable
      decide
    have hsecond : RelayShardCodec.Encodable (WakuMetadataResponse.toShardInfo ⟨some 0, [2, 1]⟩) := by
      unfold RelayShardCodec.Encodable
      decide
    refine ⟨trivial, fun s₁ h₁ => ⟨trivial, fun s₂ h₂ => ⟨.inr ⟨hfirst, ?_⟩, fun s₃ h₃ =>
      ⟨.inr ⟨hsecond, ?_⟩, fun _ _ => trivial⟩⟩⟩⟩
    · cases h₁
      cases h₂
      rintro a (h | h | h)
      · cases h
      · simp [init, State.query, State.spawn] at h
      · simp [init, State.query, State.spawn] at h
    · have hthree : ∀ s ∈ run step (init Map.empty) (sameTwice.take 3), s.handshakesConfirmed.get "a" = none ∧
          s.tasks = [.exchanging .onRequest "a", .merging .query "a" ⟨none, [1, 2]⟩ [0, 0, 2, 0, 1, 0, 2]] := by
        decide +kernel
      obtain ⟨hconfirmed, htasks⟩ := hthree s₃ (by simp [sameTwice, run, h₁, h₂, h₃])
      have hsame : ShardInfo.Same ⟨0, [1, 2]⟩ ⟨0, [2, 1]⟩ := ⟨rfl, fun i => List.Perm.mem_iff (List.Perm.swap 2 1 [])⟩
      rintro a (h | h | h)
      · cases hconfirmed.symm.trans h
      · rw [htasks] at h
        simp only [List.mem_cons, reduceCtorEq, false_or, List.not_mem_nil, or_false, Task.merging.injEq] at h
        exact h.2.2.1 ▸ hsame
      · rw [htasks] at h
        simp at h
  exact ⟨t, ht, (safe_iff_meets Map.empty sameTwice ht).2 hmeets⟩

/-- The store has cluster 1 for the peer, and the recorded answer 65537. -/
theorem not_agrees_truncated :
    ¬∀ (peerStore : Map PeerId Bytes) (es : List Event) (t : State),
      run step (init peerStore) es = some t → t.Agrees := by
  intro h
  have hrun : (run step (init Map.empty) truncated).isSome = true := by decide +kernel
  obtain ⟨t, ht⟩ := Option.isSome_iff_exists.1 hrun
  have hend : ∀ t ∈ run step (init Map.empty) truncated,
      t.handshakesConfirmed.get "a" = some ⟨some 65537, [0]⟩ ∧ t.getPeerShardInfo "a" = some (.ok ⟨1, [0]⟩) := by
    decide +kernel
  obtain ⟨hconfirmed, hstored⟩ := hend t ht
  obtain ⟨info, hinfo, hsame⟩ := h Map.empty truncated t ht "a" _ hconfirmed
  rw [hstored] at hinfo
  cases hinfo
  exact absurd hsame.1 (by decide)

end JsWaku.Metadata
