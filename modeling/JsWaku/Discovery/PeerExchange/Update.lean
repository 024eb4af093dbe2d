import JsWaku.Discovery.PeerExchange.Query
import JsWaku.Utils.ShardReencoding

/-!
# Peer-store updates

What `query` of `PeerExchangeDiscovery` leaves in the peer store for one record: its program, run against a store that
answers every call (`answer`). `checkPeerInfoDiff` looks for what is stored and no longer received, not for what is new,
and what is found to differ is written while the rest of the record is skipped. The store ends up with the multiaddrs and
the shard info of the record if and only if nothing skipped is new (`upToDate_processRecord`).
-/

namespace JsWaku.PeerExchange

open Async RelayShardCodec Endian

/-! ## The peer store -/

/-- A peer store. -/
abbrev Store := Map PeerId Peer

/-- A peer with nothing known of it. -/
def Peer.unknown : Peer := ⟨[], Map.empty, Map.empty⟩

/-- Sets the given keys of metadata. -/
def mergeMetadata (metadata given : Map String Bytes) : Map String Bytes :=
  given.entries.foldl (fun metadata entry => metadata.set entry.1 entry.2) metadata

/-- A store that answers: `save` replaces all that is known of a peer, `patch` the fields that it is given, `merge` the
metadata keys. There is nobody to answer a request. -/
def answer : (c : Call) → Store → Except JsError c.Result × Store
  | .get peerId, store =>
    match store.get peerId with
    | some peer => (.ok (some peer), store)
    | none => (.error (.error "NotFound"), store)
  | .has peerId, store => (.ok (store.has peerId), store)
  | .patch peerId multiaddrs, store =>
    let peer := (store.get peerId).getD .unknown
    (.ok (), store.set peerId { peer with addresses := multiaddrs })
  | .merge peerId metadata, store =>
    let peer := (store.get peerId).getD .unknown
    (.ok (), store.set peerId { peer with metadata := mergeMetadata peer.metadata metadata })
  | .save peerId data, store =>
    (.ok (), store.set peerId
      { addresses := data.multiaddrs
        metadata := data.metadata.getD Map.empty
        tags := Map.empty.set data.tag.name data.tag })
  | .getStream _, store | .exchange _ _, store | .decode _, store => (.error (.error "unreachable"), store)

/-! ## What is stored and what is received -/

/-- The shard info in the metadata of a peer, if it can be decoded. -/
def Peer.storedShardInfo (peer : Peer) : Option ShardInfo :=
  (peer.metadata.get "shardInfo").bind fun bytes => (decodeRelayShard bytes).toOption

/-- The stored shard info of a peer, if there is one, can be decoded. -/
def Peer.ValidShardInfo (peer : Peer) : Prop :=
  ∀ bytes, peer.metadata.get "shardInfo" = some bytes → ∃ T, decodeRelayShard bytes = .ok T

/-- A stored multiaddr was not received. -/
def Peer.MultiaddrDiff (peer : Peer) (multiaddrs : List Multiaddr) : Prop := ∃ ma ∈ peer.addresses, ma ∉ multiaddrs

/-- The stored shard info has another cluster, or a shard that was not received. -/
def Peer.ShardDiff (peer : Peer) (S : ShardInfo) : Prop :=
  ∃ T, peer.storedShardInfo = some T ∧ (T.clusterId ≠ S.clusterId ∨ ∃ i ∈ T.shards, i ∉ S.shards)

/-- Where one difference is found and not the other, nothing new is received of the other. -/
def Peer.NothingSkipped (peer : Peer) (multiaddrs : List Multiaddr) (S : ShardInfo) : Prop :=
  (peer.MultiaddrDiff multiaddrs →
    peer.ShardDiff S ∨ ∃ T, peer.storedShardInfo = some T ∧ ∀ i ∈ S.shards, i ∈ T.shards) ∧
  (peer.ShardDiff S → peer.MultiaddrDiff multiaddrs ∨ ∀ ma ∈ multiaddrs, ma ∈ peer.addresses)

/-- The peer has these multiaddrs, as a set. -/
def Peer.HasMultiaddrs (peer : Peer) (multiaddrs : List Multiaddr) : Prop := ∀ ma, ma ∈ peer.addresses ↔ ma ∈ multiaddrs

/-- The peer has this shard info, with its shards as a set. -/
def Peer.HasShardInfo (peer : Peer) (S : ShardInfo) : Prop :=
  ∃ T, peer.storedShardInfo = some T ∧ T.clusterId = S.clusterId ∧ ∀ i, i ∈ T.shards ↔ i ∈ S.shards

/-- The store has the peer with these multiaddrs and this shard info. -/
def Store.UpToDate (store : Store) (peerId : PeerId) (multiaddrs : List Multiaddr) (S : ShardInfo) : Prop :=
  ∃ peer, store.get peerId = some peer ∧ peer.HasMultiaddrs multiaddrs ∧ peer.HasShardInfo S

/-- Where no multiaddr was lost, the peer has those received if it has each of them. -/
theorem hasMultiaddrs_iff {peer : Peer} {multiaddrs : List Multiaddr} (h : ¬peer.MultiaddrDiff multiaddrs) :
    peer.HasMultiaddrs multiaddrs ↔ ∀ ma ∈ multiaddrs, ma ∈ peer.addresses := by
  refine ⟨fun hhas ma hma => (hhas ma).2 hma, fun hall ma => ⟨fun hma => ?_, hall ma⟩⟩
  by_contra hnot
  exact h ⟨ma, hma, hnot⟩

/-- Where no shard was lost, the peer has the shard info received if it has one with each of its shards. -/
theorem hasShardInfo_iff {peer : Peer} {S : ShardInfo} (h : ¬peer.ShardDiff S) :
    peer.HasShardInfo S ↔ ∃ T, peer.storedShardInfo = some T ∧ ∀ i ∈ S.shards, i ∈ T.shards := by
  constructor
  · rintro ⟨T, hT, -, hshards⟩
    exact ⟨T, hT, fun i hi => (hshards i).2 hi⟩
  · rintro ⟨T, hT, hall⟩
    refine ⟨T, hT, ?_, fun i => ⟨fun hi => ?_, hall i⟩⟩
    · by_contra hcluster
      exact h ⟨T, hT, .inl hcluster⟩
    · by_contra hnot
      exact h ⟨T, hT, .inr ⟨i, hi, hnot⟩⟩

/-! ## Shard infos -/

/-- A received shard info was decoded from a field. -/
theorem exists_decode_of_shardInfo {enr : Enr} {S : ShardInfo} (h : enr.shardInfo = .ok (some S)) :
    ∃ bytes, decodeRelayShard bytes = .ok S := by
  have hfield : ∀ field : Option Bytes, field.mapM decodeRelayShard = .ok (some S) →
      ∃ bytes, decodeRelayShard bytes = .ok S := by
    intro field hfield
    cases field with
    | none => cases hfield
    | some bytes =>
      have hmap : some <$> decodeRelayShard bytes = .ok (some S) := hfield
      cases hdecode : decodeRelayShard bytes with
      | error error =>
        rw [hdecode] at hmap
        cases hmap
      | ok T =>
        rw [hdecode] at hmap
        cases hmap
        exact ⟨bytes, hdecode⟩
  obtain ⟨rs, hrs, h⟩ := bind_eq_ok.1 h
  cases rs with
  | none => exact hfield enr.rsvField h
  | some rs =>
    obtain ⟨rsv, -, h⟩ := bind_eq_ok.1 h
    cases h
    exact hfield enr.rsField hrs

/-- Metadata with the encoding of a shard info has it. -/
theorem hasShardInfo_of_encode {S : ShardInfo} (hc : S.clusterId ≤ 65535) (hS : ∀ i ∈ S.shards, i < 1024) :
    ∃ bytes, encodeRelayShard S = .ok bytes ∧
      ∀ peer : Peer, ∀ metadata : Map String Bytes, peer.metadata = metadata.set "shardInfo" bytes →
        peer.HasShardInfo S := by
  obtain ⟨clusterId, shards⟩ := S
  obtain ⟨bytes, T, hencode, hdecode, hcluster, hshards, -⟩ :=
    decodeRelayShard_encodeRelayShard clusterId shards hc fun i hi => Nat.le_of_lt_succ (hS i hi)
  refine ⟨bytes, hencode, fun peer metadata hmetadata => ⟨T, ?_, hcluster, hshards⟩⟩
  rw [Peer.storedShardInfo, hmetadata, Map.get_set_self, Option.bind_some, hdecode]
  rfl

/-! ## Runs against the store -/

section

variable {store : Store} {peerId : PeerId} {multiaddrs : List Multiaddr} {S : ShardInfo}

/-- `checkPeerInfoDiff` finds what is stored and was not received. -/
theorem run_checkPeerInfoDiff (multiaddrs : List Multiaddr) (S : ShardInfo) {peer : Peer} (hpeer : store.get peerId = some peer) (hvalid : peer.ValidShardInfo) :
    ∃ hasMultiaddrDiff hasShardDiff : Bool,
      (checkPeerInfoDiff ⟨peerId, multiaddrs⟩ (some S)).run answer store =
        (.ok (hasMultiaddrDiff, hasShardDiff), store) ∧
      (hasMultiaddrDiff = true ↔ peer.MultiaddrDiff multiaddrs) ∧ (hasShardDiff = true ↔ peer.ShardDiff S) := by
  have hget : (PeerStore.get peerId).run answer store = (.ok (some peer), store) := by
    simp [PeerStore.get, answer, hpeer]
  have hdiff : ((peer.addresses.any fun ma => !multiaddrs.contains ma) = true ↔ peer.MultiaddrDiff multiaddrs) := by
    simp [Peer.MultiaddrDiff]
  unfold checkPeerInfoDiff
  rw [Program.run_bind_of_ok _ hget]
  cases hbytes : peer.metadata.get "shardInfo" with
  | none =>
    refine ⟨_, false, by simp only [hbytes]; exact Program.run_pure _ _ _, hdiff, ?_⟩
    simp [Peer.ShardDiff, Peer.storedShardInfo, hbytes]
  | some bytes =>
    obtain ⟨T, hT⟩ := hvalid bytes hbytes
    refine ⟨_, hasShardDiff T (some S), ?_, hdiff, ?_⟩
    · simp only [hbytes]
      rw [Program.run_bind_ofExcept _ hT]
      exact Program.run_pure _ _ _
    · simp [Peer.ShardDiff, Peer.storedShardInfo, hbytes, hT, hasShardDiff, Except.toOption]

theorem run_shardMetadata {bytes : Bytes} (h : encodeRelayShard S = .ok bytes) (store : Store) :
    (shardMetadata S).run answer store = (.ok (Map.empty.set "shardInfo" bytes), store) := by
  rw [shardMetadata, Program.run_bind_ofExcept _ h]
  exact Program.run_pure _ _ _

/-- `save` writes the multiaddrs and the shard info. -/
theorem run_savePeer (options : Options) (peerId : PeerId) (multiaddrs : List Multiaddr) {bytes : Bytes} (h : encodeRelayShard S = .ok bytes) (store : Store) :
    ∃ store' peer, (savePeer options ⟨peerId, multiaddrs⟩ (some S)).run answer store = (.ok (), store') ∧
      store'.get peerId = some peer ∧ peer.addresses = multiaddrs ∧
      peer.metadata = Map.empty.set "shardInfo" bytes := by
  unfold savePeer
  dsimp only
  rw [Program.run_bind_of_ok _ (run_shardMetadata h store), PeerStore.save, Program.run_call, answer]
  exact ⟨_, _, rfl, Map.get_set_self _ _ _, rfl, rfl⟩

/-- The writes of `query` where there is a difference. -/
theorem run_updatePeer (multiaddrs : List Multiaddr) {bytes : Bytes} (h : encodeRelayShard S = .ok bytes) {peer : Peer}
    (hpeer : store.get peerId = some peer) (hasMultiaddrDiff hasShardDiff : Bool) :
    ∃ store' peer', (updatePeer ⟨peerId, multiaddrs⟩ (some S) hasMultiaddrDiff hasShardDiff).run answer store =
        (.ok (), store') ∧
      store'.get peerId = some peer' ∧
      peer'.addresses = (if hasMultiaddrDiff then multiaddrs else peer.addresses) ∧
      peer'.metadata = if hasShardDiff then peer.metadata.set "shardInfo" bytes else peer.metadata := by
  obtain ⟨store₁, peer₁, hrun₁, hget₁, haddresses₁, hmetadata₁⟩ : ∃ store₁ peer₁,
      (patchMultiaddrs ⟨peerId, multiaddrs⟩ hasMultiaddrDiff).run answer store = (.ok (), store₁) ∧
      store₁.get peerId = some peer₁ ∧
      peer₁.addresses = (if hasMultiaddrDiff then multiaddrs else peer.addresses) ∧ peer₁.metadata = peer.metadata := by
    cases hasMultiaddrDiff with
    | false => exact ⟨store, peer, rfl, hpeer, rfl, rfl⟩
    | true =>
      refine ⟨_, _, rfl, Map.get_set_self _ _ _, rfl, ?_⟩
      rw [hpeer]
      rfl
  unfold updatePeer
  rw [Program.run_bind_of_ok _ hrun₁]
  cases hasShardDiff with
  | false => exact ⟨store₁, peer₁, rfl, hget₁, haddresses₁, hmetadata₁⟩
  | true =>
    rw [mergeShardInfo, if_pos rfl, Program.run_bind_of_ok _ (run_shardMetadata h store₁), PeerStore.merge,
      Program.run_call, answer]
    refine ⟨_, _, rfl, Map.get_set_self _ _ _, ?_, ?_⟩
    · rw [hget₁]
      exact haddresses₁
    · rw [hget₁]
      change peer₁.metadata.set "shardInfo" bytes = _
      rw [hmetadata₁]
      rfl

end

/-- A record that is processed leaves in the store what it says, exactly if nothing new is skipped. -/
theorem run_processPeer (options : Options) {store : Store} {peerId : PeerId} {multiaddrs : List Multiaddr}
    {S : ShardInfo} (hc : S.clusterId ≤ 65535) (hS : ∀ i ∈ S.shards, i < 1024)
    (hvalid : ∀ peer, store.get peerId = some peer → peer.ValidShardInfo) :
    ∃ store', (processPeer options ⟨peerId, multiaddrs⟩ (some S)).run answer store = (.ok (), store') ∧
      (store'.UpToDate peerId multiaddrs S ↔
        ∀ peer, store.get peerId = some peer → peer.NothingSkipped multiaddrs S) := by
  obtain ⟨bytes, hencode, hhas⟩ := hasShardInfo_of_encode hc hS
  have hasked : (PeerStore.has peerId).run answer store = (.ok (store.has peerId), store) := by
    simp [PeerStore.has, answer]
  obtain ⟨saved, savedPeer, hsave, hget, haddresses, hmetadata⟩ :=
    run_savePeer options peerId multiaddrs hencode store
  have hsaved : saved.UpToDate peerId multiaddrs S :=
    ⟨savedPeer, hget, fun ma => by rw [haddresses], hhas savedPeer _ hmetadata⟩
  unfold processPeer
  rw [Program.run_bind_of_ok _ hasked]
  cases hpeer : store.get peerId with
  | none =>
    have hno : store.has peerId = false := by rw [Map.has, hpeer]; rfl
    rw [hno]
    exact ⟨saved, hsave, iff_of_true hsaved fun peer hsome => by cases hsome⟩
  | some peer =>
    have hyes : store.has peerId = true := by rw [Map.has, hpeer]; rfl
    rw [hyes, if_pos rfl]
    obtain ⟨hasMultiaddrDiff, hasShardDiff, hcheck, hmulti, hshard⟩ :=
      run_checkPeerInfoDiff multiaddrs S hpeer (hvalid peer hpeer)
    rw [Program.run_bind_of_ok _ hcheck]
    dsimp only
    by_cases hdiff : (hasMultiaddrDiff || hasShardDiff) = true
    · rw [if_pos hdiff]
      obtain ⟨store', peer', hrun, hget', haddresses', hmetadata'⟩ :=
        run_updatePeer multiaddrs hencode hpeer hasMultiaddrDiff hasShardDiff
      refine ⟨store', hrun, ?_⟩
      have hboth : store'.UpToDate peerId multiaddrs S ↔ peer'.HasMultiaddrs multiaddrs ∧ peer'.HasShardInfo S := by
        simp [Store.UpToDate, hget']
      have hskipped : (∀ peer', some peer = some peer' → peer'.NothingSkipped multiaddrs S) ↔
          peer.NothingSkipped multiaddrs S := by
        simp
      rw [hboth, hskipped, Peer.NothingSkipped]
      by_cases hsd : peer.ShardDiff S
      · rw [hshard.2 hsd, if_pos rfl] at hmetadata'
        have hshardInfo := hhas peer' _ hmetadata'
        by_cases hmd : peer.MultiaddrDiff multiaddrs
        · rw [hmulti.2 hmd, if_pos rfl] at haddresses'
          have hmultiaddrs : peer'.HasMultiaddrs multiaddrs := fun ma => by rw [haddresses']
          simp [hsd, hmd, hshardInfo, hmultiaddrs]
        · -- only the shard info is written
          rw [if_neg (mt hmulti.1 hmd)] at haddresses'
          have hmultiaddrs : peer'.HasMultiaddrs multiaddrs ↔ peer.HasMultiaddrs multiaddrs := by
            rw [Peer.HasMultiaddrs, haddresses', Peer.HasMultiaddrs]
          simp [hsd, hmd, hshardInfo, hmultiaddrs, hasMultiaddrs_iff hmd]
      · -- only the multiaddrs are written
        have hmd : peer.MultiaddrDiff multiaddrs :=
          hmulti.1 ((Bool.or_eq_true _ _ ▸ hdiff).resolve_right (mt hshard.1 hsd))
        rw [hmulti.2 hmd, if_pos rfl] at haddresses'
        rw [if_neg (mt hshard.1 hsd)] at hmetadata'
        have hmultiaddrs : peer'.HasMultiaddrs multiaddrs := fun ma => by rw [haddresses']
        have hshardInfo : peer'.HasShardInfo S ↔ peer.HasShardInfo S := by
          rw [Peer.HasShardInfo, Peer.storedShardInfo, hmetadata', Peer.HasShardInfo, Peer.storedShardInfo]
        simp [hsd, hmd, hshardInfo, hmultiaddrs, hasShardInfo_iff hsd]
    · -- no difference: everything is saved
      rw [if_neg hdiff]
      rw [Bool.or_eq_true, not_or, hmulti, hshard] at hdiff
      refine ⟨saved, hsave, iff_of_true hsaved fun peer' hpeer' => ?_⟩
      cases hpeer'
      exact ⟨fun h => absurd h hdiff.1, fun h => absurd h hdiff.2⟩

/-- **After `query` has processed a record of a peer, with any entry of the peer in the store and nothing failing, the
store has the multiaddrs and the shard info of the record if and only if nothing new was skipped.** -/
theorem upToDate_processRecord (options : Options) (store : Store) (enr : Enr) (peerId : PeerId)
    (multiaddrs : List Multiaddr) (S : ShardInfo) (hpeerId : enr.peerId = some peerId)
    (hmultiaddrs : enr.getAllLocationMultiaddrs = .ok multiaddrs) (hshardInfo : enr.shardInfo = .ok (some S))
    (hS : ∀ i ∈ S.shards, i < 1024) (hvalid : ∀ peer, store.get peerId = some peer → peer.ValidShardInfo) :
    ∃ store', (processRecord options (some enr)).run answer store = (.ok (), store') ∧
      (store'.UpToDate peerId multiaddrs S ↔
        ∀ peer, store.get peerId = some peer → peer.NothingSkipped multiaddrs S) := by
  obtain ⟨bytes, hdecode⟩ := exists_decode_of_shardInfo hshardInfo
  have hpeerInfo : enr.peerInfo = .ok (some ⟨peerId, multiaddrs⟩) := by
    rw [Enr.peerInfo, hpeerId, hmultiaddrs]
    rfl
  unfold processRecord
  rw [Program.run_bind_ofExcept _ hpeerInfo, Program.run_bind_ofExcept _ hshardInfo]
  exact run_processPeer options (Nat.le_of_lt_succ (lt_of_decode hdecode).1) hS hvalid

/-- A record with the multiaddr `b` and shard 2 of cluster 1. -/
def sampleEnr : Enr := ⟨some "p", some [0, 1, 1, 0, 2], none, .ok ["b"]⟩

/-- A store that has the peer of the record with one multiaddr and no shard info. -/
def storeWith (ma : Multiaddr) : Store := Map.empty.set "p" ⟨[ma], Map.empty, Map.empty⟩

theorem validShardInfo_storeWith (ma : Multiaddr) : ∀ peer, (storeWith ma).get "p" = some peer → peer.ValidShardInfo := by
  intro peer hpeer bytes hbytes
  cases hpeer
  cases hbytes

theorem upToDate_processRecord_sample :
    ∃ store', (processRecord ⟨none, none, none, none⟩ (some sampleEnr)).run answer (storeWith "b") = (.ok (), store') ∧
      store'.UpToDate "p" ["b"] ⟨1, [2]⟩ := by
  obtain ⟨store', hrun, hiff⟩ := upToDate_processRecord ⟨none, none, none, none⟩ (storeWith "b") sampleEnr "p" ["b"]
    ⟨1, [2]⟩ rfl rfl rfl (by decide) (validShardInfo_storeWith "b")
  refine ⟨store', hrun, hiff.2 fun peer hpeer => ?_⟩
  cases hpeer
  refine ⟨?_, ?_⟩
  · rintro ⟨ma, hma, hnot⟩
    exact absurd hma hnot
  · rintro ⟨T, hT, -⟩
    cases hT

/-- Where the multiaddr has changed, the shard info is not written. -/
theorem not_upToDate :
    ∃ store', (processRecord ⟨none, none, none, none⟩ (some sampleEnr)).run answer (storeWith "a") = (.ok (), store') ∧
      ¬store'.UpToDate "p" ["b"] ⟨1, [2]⟩ := by
  refine ⟨_, rfl, ?_⟩
  rintro ⟨peer, hpeer, -, T, hT, -⟩
  cases hpeer
  cases hT

end JsWaku.PeerExchange
