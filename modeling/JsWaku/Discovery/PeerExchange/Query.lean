import JsWaku.Lib.Async
import JsWaku.Runtime.Libp2p
import JsWaku.Runtime.Map
import JsWaku.Utils.RelayShardCodec

/-!
# Peer-exchange queries

`WakuPeerExchange.query` of `packages/discovery/src/peer-exchange/waku_peer_exchange.ts` and `query` of
`PeerExchangeDiscovery` in `waku_peer_exchange_discovery.ts`, as programs that await the peer store, the stream and the
decoding of the reply. Left out are logs and the `peer` events that `query` dispatches.
-/

namespace JsWaku.PeerExchange

open Async RelayShardCodec

/-! ## Data -/

/-- A `Multiaddr`, as its string. -/
abbrev Multiaddr := String

/-- An `ENR` that was received: its peer id, the bytes of its shard fields, and what `getAllLocationMultiaddrs` makes of
its other fields. -/
structure Enr where
  peerId : Option PeerId
  rsField : Option Bytes
  rsvField : Option Bytes
  getAllLocationMultiaddrs : Except JsError (List Multiaddr)

/-- `PeerInfo`. -/
structure PeerInfo where
  id : PeerId
  multiaddrs : List Multiaddr
  deriving DecidableEq

/-- A tag of a peer. -/
structure Tag where
  name : String
  value : ℕ
  ttl : ℕ
  deriving DecidableEq

/-- What is given to `peerStore.save`. -/
structure PeerData where
  tag : Tag
  metadata : Option (Map String Bytes)
  multiaddrs : List Multiaddr

/-- A `Peer` of the peer store. -/
structure Peer where
  addresses : List Multiaddr
  metadata : Map String Bytes
  tags : Map String Tag

/-- The errors of `WakuPeerExchange.query`. -/
inductive ProtocolError
  | NO_PEER_AVAILABLE
  | NO_STREAM_AVAILABLE
  | EMPTY_PAYLOAD
  | DECODE_FAILED
  deriving DecidableEq, Repr

/-- `PeerExchangeQueryResult`. -/
abbrev PeerExchangeQueryResult := Except ProtocolError (List (Option Enr))

/-- `Options`. -/
structure Options where
  tagValue : Option ℕ
  tagTTL : Option ℕ
  queryInterval : Option ℕ
  maxRetries : Option ℕ
  deriving DecidableEq

/-- `DEFAULT_PEER_EXCHANGE_REQUEST_NODES`. -/
def DEFAULT_PEER_EXCHANGE_REQUEST_NODES : ℕ := 10

/-- `DEFAULT_PEER_EXCHANGE_QUERY_INTERVAL_MS`. -/
def DEFAULT_PEER_EXCHANGE_QUERY_INTERVAL_MS : ℕ := 10 * 1000

/-- `DEFAULT_MAX_RETRIES`. -/
def DEFAULT_MAX_RETRIES : ℕ := 3

/-- `DEFAULT_PEER_EXCHANGE_TAG_NAME`. -/
def DEFAULT_PEER_EXCHANGE_TAG_NAME : String := "peer-exchange"

/-- `DEFAULT_PEER_EXCHANGE_TAG_VALUE`. -/
def DEFAULT_PEER_EXCHANGE_TAG_VALUE : ℕ := 50

/-- `DEFAULT_PEER_EXCHANGE_TAG_TTL`. -/
def DEFAULT_PEER_EXCHANGE_TAG_TTL : ℕ := 100000000

/-! ## Calls -/

/-- What a query awaits. -/
inductive Call
  | get (peerId : PeerId)
  | getStream (peerId : PeerId)
  /-- The request written to the stream and the chunks read from it. -/
  | exchange (peerId : PeerId) (numPeers : ℕ)
  /-- `PeerExchangeRPC.decode`, and `EnrDecoder.fromRLP` of the records of its `response`, if there is one. -/
  | decode (chunks : List Bytes)
  | has (peerId : PeerId)
  | patch (peerId : PeerId) (multiaddrs : List Multiaddr)
  | merge (peerId : PeerId) (metadata : Map String Bytes)
  | save (peerId : PeerId) (data : PeerData)

/-- What it resolves to. -/
@[reducible] def Call.Result : Call → Type
  | get _ => Option Peer
  | getStream _ => Unit
  | exchange _ _ => List Bytes
  | decode _ => Option (List Enr)
  | has _ => Bool
  | patch _ _ | merge _ _ | save _ _ => Unit

/-- An async function of the package. -/
abbrev Prog := Program Call Call.Result JsError

/-- `getStream`. -/
def getStream (peerId : PeerId) : Prog Unit := Program.call (Call.getStream peerId)

/-- The `pipe` of a request. -/
def exchange (peerId : PeerId) (numPeers : ℕ) : Prog (List Bytes) := Program.call (Call.exchange peerId numPeers)

/-- `PeerExchangeRPC.decode` and `EnrDecoder.fromRLP`. -/
def decode (chunks : List Bytes) : Prog (Option (List Enr)) := Program.call (Call.decode chunks)

namespace PeerStore

/-- `peerStore.get`. -/
def get (peerId : PeerId) : Prog (Option Peer) := Program.call (Call.get peerId)

/-- `peerStore.has`. -/
def has (peerId : PeerId) : Prog Bool := Program.call (Call.has peerId)

/-- `peerStore.patch` of the multiaddrs. -/
def patch (peerId : PeerId) (multiaddrs : List Multiaddr) : Prog Unit := Program.call (Call.patch peerId multiaddrs)

/-- `peerStore.merge` of metadata. -/
def merge (peerId : PeerId) (metadata : Map String Bytes) : Prog Unit := Program.call (Call.merge peerId metadata)

/-- `peerStore.save`. -/
def save (peerId : PeerId) (data : PeerData) : Prog Unit := Program.call (Call.save peerId data)

end PeerStore

/-! ## `WakuPeerExchange.query` -/

/-- The part of `query` after the exchange, where what is thrown is caught. -/
def decodeReply (res : List Bytes) : Prog PeerExchangeQueryResult :=
  Program.tryCatch
    (do
      match ← decode res with
      | none => return .error .EMPTY_PAYLOAD
      | some enrs => return .ok (enrs.map some))
    fun _ => return .error .DECODE_FAILED

/-- `getStream`, where what is thrown is caught. -/
def tryGetStream (peerId : PeerId) : Prog (Option Unit) :=
  Program.tryCatch (some <$> getStream peerId) fun _ => return none

/-- `WakuPeerExchange.query`. -/
def exchangeQuery (numPeers : ℕ) (peerId : PeerId) : Prog PeerExchangeQueryResult := do
  match ← PeerStore.get peerId with
  | none => return .error .NO_PEER_AVAILABLE
  | some _ =>
    match ← tryGetStream peerId with
    | none => return .error .NO_STREAM_AVAILABLE
    | some _ => do
      let res ← exchange peerId numPeers
      decodeReply res

/-! ## `PeerExchangeDiscovery.query` -/

namespace Enr

variable (enr : Enr)

/-- `rs`. -/
def rs : Except JsError (Option ShardInfo) := enr.rsField.mapM decodeRelayShard

/-- `rsv`. -/
def rsv : Except JsError (Option ShardInfo) := enr.rsvField.mapM decodeRelayShard

/-- `shardInfo`. Both fields are read where the first one is there, for a warning. -/
def shardInfo : Except JsError (Option ShardInfo) := do
  match ← enr.rs with
  | some rs => do
    let _ ← enr.rsv
    return some rs
  | none => enr.rsv

/-- `peerInfo`. -/
def peerInfo : Except JsError (Option PeerInfo) :=
  match enr.peerId with
  | none => .ok none
  | some id => do
    let multiaddrs ← enr.getAllLocationMultiaddrs
    return some ⟨id, multiaddrs⟩

end Enr

/-- `hasShardDiff`, with the shard info stored and the one received. -/
def hasShardDiff (existing : ShardInfo) (shardInfo : Option ShardInfo) : Bool :=
  match shardInfo with
  | some shardInfo =>
    existing.clusterId != shardInfo.clusterId || existing.shards.any fun shard => !shardInfo.shards.contains shard
  | none => true

/-- `checkPeerInfoDiff`: `hasMultiaddrDiff` and `hasShardDiff`. -/
def checkPeerInfoDiff (peerInfo : PeerInfo) (shardInfo : Option ShardInfo) : Prog (Bool × Bool) := do
  match ← PeerStore.get peerInfo.id with
  | none => Program.throw .typeError
  | some peer =>
    let hasMultiaddrDiff := peer.addresses.any fun ma => !peerInfo.multiaddrs.contains ma
    match peer.metadata.get "shardInfo" with
    | none => return (hasMultiaddrDiff, false)
    | some existingShardInfoBytes => do
      let existingShardInfo ← Program.ofExcept (decodeRelayShard existingShardInfoBytes)
      return (hasMultiaddrDiff, hasShardDiff existingShardInfo shardInfo)

/-- The metadata of a shard info. -/
def shardMetadata (shardInfo : ShardInfo) : Prog (Map String Bytes) := do
  let bytes ← Program.ofExcept (encodeRelayShard shardInfo)
  return Map.empty.set "shardInfo" bytes

variable (options : Options)

/-- The `patch` of `query`. -/
def patchMultiaddrs (peerInfo : PeerInfo) (hasMultiaddrDiff : Bool) : Prog Unit :=
  if hasMultiaddrDiff then PeerStore.patch peerInfo.id peerInfo.multiaddrs else return ()

/-- The `merge` of `query`. -/
def mergeShardInfo (peerInfo : PeerInfo) (shardInfo : Option ShardInfo) (hasShardDiff : Bool) : Prog Unit :=
  match shardInfo with
  | some shardInfo =>
    if hasShardDiff then do
      let metadata ← shardMetadata shardInfo
      PeerStore.merge peerInfo.id metadata
    else return ()
  | none => return ()

/-- The writes of `query` for a peer with a difference. -/
def updatePeer (peerInfo : PeerInfo) (shardInfo : Option ShardInfo) (hasMultiaddrDiff hasShardDiff : Bool) :
    Prog Unit := do
  patchMultiaddrs peerInfo hasMultiaddrDiff
  mergeShardInfo peerInfo shardInfo hasShardDiff

/-- The `save` of `query`. -/
def savePeer (peerInfo : PeerInfo) (shardInfo : Option ShardInfo) : Prog Unit := do
  let tag : Tag :=
    { name := DEFAULT_PEER_EXCHANGE_TAG_NAME
      value := options.tagValue.getD DEFAULT_PEER_EXCHANGE_TAG_VALUE
      ttl := options.tagTTL.getD DEFAULT_PEER_EXCHANGE_TAG_TTL }
  match shardInfo with
  | some shardInfo => do
    let metadata ← shardMetadata shardInfo
    PeerStore.save peerInfo.id ⟨tag, some metadata, peerInfo.multiaddrs⟩
  | none => PeerStore.save peerInfo.id ⟨tag, none, peerInfo.multiaddrs⟩

/-- The loop of `query` for a peer id with its peer info. -/
def processPeer (peerInfo : PeerInfo) (shardInfo : Option ShardInfo) : Prog Unit := do
  let hasPeer ← PeerStore.has peerInfo.id
  if hasPeer then
    let (hasMultiaddrDiff, hasShardDiff) ← checkPeerInfoDiff peerInfo shardInfo
    if hasMultiaddrDiff || hasShardDiff then updatePeer peerInfo shardInfo hasMultiaddrDiff hasShardDiff
    else savePeer options peerInfo shardInfo
  else savePeer options peerInfo shardInfo

/-- The loop of `query` for a record. -/
def processRecord : Option Enr → Prog Unit
  | none => return ()
  | some enr => do
    let peerInfo ← Program.ofExcept enr.peerInfo
    let shardInfo ← Program.ofExcept enr.shardInfo
    match peerInfo with
    | none => return ()
    | some peerInfo => processPeer options peerInfo shardInfo

/-- The loop of `query`. -/
def processRecords : List (Option Enr) → Prog Unit
  | [] => return ()
  | record :: records => do
    processRecord options record
    processRecords records

/-- `PeerExchangeDiscovery.query`. -/
def query (peerId : PeerId) : Prog PeerExchangeQueryResult := do
  match ← exchangeQuery DEFAULT_PEER_EXCHANGE_REQUEST_NODES peerId with
  | .error error => return .error error
  | .ok peerInfos => do
    processRecords options peerInfos
    return .ok peerInfos

end JsWaku.PeerExchange
