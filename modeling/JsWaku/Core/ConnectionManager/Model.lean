import JsWaku.Lib.Transition
import JsWaku.Runtime.Libp2p
import JsWaku.Runtime.Map
import JsWaku.Utils.RelayShardCodec

/-!
# The connection manager

`ConnectionManager` of `packages/core/src/lib/connection_manager/connection_manager.ts` as an event system. Its code
runs in segments between `await`s; the state holds the fields of the manager, the connections of libp2p, and the async
calls suspended at an `await` (`Task`). An event is a call from outside, a libp2p event, or the resumption of a suspended
call with what it awaited, and its step runs the code up to the next `await`s. The steps of a run are interleaved in any
way.

Dials are started through `attemptDial` only. Left out are events sent to listeners, the keep-alive timers, of which only
the outcome of `start` matters here (`KeepAlive.lean` adds them), and logs, but for the two texts of `dialPeer` that may
throw when they are made: what is logged of an error that was caught, and the description of the last one.
-/

namespace JsWaku.ConnectionManager

open Transition RelayShardCodec

/-! ## Data -/

/-- `Tags.BOOTSTRAP`. -/
def BOOTSTRAP : String := "bootstrap"

/-- The configured pubsub topics and the `ConnectionManagerOptions` read here. -/
structure Options where
  pubsubTopics : List String
  maxDialAttemptsForPeer : ℕ
  maxBootstrapPeersAllowed : ℕ
  maxParallelDials : ℕ
  deriving DecidableEq, Repr

/-- One of the `errors` of an `AggregateError`: what its conversion to a string and `JSON.stringify` of it come to. -/
structure AggregatedError where
  toString : Except JsError String
  stringify : Except JsError (Option String)

/-- What the code reads of an error that it has caught: the `message` of an `Error`, the `errors` of an
`AggregateError`. -/
inductive Caught
  | error (message : String)
  | aggregate (errors : Option (List AggregatedError))

/-- The text that the `catch` logs: `${error.errors}`, which joins them with commas, or the message. -/
def Caught.logged : Caught → Except JsError String
  | .error message => .ok message
  | .aggregate none => .ok "undefined"
  | .aggregate (some errors) => (errors.mapM AggregatedError.toString).map (",".intercalate ·)

/-- The `errorMessage` of the clean-up. -/
def Caught.errorMessage : Caught → Except JsError (Option String)
  | .error message => .ok (some message)
  | .aggregate none | .aggregate (some []) => .ok none
  | .aggregate (some (first :: _)) => first.stringify

/-- An async call suspended at an `await`, with the variables it needs to go on. -/
inductive Task
  /-- `dialPeerStorePeers`, at `peerStore.all`. -/
  | listing
  /-- The `peer:discovery` handler, at `dispatchDiscoveryEvent`. -/
  | dispatching (peerId : PeerId)
  /-- `shouldDialPeer`, at `isPeerTopicConfigured`. -/
  | shardLookup (peerId : PeerId)
  /-- `shouldDialPeer`, at `getPeerShardInfo` for the warning. -/
  | shardWarning (peerId : PeerId)
  /-- `isPeerDialableBasedOnBootstrapStatus`, at `getTagNamesForPeer`. -/
  | bootstrapLookup (peerId : PeerId)
  /-- `shouldDialPeer`, at `isPeerDialableBasedOnBootstrapStatus`, which has returned. -/
  | bootstrapChecked (peerId : PeerId) (isPreferred : Bool)
  /-- `attemptDial`, at `shouldDialPeer`, which has returned. -/
  | answered (peerId : PeerId) (shouldDial : Bool)
  /-- `dialPeer`, at `libp2p.dial`; whether an earlier attempt has set `connection` and `peerId`. -/
  | dialing (peerId : PeerId) (dialAttempt : ℕ) (connected : Bool)
  /-- `dialPeer`, at `getTagNamesForPeer`. -/
  | tagging (peerId : PeerId) (dialAttempt : ℕ)
  /-- `dialPeer`, at `peerStore.delete`. -/
  | deleting (peerId : PeerId)
  /-- `dialPeer`, at `attemptDnsDiscovery`. -/
  | dnsDiscovery (peerId : PeerId)
  /-- The `peer:connect` handler, at `getTagNamesForPeer`. -/
  | connectLookup (peerId : PeerId)
  /-- The `peer:connect` handler, at `dropConnection`. -/
  | dropping (peerId : PeerId)
  deriving DecidableEq, Repr

/-- An `attemptDial` call that has not come to dialing. -/
def Task.isAttempt : Task → Bool
  | shardLookup _ | shardWarning _ | bootstrapLookup _ | bootstrapChecked _ _ | answered _ _ => true
  | _ => false

/-- A `dialPeer` call between its increment and its decrement of the count. -/
def Task.isActiveDial : Task → Bool
  | dialing _ _ _ | tagging _ _ => true
  | _ => false

/-- A `dialPeer` call after its decrement of the count. -/
def Task.isCleanup : Task → Bool
  | deleting _ | dnsDiscovery _ => true
  | _ => false

/-- The state of the manager, of libp2p's connections, and of the suspended calls. -/
structure State where
  connections : List Connection
  dialAttemptsForPeer : Map PeerId ℤ
  dialErrorsForPeer : Map PeerId Caught
  currentActiveParallelDialCount : ℤ
  pendingPeerDialQueue : List PeerId
  isP2PNetworkConnected : Bool
  tasks : List Task

/-- The manager after its constructor, which calls `dialPeerStorePeers`. -/
def init (connections : List Connection) : State :=
  { connections, dialAttemptsForPeer := Map.empty, dialErrorsForPeer := Map.empty,
    currentActiveParallelDialCount := 0, pendingPeerDialQueue := [], isP2PNetworkConnected := false,
    tasks := [.listing] }

/-! ## The code between awaits -/

/-- `shardInfoToPubsubTopics` for the cluster and shards of a relay shard record. -/
def shardInfoToPubsubTopics (shardInfo : ShardInfo) : List String :=
  (shardInfo.shards.map fun index =>
    "/waku/2/rs/" ++ toString shardInfo.clusterId ++ "/" ++ toString index).eraseDups

/-- `getPeerShardInfo`, given what `peerStore.get` came to: the `shardInfo` metadata, or a rejection. -/
def getPeerShardInfo (lookup : Except JsError (Option Bytes)) : Except JsError (Option ShardInfo) := do
  match ← lookup with
  | some shardInfoBytes => do
    let shardInfo ← decodeRelayShard shardInfoBytes
    return some shardInfo
  | none => return none

/-- `isPeerTopicConfigured`. -/
def isPeerTopicConfigured (options : Options) (lookup : Except JsError (Option Bytes)) : Except JsError Bool := do
  match ← getPeerShardInfo lookup with
  | some shardInfo => return (shardInfoToPubsubTopics shardInfo).any options.pubsubTopics.contains
  | none => return true

namespace State

variable (options : Options) (s : State)

/-- Suspends a call. -/
def spawn (t : Task) : State := { s with tasks := s.tasks ++ [t] }

/-- Takes a suspended call up again. -/
def resume (t : Task) : Option State := (take t s.tasks).map fun tasks => { s with tasks }

/-- `libp2p.getConnections(peerId)`. -/
def connectionsOf (peerId : PeerId) : List Connection := s.connections.filter (·.remotePeer = peerId)

/-- The connections tagged as bootstrap. -/
def bootstrapConnections : List Connection := s.connections.filter (·.tags.contains BOOTSTRAP)

/-- `attemptDial` up to its first `await`: `shouldDialPeer` up to its own. -/
def attemptDial (peerId : PeerId) : State :=
  if (s.connectionsOf peerId).length > 0 then s.spawn (.answered peerId false) else s.spawn (.shardLookup peerId)

/-- `isPeerDialableBasedOnBootstrapStatus` after its lookup. -/
def isPeerDialableBasedOnBootstrapStatus (tagNames : List String) : Bool :=
  if !tagNames.contains BOOTSTRAP then true
  else s.bootstrapConnections.length < options.maxBootstrapPeersAllowed

/-- `processDialQueue`. -/
def processDialQueue : State :=
  if s.pendingPeerDialQueue.length > 0 ∧ s.currentActiveParallelDialCount < options.maxParallelDials then
    match s.pendingPeerDialQueue with
    | peerId :: rest => attemptDial { s with pendingPeerDialQueue := rest } peerId
    | [] => s
  else s

/-- `dialPeer` once its loop is left: the count is decreased and the queue processed. -/
def finishDial : State :=
  processDialQueue options { s with currentActiveParallelDialCount := s.currentActiveParallelDialCount - 1 }

/-- `dialPeer` after the last failed attempt. It rejects where the last error cannot be described. -/
def forget (peerId : PeerId) (connected : Bool) : State :=
  match (s.dialErrorsForPeer.get peerId).map Caught.errorMessage with
  | some (.error _) => s
  | some (.ok _) | none =>
    let s := { s with dialErrorsForPeer := s.dialErrorsForPeer.delete peerId }
    if connected then s.spawn (.deleting peerId) else s.spawn (.dnsDiscovery peerId)

/-- The loop of `dialPeer` at its condition. -/
def dialLoop (peerId : PeerId) (dialAttempt : ℕ) (connected : Bool) : State :=
  if dialAttempt < options.maxDialAttemptsForPeer then s.spawn (.dialing peerId dialAttempt connected)
  else (s.finishDial options).forget peerId connected

/-- The error and the attempt recorded. -/
def recordFailure (peerId : PeerId) (dialAttempt : ℕ) (error : Caught) : State :=
  { s with dialErrorsForPeer := s.dialErrorsForPeer.set peerId error
           dialAttemptsForPeer := s.dialAttemptsForPeer.set peerId (dialAttempt + 1 : ℕ) }

/-- The `catch` of `dialPeer`, and the loop after it. Where the log of the error throws, the call rejects there and then:
the count stays increased and the queue is not processed. -/
def dialFailed (peerId : PeerId) (dialAttempt : ℕ) (connected : Bool) (error : Caught) : State :=
  match error.logged with
  | .error _ => s
  | .ok _ => dialLoop options (s.recordFailure peerId dialAttempt error) peerId (dialAttempt + 1) connected

/-- `dialPeer` up to its first `await`. -/
def dialPeer (peerId : PeerId) : State :=
  dialLoop options { s with currentActiveParallelDialCount := s.currentActiveParallelDialCount + 1 } peerId 0 false

/-- `attemptDial` after `shouldDialPeer`. -/
def attemptDialAnswered (peerId : PeerId) (shouldDial : Bool) : State :=
  if !shouldDial then s
  else if s.currentActiveParallelDialCount ≥ options.maxParallelDials then
    { s with pendingPeerDialQueue := s.pendingPeerDialQueue ++ [peerId] }
  else s.dialPeer options peerId

/-- The tags of a peer added to its connections, and its dial recorded as done. -/
def recordDial (peerId : PeerId) (tags : List String) : State :=
  { s with
    connections := s.connections.map fun conn =>
      if conn.remotePeer = peerId then { conn with tags := (conn.tags ++ tags).eraseDups } else conn
    dialAttemptsForPeer := s.dialAttemptsForPeer.set peerId (-1) }

/-- `setP2PNetworkConnected`. -/
def setP2PNetworkConnected : State := { s with isP2PNetworkConnected := true }

/-- `setP2PNetworkDisconnected`. -/
def setP2PNetworkDisconnected : State :=
  if s.isP2PNetworkConnected ∧ s.connections.length = 0 then { s with isP2PNetworkConnected := false } else s

/-- The `peer:connect` handler after its lookup. -/
def connectLookedUp (peerId : PeerId) (tagNames : List String) : State :=
  if tagNames.contains BOOTSTRAP ∧ s.bootstrapConnections.length > options.maxBootstrapPeersAllowed then
    s.spawn (.dropping peerId)
  else s.setP2PNetworkConnected

end State

/-! ## Events -/

/-- A call from outside, an event of libp2p, or a resumption. Tag names are what `getTagNamesForPeer` resolves to: it
catches every error. The outcome of `keepAliveManager.start` is given where an error in it matters, and as `dialPeer`
reads it where `dialPeer` catches it. -/
inductive Event
  /-- A call of `attemptDial`. -/
  | attemptDial (peerId : PeerId)
  /-- `peer:discovery`. -/
  | discovered (peerId : PeerId)
  /-- `peerStore.all` has resolved; the peers that `dialPeerStorePeers` does not skip as connected. -/
  | listed (peers : List PeerId)
  | dispatched (peerId : PeerId)
  | shardLookedUp (peerId : PeerId) (lookup : Except JsError (Option Bytes))
  | shardWarned (peerId : PeerId) (lookup : Except JsError (Option Bytes))
  | bootstrapLookedUp (peerId : PeerId) (tagNames : List String)
  | bootstrapChecked (peerId : PeerId) (isPreferred : Bool)
  | answered (peerId : PeerId) (shouldDial : Bool)
  | dialResolved (peerId : PeerId) (dialAttempt : ℕ) (connected : Bool)
  | dialRejected (peerId : PeerId) (dialAttempt : ℕ) (connected : Bool) (error : Caught)
  | tagged (peerId : PeerId) (dialAttempt : ℕ) (tagNames : List String) (keepAlive : Except Caught Unit)
  | deleted (peerId : PeerId) (outcome : Except JsError Unit)
  | dnsDiscovered (peerId : PeerId) (outcome : Except JsError Unit)
  /-- A connection opens; for the first one of its peer libp2p emits `peer:connect`. -/
  | connectionOpened (conn : Connection) (keepAlive : Except JsError Unit)
  /-- A connection closes; for the last one of its peer libp2p emits `peer:disconnect`. -/
  | connectionClosed (conn : Connection)
  | connectLookedUp (peerId : PeerId) (tagNames : List String)
  | dropped (peerId : PeerId)

/-- A step: the code an event runs, up to the next awaits. `none` where the event cannot happen. -/
def step (options : Options) (s : State) : Event → Option State
  | .attemptDial peerId => some (s.attemptDial peerId)
  | .discovered peerId => some (s.spawn (.dispatching peerId))
  | .listed peers => (s.resume .listing).map fun s => peers.foldl State.attemptDial s
  | .dispatched peerId => (s.resume (.dispatching peerId)).map fun s => s.attemptDial peerId
  | .shardLookedUp peerId lookup =>
    (s.resume (.shardLookup peerId)).map fun s =>
      match isPeerTopicConfigured options lookup with
      | .ok true => s.spawn (.bootstrapLookup peerId)
      | .ok false => s.spawn (.shardWarning peerId)
      | .error _ => s
  | .shardWarned peerId lookup =>
    (s.resume (.shardWarning peerId)).map fun s =>
      match getPeerShardInfo lookup with
      | .ok _ => s.spawn (.answered peerId false)
      | .error _ => s
  | .bootstrapLookedUp peerId tagNames =>
    (s.resume (.bootstrapLookup peerId)).map fun s =>
      s.spawn (.bootstrapChecked peerId (s.isPeerDialableBasedOnBootstrapStatus options tagNames))
  | .bootstrapChecked peerId isPreferred =>
    (s.resume (.bootstrapChecked peerId isPreferred)).map fun s =>
      s.spawn (.answered peerId (isPreferred && !s.dialAttemptsForPeer.has peerId))
  | .answered peerId shouldDial =>
    (s.resume (.answered peerId shouldDial)).map fun s => s.attemptDialAnswered options peerId shouldDial
  | .dialResolved peerId dialAttempt connected =>
    (s.resume (.dialing peerId dialAttempt connected)).map fun s => s.spawn (.tagging peerId dialAttempt)
  | .dialRejected peerId dialAttempt connected error =>
    (s.resume (.dialing peerId dialAttempt connected)).map fun s =>
      s.dialFailed options peerId dialAttempt connected error
  | .tagged peerId dialAttempt tagNames keepAlive =>
    (s.resume (.tagging peerId dialAttempt)).map fun s =>
      match keepAlive with
      | .ok () => (s.recordDial peerId tagNames).finishDial options
      | .error error => (s.recordDial peerId tagNames).dialFailed options peerId dialAttempt true error
  | .deleted peerId outcome =>
    (s.resume (.deleting peerId)).map fun s =>
      match outcome with
      | .ok () => s.spawn (.dnsDiscovery peerId)
      | .error _ => s
  | .dnsDiscovered peerId _ => s.resume (.dnsDiscovery peerId)
  | .connectionOpened conn keepAlive =>
    if s.connections.any (·.id = conn.id) then none
    else
      let opened := { s with connections := s.connections ++ [conn] }
      match (s.connectionsOf conn.remotePeer).isEmpty, keepAlive with
      | true, .ok () => some (opened.spawn (.connectLookup conn.remotePeer))
      | _, _ => some opened
  | .connectionClosed conn =>
    if conn ∈ s.connections then
      let closed := { s with connections := s.connections.erase conn }
      if (closed.connectionsOf conn.remotePeer).isEmpty then some closed.setP2PNetworkDisconnected else some closed
    else none
  | .connectLookedUp peerId tagNames =>
    (s.resume (.connectLookup peerId)).map fun s => s.connectLookedUp options peerId tagNames
  | .dropped peerId => (s.resume (.dropping peerId)).map State.setP2PNetworkConnected

/-- No `dialPeer` call and no `attemptDial` call is in progress. -/
def State.Quiescent (s : State) : Prop := ∀ t ∈ s.tasks, ¬t.isAttempt ∧ ¬t.isActiveDial ∧ ¬t.isCleanup

instance (s : State) : Decidable s.Quiescent := inferInstanceAs (Decidable (∀ t ∈ s.tasks, _))

/-! ## The pool of suspended calls -/

section

variable {s s' : State} {t : Task}

theorem countP_spawn (s : State) (t : Task) (q : Task → Bool) :
    (s.spawn t).tasks.countP q = s.tasks.countP q + if q t then 1 else 0 := by
  simp [State.spawn, List.countP_append, List.countP_singleton]

theorem countP_resume (h : s.resume t = some s') (q : Task → Bool) :
    s.tasks.countP q = s'.tasks.countP q + if q t then 1 else 0 := by
  obtain ⟨tasks, htake, rfl⟩ := Option.map_eq_some_iff.1 h
  exact countP_take htake q

/-- Taking a call up changes the pool of calls only. -/
theorem resume_eq (h : s.resume t = some s') : t ∈ s.tasks ∧ s' = { s with tasks := s'.tasks } := by
  obtain ⟨tasks, htake, rfl⟩ := Option.map_eq_some_iff.1 h
  exact ⟨(take_eq_some.1 htake).1, rfl⟩

theorem resume_of_mem (h : t ∈ s.tasks) : s.resume t = some { s with tasks := s.tasks.erase t } := by
  rw [State.resume, take, if_pos h]
  rfl

end

end JsWaku.ConnectionManager
