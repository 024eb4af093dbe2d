import JsWaku.Lib.Transition
import JsWaku.MessageHash
import JsWaku.Runtime.Map
import JsWaku.Sdk.PeerManager

/-!
# Filter subscriptions

`Subscription` of `packages/sdk/src/filter/subscription.ts` with its `SubscriptionMonitor` of `subscription_monitor.ts`,
the peer manager they share, and the requests of `FilterCore`, as an event system. Code runs in segments between
`await`s; an event is a call from outside, a libp2p event, a timer, or the resumption of a suspended call (`Task`), and
steps are interleaved in any way.

A request waits for a stream (`opening`) and then for its reply over one connection (`exchanging`). `accepted` is the
remote side: the peers that accepted a subscribe request, were not sent an unsubscribe since, and stayed connected.
`invocations` lists the calls of callbacks. Left out are logs, the results returned to callers, and the two sets that
`notifyMessageReceived` only writes.
-/

namespace JsWaku.Filter

open Transition

/-! ## Data -/

/-- `IDecoder`. The constructors throw on an empty content topic. -/
structure IDecoder where
  id : ℕ
  pubsubTopic : String
  contentTopic : String
  contentTopic_ne : contentTopic ≠ ""
  deriving DecidableEq

/-- A callback, by its identity. -/
abbrev Callback := ℕ

/-- `SubscriptionCallback`. -/
structure SubscriptionCallback where
  decoders : List IDecoder
  callback : Callback
  deriving DecidableEq

/-- What a subscription is made with: its pubsub topic, `FilterProtocolOptions`, `numPeersToUse`, the decoder of the
reserved content topic, whether a decoder's `fromProtoObj` resolves to a message, and SHA-256. -/
structure Env where
  pubsubTopic : String
  pingsBeforePeerRenewed : ℕ
  enableLightPushFilterCheck : Bool
  numPeersToUse : ℕ
  reservedDecoder : IDecoder
  decodes : IDecoder → IProtoMessage → Bool
  sha256 : Bytes → Bytes

/-- `reservedContentTopic`. -/
def Env.reservedContentTopic (env : Env) : String := env.reservedDecoder.contentTopic

/-- `MAX_SUBSCRIBE_ATTEMPTS`. -/
def MAX_SUBSCRIBE_ATTEMPTS : ℕ := 3

/-- The methods of `FilterCore` that ask a peer. -/
inductive Rpc
  | subscribe (contentTopics : List String)
  | unsubscribe (contentTopics : List String)
  | unsubscribeAll
  | ping
  deriving DecidableEq

/-- Who awaits a request: a call of the subscription, `SubscriptionMonitor.subscribe` in its loop, or
`SubscriptionMonitor.ping`. The last two may run for `onConnectionChange`. -/
inductive Waiter
  | call (id : ℕ)
  | retry (attempt : ℕ) (handler : Option ℕ)
  | ping (renewOnFirstFail : Bool) (handler : Option ℕ)
  deriving DecidableEq

/-- A request to a peer. -/
structure Request where
  rpc : Rpc
  peerId : PeerId
  waiter : Waiter
  deriving DecidableEq

/-- The methods of `Subscription` that ask all peers, with what they need once these have answered. -/
inductive Call
  | subscribe (decodersArray : List IDecoder) (callback : Callback)
  | unsubscribe (contentTopics : List String)
  | unsubscribeAll
  | ping
  deriving DecidableEq

/-- An async call suspended at an `await`. -/
inductive Task
  /-- A call, at the `getPeers` of the monitor; `fresh` when the monitor will assign the peers it has read. -/
  | gettingPeers (id : ℕ) (call : Call) (peers : List PeerId) (fresh : Bool)
  /-- `onPeerConnected` or `onPeerDisconnected`, at the `getPeers` of the peer manager. -/
  | resubscribing (peers : List PeerId)
  /-- `FilterCore`, at `getStream`. -/
  | opening (request : Request)
  /-- `FilterCore`, at the exchange over a connection. -/
  | exchanging (request : Request) (connection : ℕ)
  /-- A call, at `Promise.allSettled`. -/
  | settling (id : ℕ) (call : Call)
  /-- `onConnectionChange`, at `Promise.all`. -/
  | restarting (id : ℕ)
  /-- `pushMessage`, at `Promise.any`. -/
  | pushing (subscriptionCallback : SubscriptionCallback) (message : IProtoMessage)
  deriving DecidableEq

/-- The fields of `SubscriptionMonitor`. -/
structure Monitor where
  peerIds : List PeerId
  isStarted : Bool
  keepAliveIntervalId : Option ℕ
  pingFailedAttempts : Map PeerId ℕ
  receivedMessages : List String

/-- The state of a subscription and of what it runs on. -/
structure State where
  connections : List Connection
  monitor : Monitor
  subscriptionCallbacks : Map String SubscriptionCallback
  /-- The live intervals. -/
  intervals : List ℕ
  tasks : List Task
  /-- No connection, call, handler or interval has this number or a larger one. -/
  nextId : ℕ
  accepted : List PeerId
  invocations : List (Callback × IProtoMessage)

/-- A new subscription. -/
def init : State where
  connections := []
  monitor :=
    { peerIds := [], isStarted := false, keepAliveIntervalId := none, pingFailedAttempts := Map.empty,
      receivedMessages := [] }
  subscriptionCallbacks := Map.empty
  intervals := []
  tasks := []
  nextId := 0
  accepted := []
  invocations := []

/-! ## The code between awaits -/

/-- `groupByContentTopic`. -/
def groupByContentTopic (decoders : List IDecoder) : Map String (List IDecoder) :=
  decoders.foldl (fun grouped dec =>
    grouped.set dec.contentTopic ((grouped.get dec.contentTopic).getD [] ++ [dec])) Map.empty

namespace State

variable (env : Env) (s : State)

/-- Suspends a call. -/
def spawn (t : Task) : State := { s with tasks := s.tasks ++ [t] }

/-- Takes a suspended call up again. -/
def resume (t : Task) : Option State := (take t s.tasks).map fun tasks => { s with tasks }

/-- `libp2p.getConnections(peerId)`. -/
def connectionsOf (peerId : PeerId) : List Connection := s.connections.filter fun c => c.remotePeer = peerId

/-- `startKeepAlive`. -/
def startKeepAlive : State :=
  match s.monitor.keepAliveIntervalId with
  | some _ => s
  | none =>
    { s with
      monitor := { s.monitor with keepAliveIntervalId := some s.nextId }
      intervals := s.nextId :: s.intervals
      nextId := s.nextId + 1 }

/-- `stopKeepAlive`. -/
def stopKeepAlive : State :=
  match s.monitor.keepAliveIntervalId with
  | none => s
  | some id =>
    { s with
      monitor := { s.monitor with keepAliveIntervalId := none }
      intervals := s.intervals.filter (· ≠ id) }

/-- `start`. The listeners are registered while the monitor is started. -/
def start : State :=
  if s.monitor.isStarted then s
  else startKeepAlive { s with monitor := { s.monitor with isStarted := true } }

/-- `stop`. -/
def stop : State :=
  if !s.monitor.isStarted then s
  else stopKeepAlive { s with monitor := { s.monitor with isStarted := false } }

/-- `getPeers` of the monitor up to its `await`: the peers of the peer manager if it is not started, else its own. -/
def getPeers (id : ℕ) (call : Call) : State :=
  if s.monitor.isStarted then s.spawn (.gettingPeers id call s.monitor.peerIds false)
  else s.spawn (.gettingPeers id call (PeerManager.getPeers s.connections) true)

/-- A call of a method of the subscription, which starts with `getPeers`. -/
def startCall (call : Call) : State := getPeers { s with nextId := s.nextId + 1 } s.nextId call

/-- `Subscription.subscribe` up to its first `await`. -/
def subscribe (decoders : List IDecoder) (callback : Callback) : State :=
  if decoders.any fun decoder => decoder.pubsubTopic ≠ env.pubsubTopic then s
  else
    let decodersArray := if env.enableLightPushFilterCheck then decoders ++ [env.reservedDecoder] else decoders
    s.startCall (.subscribe decodersArray callback)

/-- The request a call sends to each peer. -/
def rpcOf : Call → Rpc
  | .subscribe decodersArray _ => .subscribe (groupByContentTopic decodersArray).keys
  | .unsubscribe contentTopics => .unsubscribe contentTopics
  | .unsubscribeAll => .unsubscribeAll
  | .ping => .ping

/-- A call once it has its peers: the monitor's are assigned, each is sent the request. -/
def gotPeers (id : ℕ) (call : Call) (peers : List PeerId) (fresh : Bool) : State :=
  let s := if fresh then { s with monitor := { s.monitor with peerIds := peers } } else s
  let s := peers.foldl (fun s peer => s.spawn (.opening ⟨rpcOf call, peer, .call id⟩)) s
  s.spawn (.settling id call)

/-- The callbacks of a `subscribe` call are registered, but for the reserved content topic. -/
def registerCallbacks (decodersArray : List IDecoder) (callback : Callback) : State :=
  { s with
    subscriptionCallbacks := (groupByContentTopic decodersArray).entries.foldl (fun callbacks entry =>
      if entry.1 = env.reservedContentTopic then callbacks
      else callbacks.set entry.1 ⟨entry.2, callback⟩) s.subscriptionCallbacks }

/-- A call once all its requests are settled. -/
def callSettled : Call → State
  | .subscribe decodersArray callback => (s.registerCallbacks env decodersArray callback).start
  | .unsubscribe _ => if s.subscriptionCallbacks.entries.length = 0 then s.stop else s
  | .unsubscribeAll => stop { s with subscriptionCallbacks := Map.empty }
  | .ping => s

/-- `SubscriptionMonitor.subscribe` at the condition of its loop. -/
def monitorSubscribe (peerId : Option PeerId) (attempt : ℕ) (handler : Option ℕ) : State :=
  if attempt < MAX_SUBSCRIBE_ATTEMPTS then
    match peerId with
    | none => s
    | some peerId =>
      s.spawn (.opening ⟨.subscribe s.subscriptionCallbacks.keys, peerId, .retry attempt handler⟩)
  else s

/-- `requestRenew`, and `SubscriptionMonitor.subscribe` with the new peer. -/
def renew (peerId : PeerId) (attempt : ℕ) (handler : Option ℕ) : State :=
  let (connections, newPeer) := PeerManager.requestRenew env.numPeersToUse s.connections peerId
  monitorSubscribe { s with connections } newPeer attempt handler

/-- `SubscriptionMonitor.ping` up to its first `await`. -/
def ping (peerId : PeerId) (renewOnFirstFail : Bool) (handler : Option ℕ) : State :=
  s.spawn (.opening ⟨.ping, peerId, .ping renewOnFirstFail handler⟩)

/-- `SubscriptionMonitor.ping` after the reply. -/
def pingAnswered (peerId : PeerId) (renewOnFirstFail : Bool) (handler : Option ℕ) (success : Bool) : State :=
  if !success && renewOnFirstFail then s.renew env peerId 0 handler
  else
    let prev := (s.monitor.pingFailedAttempts.get peerId).getD 0
    let madeAttempts := if success then 0 else prev + 1
    let s := { s with monitor := { s.monitor with
      pingFailedAttempts := s.monitor.pingFailedAttempts.set peerId madeAttempts } }
    if madeAttempts ≥ env.pingsBeforePeerRenewed then s.renew env peerId 0 handler else s

/-- A call for `onConnectionChange` rejects, and with it the handler. -/
def rejectHandler : Option ℕ → State
  | some id => { s with tasks := s.tasks.erase (.restarting id) }
  | none => s

/-- What follows a request: `outcome` is a success or a failure of the peer, or a rejection. -/
def answered (request : Request) (outcome : Except JsError Bool) : State :=
  match request.waiter, outcome with
  | .call _, .ok _ =>
    match request.rpc with
    | .unsubscribe contentTopics =>
      { s with subscriptionCallbacks := contentTopics.foldl Map.delete s.subscriptionCallbacks }
    | _ => s
  | .call _, .error _ => s
  | .retry _ _, .ok true => s
  | .retry attempt handler, .ok false => s.renew env request.peerId (attempt + 1) handler
  | .ping renewOnFirstFail handler, .ok success => s.pingAnswered env request.peerId renewOnFirstFail handler success
  | .retry _ handler, .error _ => s.rejectHandler handler
  | .ping _ handler, .error _ => s.rejectHandler handler

/-- A stream that does not open is a rejection of `subscribe` and `unsubscribeAll`, and a failure of the others. -/
def noStream (rpc : Rpc) (error : JsError) : Except JsError Bool :=
  match rpc with
  | .subscribe _ | .unsubscribeAll => .error error
  | .unsubscribe _ | .ping => .ok false

/-- What a request leaves at its peer: an unsubscribe once it is sent. -/
def requestSent (request : Request) : State :=
  match request.rpc with
  | .unsubscribe _ | .unsubscribeAll => { s with accepted := s.accepted.filter (· ≠ request.peerId) }
  | .subscribe _ | .ping => s

/-- What a reply shows of its peer: a subscribe is accepted. -/
def replied (request : Request) (outcome : Except JsError Bool) : State :=
  match request.rpc, outcome with
  | .subscribe _, .ok true => { s with accepted := request.peerId :: s.accepted }
  | _, _ => s

/-- `onPeerConnected`, and before it the listener of the peer manager. -/
def onPeerConnected (peerId : PeerId) : State :=
  let s := { s with connections := PeerManager.lockPeerIfNeeded env.numPeersToUse s.connections peerId }
  if !s.monitor.isStarted || s.monitor.peerIds.length > 0 then s
  else s.spawn (.resubscribing (PeerManager.getPeers s.connections))

/-- `onPeerDisconnected`, and before it the listener of the peer manager. -/
def onPeerDisconnected (peerId : PeerId) : State :=
  let s := { s with connections := (PeerManager.requestRenew env.numPeersToUse s.connections peerId).1 }
  if !s.monitor.isStarted || !s.monitor.peerIds.contains peerId then s
  else s.spawn (.resubscribing (PeerManager.getPeers s.connections))

/-- The two handlers once they have the peers. -/
def resubscribe (peers : List PeerId) : State :=
  peers.foldl (fun s peer => s.monitorSubscribe (some peer) 0 none)
    { s with monitor := { s.monitor with peerIds := peers } }

/-- `onConnectionChange`, while the monitor is started. -/
def onConnectionChange (isConnected : Bool) : State :=
  if !s.monitor.isStarted then s
  else if !isConnected then s.stopKeepAlive
  else
    s.monitor.peerIds.foldl (fun s' peer => s'.ping peer true (some s.nextId))
      { s with nextId := s.nextId + 1, tasks := s.tasks ++ [.restarting s.nextId] }

/-- `processIncomingMessage`, with `notifyMessageReceived` and `pushMessage` up to its `await`. -/
def processIncomingMessage (message : IProtoMessage) : State :=
  match MessageHash.messageHashStr env.sha256 env.pubsubTopic (.proto message) with
  | .error _ => s
  | .ok hash =>
    if hash ∈ s.monitor.receivedMessages then s
    else
      let s := { s with monitor := { s.monitor with receivedMessages := hash :: s.monitor.receivedMessages } }
      match s.subscriptionCallbacks.get message.contentTopic with
      | none => s
      | some subscriptionCallback =>
        if message.contentTopic = "" then s else s.spawn (.pushing subscriptionCallback message)

end State

/-! ## Events -/

/-- The requests of a call or for a handler that are not settled. -/
def Task.awaits (p : Waiter → Bool) : Task → Bool
  | opening request | exchanging request _ => p request.waiter
  | _ => false

/-- A request of a call. -/
def Waiter.isOf (id : ℕ) : Waiter → Bool
  | call id' => id' = id
  | _ => false

/-- A request for a handler. -/
def Waiter.isFor (id : ℕ) : Waiter → Bool
  | retry _ handler | ping _ handler => handler = some id
  | _ => false

/-- A call from outside, an event of libp2p, a timer, or a resumption. -/
inductive Event
  | connectionOpened (peerId : PeerId)
  | connectionClosed (conn : Connection)
  /-- `peer:connect`. -/
  | peerConnected (peerId : PeerId)
  /-- `peer:disconnect`. -/
  | peerDisconnected (peerId : PeerId)
  /-- The connection status of the connection manager. -/
  | connectionStatus (isConnected : Bool)
  | intervalFired (id : ℕ)
  | subscribe (decoders : List IDecoder) (callback : Callback)
  /-- A call of `unsubscribe`, `unsubscribeAll` or `ping`. -/
  | called (call : Call)
  | gotPeers (id : ℕ) (call : Call) (peers : List PeerId) (fresh : Bool)
  | resubscribed (peers : List PeerId)
  | streamOpened (request : Request) (conn : Connection)
  | streamFailed (request : Request) (error : JsError)
  /-- A reply, or the failure of the exchange; a peer's success comes over a connection that is open. -/
  | answered (request : Request) (connection : ℕ) (outcome : Except JsError Bool)
  | settled (id : ℕ) (call : Call)
  | restarted (id : ℕ)
  /-- A push of a message by a peer. -/
  | pushed (peerId : PeerId) (message : IProtoMessage)
  /-- `Promise.any` has resolved: one of the decoders has decoded the message. -/
  | decoded (subscriptionCallback : SubscriptionCallback) (message : IProtoMessage)
  /-- `Promise.any` has rejected: none of them has. -/
  | notDecoded (subscriptionCallback : SubscriptionCallback) (message : IProtoMessage)

/-- One of the decoders decodes the message. -/
def SubscriptionCallback.decodes (env : Env) (subscriptionCallback : SubscriptionCallback) (message : IProtoMessage) :
    Bool :=
  subscriptionCallback.decoders.any fun dec => env.decodes dec message

/-- A step: the code an event runs, up to the next awaits. `none` where the event cannot happen. -/
def step (env : Env) (s : State) : Event → Option State
  | .connectionOpened peerId =>
    some { s with connections := s.connections ++ [⟨s.nextId, peerId, []⟩], nextId := s.nextId + 1 }
  | .connectionClosed conn =>
    if conn ∈ s.connections then
      let s := { s with connections := s.connections.erase conn }
      if (s.connectionsOf conn.remotePeer).isEmpty then
        some { s with accepted := s.accepted.filter (· ≠ conn.remotePeer) }
      else some s
    else none
  | .peerConnected peerId => some (s.onPeerConnected env peerId)
  | .peerDisconnected peerId => some (s.onPeerDisconnected env peerId)
  | .connectionStatus isConnected => some (s.onConnectionChange isConnected)
  | .intervalFired id =>
    if id ∈ s.intervals then some (s.monitor.peerIds.foldl (fun s peer => s.ping peer false none) s) else none
  | .subscribe decoders callback => some (s.subscribe env decoders callback)
  | .called (.subscribe _ _) => none
  | .called call => some (s.startCall call)
  | .gotPeers id call peers fresh =>
    (s.resume (.gettingPeers id call peers fresh)).map fun s => s.gotPeers id call peers fresh
  | .resubscribed peers => (s.resume (.resubscribing peers)).map fun s => s.resubscribe peers
  | .streamOpened request conn =>
    if conn ∈ s.connections ∧ conn.remotePeer = request.peerId then
      (s.resume (.opening request)).map fun s => (s.requestSent request).spawn (.exchanging request conn.id)
    else none
  | .streamFailed request error =>
    (s.resume (.opening request)).map fun s => s.answered env request (State.noStream request.rpc error)
  | .answered request connection outcome =>
    if outcome = .ok true → s.connections.any fun c => c.id = connection ∧ c.remotePeer = request.peerId then
      (s.resume (.exchanging request connection)).map fun s => (s.replied request outcome).answered env request outcome
    else none
  | .settled id call =>
    if s.tasks.any (Task.awaits (Waiter.isOf id)) then none
    else (s.resume (.settling id call)).map fun s => s.callSettled env call
  | .restarted id =>
    if s.tasks.any (Task.awaits (Waiter.isFor id)) then none
    else (s.resume (.restarting id)).map State.startKeepAlive
  | .pushed _ message => some (s.processIncomingMessage env message)
  | .decoded subscriptionCallback message =>
    if subscriptionCallback.decodes env message then
      (s.resume (.pushing subscriptionCallback message)).map fun s =>
        { s with invocations := s.invocations ++ [(subscriptionCallback.callback, message)] }
    else none
  | .notDecoded subscriptionCallback message =>
    if subscriptionCallback.decodes env message then none
    else s.resume (.pushing subscriptionCallback message)

/-! ## A subscription -/

/-- A decoder of the content topic `c`. -/
def sampleDecoder : IDecoder := ⟨0, "t", "c", by decide⟩

/-- A subscription on the topic `t`, with decoders of version 0. -/
def sampleEnv : Env where
  pubsubTopic := "t"
  pingsBeforePeerRenewed := 3
  enableLightPushFilterCheck := false
  numPeersToUse := 2
  reservedDecoder := ⟨1, "t", "/js-waku-subscription-ping/1/me/utf8", by decide⟩
  decodes dec m := (Version0.Decoder.fromProtoObj dec.pubsubTopic m).isSome
  sha256 := MessageHash.sampleSha256

end JsWaku.Filter
