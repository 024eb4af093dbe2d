import JsWaku.Lib.Transition
import JsWaku.Runtime.Libp2p
import JsWaku.Runtime.Map
import Mathlib.Data.List.Sort

/-!
# The stream manager

`StreamManager` of `packages/core/src/lib/stream_manager/stream_manager.ts` as an event system. Its code runs in
segments between `await`s; the state holds the fields of the manager, the connections of libp2p with their streams, and
the async calls suspended at an `await` (`Task`). Of libp2p it is assumed that `newStream` puts a new stream among the
streams of the connection before its promise resolves.
-/

namespace JsWaku.StreamManager

open Transition

/-! ## Data -/

/-- The `writeStatus` of a stream. -/
inductive WriteStatus
  | ready
  | writing
  | done
  | closing
  | closed
  deriving DecidableEq, Repr

/-- A stream; `consumed` is its `metadata[STREAM_LOCK_KEY]`. -/
structure Stream where
  id : ℕ
  protocol : String
  writeStatus : WriteStatus
  consumed : Bool
  deriving DecidableEq, Repr

/-- A connection with its streams; `isOpen` where its `status` is `open`. -/
structure Connection where
  id : ℕ
  remotePeer : PeerId
  isOpen : Bool
  timelineOpen : ℕ
  streams : List Stream
  deriving DecidableEq, Repr

/-- How far a call of `createStream` has come. -/
inductive Opening
  /-- there is no open connection -/
  | failed
  /-- `newStream` was called on the connection -/
  | requested (connection : ℕ)
  /-- `newStream` has opened the stream -/
  | opened (stream : ℕ)
  deriving DecidableEq, Repr

/-- Who has called `createStream`. -/
inductive Caller
  | getStream
  /-- with the promise that is put into the pool -/
  | createStreamWithLock (promise : ℕ)
  deriving DecidableEq, Repr

/-- An async call suspended at an `await`. -/
inductive Task
  /-- `getStream`, at `scheduledStream`. -/
  | waiting (peerId : PeerId) (promise : ℕ)
  /-- The caller, at `createStream`. -/
  | creating (caller : Caller) (peerId : PeerId) (opening : Opening)
  deriving DecidableEq, Repr

/-- The state of the manager, of libp2p's connections, and of the suspended calls; `returned` collects what the calls of
`getStream` have returned. -/
structure State where
  connections : List Connection
  ongoingCreation : List PeerId
  streamPool : Map PeerId ℕ
  tasks : List Task
  returned : List ℕ
  nextStream : ℕ
  nextPromise : ℕ

/-- The manager after its constructor, without connections. -/
def init : State :=
  { connections := [], ongoingCreation := [], streamPool := Map.empty, tasks := [], returned := [], nextStream := 0,
    nextPromise := 0 }

/-! ## The code between awaits -/

/-- `selectOpenConnection`. -/
def selectOpenConnection (connections : List Connection) : Option Connection :=
  ((connections.filter (·.isOpen)).insertionSort fun left right => right.timelineOpen ≤ left.timelineOpen).head?

/-- Whether the `writeStatus` is among those that make a stream unusable. -/
def isStreamUnusable (stream : Stream) : Bool := [WriteStatus.done, .closed, .closing].contains stream.writeStatus

namespace State

variable (multicodec : String) (s : State)

/-- Suspends a call. -/
def spawn (t : Task) : State := { s with tasks := s.tasks ++ [t] }

/-- Takes a suspended call up again. -/
def resume (t : Task) : Option State := (take t s.tasks).map fun tasks => { s with tasks }

/-- `getConnections(peerId)`. -/
def getConnections (peerId : PeerId) : List Connection := s.connections.filter (·.remotePeer = peerId)

/-- `getOpenStreamForCodec`. -/
def getOpenStreamForCodec (peerId : PeerId) : Option Stream := do
  let connection ← selectOpenConnection (s.getConnections peerId)
  let stream ← connection.streams.find? (·.protocol = multicodec)
  if isStreamUnusable stream || stream.consumed then none else some stream

/-- Changes the streams of the connections. -/
def mapStreams (f : Connection → List Stream) : State :=
  { s with connections := s.connections.map fun c => { c with streams := f c } }

/-- `lockStream`. -/
def lockStream (stream : ℕ) : State :=
  s.mapStreams fun c => c.streams.map fun x => if x.id = stream then { x with consumed := true } else x

/-- `getStream` locks the stream and returns it. -/
def returnStream (stream : ℕ) : State := { s.lockStream stream with returned := s.returned ++ [stream] }

/-- A new stream at a place among the streams of a connection. -/
def addStream (connection : ℕ) (protocol : String) (index : ℕ) : State :=
  { s.mapStreams fun c =>
      if c.id = connection then
        c.streams.take index ++ ⟨s.nextStream, protocol, .ready, false⟩ :: c.streams.drop index
      else c.streams with
    nextStream := s.nextStream + 1 }

/-- `createStream` up to its `await`; both callers leave `retries` at 0. -/
def createStream (peerId : PeerId) : Opening :=
  match selectOpenConnection (s.getConnections peerId) with
  | some connection => .requested connection.id
  | none => .failed

/-- `getStream` from its lookup on, up to its next `await`. -/
def lookupStream (peerId : PeerId) : State :=
  match s.getOpenStreamForCodec multicodec peerId with
  | some stream => s.returnStream stream.id
  | none => s.spawn (.creating .getStream peerId (s.createStream peerId))

/-- `getStream` up to its first `await`. -/
def getStream (peerId : PeerId) : State :=
  match s.streamPool.get peerId with
  | some promise => { s with streamPool := s.streamPool.delete peerId }.spawn (.waiting peerId promise)
  | none => s.lookupStream multicodec peerId

/-- `createStreamWithLock` up to its `await`, for the promise that it returns. -/
def createStreamWithLock (peerId : PeerId) (promise : ℕ) : State :=
  if s.ongoingCreation.contains peerId then s
  else
    { s with ongoingCreation := s.ongoingCreation ++ [peerId] }.spawn
      (.creating (.createStreamWithLock promise) peerId (s.createStream peerId))

/-- `scheduleNewStream`: an earlier attempt is abandoned. -/
def scheduleNewStream (peerId : PeerId) : State :=
  let promise := s.nextPromise
  let created := { s with
    streamPool := s.streamPool.delete peerId
    nextPromise := promise + 1 }.createStreamWithLock peerId promise
  { created with streamPool := created.streamPool.set peerId promise }

/-- `handlePeerUpdateStreamPool`. -/
def handlePeerUpdateStreamPool (peerId : PeerId) (protocols : List String) : State :=
  if !protocols.contains multicodec then s
  else if (s.getOpenStreamForCodec multicodec peerId).isSome then s
  else s.scheduleNewStream peerId

/-- Whether `createStreamWithLock` has not settled the promise. -/
def isPending (promise : ℕ) : Bool :=
  s.tasks.any fun
    | .creating (.createStreamWithLock p) _ _ => p = promise
    | _ => false

/-- The caller goes on when `createStream` has resolved. -/
def createStreamResolved (caller : Caller) (peerId : PeerId) (stream : ℕ) : State :=
  match caller with
  | .getStream => s.returnStream stream
  | .createStreamWithLock _ => { s with ongoingCreation := s.ongoingCreation.filter (· ≠ peerId) }

/-- The caller goes on when `createStream` has thrown; `getStream` throws too. -/
def createStreamRejected (caller : Caller) (peerId : PeerId) : State :=
  match caller with
  | .getStream => s
  | .createStreamWithLock _ => { s with ongoingCreation := s.ongoingCreation.filter (· ≠ peerId) }

end State

/-! ## Events -/

/-- What happens next. -/
inductive Event
  /-- a call from outside -/
  | getStream (peerId : PeerId)
  /-- `peer:update` -/
  | peerUpdate (peerId : PeerId) (protocols : List String)
  /-- `getStream` goes on after its wait for a scheduled stream -/
  | scheduledSettled (peerId : PeerId) (promise : ℕ)
  /-- the stream of a `newStream` call appears, at this place among the streams -/
  | newStreamOpened (caller : Caller) (peerId : PeerId) (connection index : ℕ)
  | newStreamResolved (caller : Caller) (peerId : PeerId) (stream : ℕ)
  /-- `newStream` rejects, or there was no connection to call it on -/
  | newStreamRejected (caller : Caller) (peerId : PeerId) (opening : Opening)
  | connectionOpened (id : ℕ) (remotePeer : PeerId) (timelineOpen index : ℕ)
  | connectionStatus (id : ℕ) (isOpen : Bool)
  | connectionRemoved (id : ℕ)
  /-- a stream appears that the manager has not asked for -/
  | streamOpened (connection : ℕ) (protocol : String) (index : ℕ)
  | streamStatus (id : ℕ) (writeStatus : WriteStatus)
  | streamRemoved (id : ℕ)
  deriving DecidableEq, Repr

/-- One step, if the event can happen. -/
def step (multicodec : String) (s : State) : Event → Option State
  | .getStream peerId => some (s.getStream multicodec peerId)
  | .peerUpdate peerId protocols => some (s.handlePeerUpdateStreamPool multicodec peerId protocols)
  | .scheduledSettled peerId promise =>
    if s.isPending promise then none
    else (s.resume (.waiting peerId promise)).map (·.lookupStream multicodec peerId)
  | .newStreamOpened caller peerId connection index =>
    (s.resume (.creating caller peerId (.requested connection))).map fun s =>
      (s.addStream connection multicodec index).spawn (.creating caller peerId (.opened s.nextStream))
  | .newStreamResolved caller peerId stream =>
    (s.resume (.creating caller peerId (.opened stream))).map (·.createStreamResolved caller peerId stream)
  | .newStreamRejected caller peerId opening =>
    (s.resume (.creating caller peerId opening)).map (·.createStreamRejected caller peerId)
  | .connectionOpened id remotePeer timelineOpen index =>
    if id ∈ s.connections.map (·.id) then none
    else some { s with
      connections := s.connections.take index ++ ⟨id, remotePeer, true, timelineOpen, []⟩ :: s.connections.drop index }
  | .connectionStatus id isOpen =>
    some { s with connections := s.connections.map fun c => if c.id = id then { c with isOpen } else c }
  | .connectionRemoved id => some { s with connections := s.connections.filter (·.id ≠ id) }
  | .streamOpened connection protocol index => some (s.addStream connection protocol index)
  | .streamStatus id writeStatus =>
    some (s.mapStreams fun c => c.streams.map fun x => if x.id = id then { x with writeStatus } else x)
  | .streamRemoved id => some (s.mapStreams fun c => c.streams.filter (·.id ≠ id))

end JsWaku.StreamManager
