import JsWaku.Runtime.Libp2p
import JsWaku.Runtime.TypedArray

/-!
# The peer manager

`PeerManager` of `packages/sdk/src/peer_manager/peer_manager.ts`, on the list of open connections. Its methods have no
`await` before their last effect, so that each runs in one segment. A lock is a tag of a connection; locking never takes
one away (`mem_getPeers_lock`).
-/

namespace JsWaku.PeerManager

/-- `CONNECTION_LOCK_TAG`. -/
def CONNECTION_LOCK_TAG : String := "peer-manager-lock"

/-- `isConnectionLocked`. -/
def isConnectionLocked (c : Connection) : Bool := c.tags.contains CONNECTION_LOCK_TAG

/-- `getLockedConnections`. -/
def getLockedConnections (connections : List Connection) : List Connection := connections.filter isConnectionLocked

/-- `getUnlockedConnections`. -/
def getUnlockedConnections (connections : List Connection) : List Connection :=
  connections.filter fun c => !isConnectionLocked c

/-- `getPeers`. -/
def getPeers (connections : List Connection) : List PeerId := (getLockedConnections connections).map (·.remotePeer)

/-- `lockConnection` for each of the chosen connections. -/
def lock (chosen connections : List Connection) : List Connection :=
  connections.map fun c => if c ∈ chosen then { c with tags := c.tags ++ [CONNECTION_LOCK_TAG] } else c

/-- How many peers are missing; negative when there are too many. -/
def neededPeers (numPeersToUse : ℕ) (connections : List Connection) : ℤ :=
  numPeersToUse - (getLockedConnections connections).length

/-- `requestRenew`: the connections with some more of them locked, and a new peer if there is one. A negative number of
needed peers is an end of `slice` counted from the right. -/
def requestRenew (numPeersToUse : ℕ) (connections : List Connection) (peerId : PeerId) :
    List Connection × Option PeerId :=
  let neededPeers := neededPeers numPeersToUse connections
  if neededPeers = 0 then (connections, none)
  else
    let others := (getUnlockedConnections connections).filter fun c => c.remotePeer ≠ peerId
    let chosen := others.take (relativeIndex others.length neededPeers)
    (lock chosen connections, chosen.head?.map (·.remotePeer))

/-- `lockPeerIfNeeded`. -/
def lockPeerIfNeeded (numPeersToUse : ℕ) (connections : List Connection) (peerId : PeerId) : List Connection :=
  if neededPeers numPeersToUse connections = 0 then connections
  else lock ((getUnlockedConnections connections).filter fun c => c.remotePeer = peerId) connections

/-! ## Locks stay -/

theorem mem_getPeers {connections : List Connection} {p : PeerId} :
    p ∈ getPeers connections ↔ ∃ c ∈ connections, isConnectionLocked c = true ∧ c.remotePeer = p := by
  simp [getPeers, getLockedConnections, and_assoc]

/-- A locked peer stays locked when more connections are locked. -/
theorem mem_getPeers_lock {connections : List Connection} (chosen : List Connection) {p : PeerId}
    (h : p ∈ getPeers connections) : p ∈ getPeers (lock chosen connections) := by
  obtain ⟨c, hc, hlocked, rfl⟩ := mem_getPeers.1 h
  refine mem_getPeers.2 ⟨_, List.mem_map_of_mem hc, ?_, ?_⟩
  · split
    · simp [isConnectionLocked]
    · exact hlocked
  · split <;> rfl

/-- Locking changes no connection but for its tags. -/
theorem exists_mem_lock {connections : List Connection} (chosen : List Connection) {id : ℕ} {p : PeerId} :
    (∃ c ∈ lock chosen connections, c.id = id ∧ c.remotePeer = p) ↔ ∃ c ∈ connections, c.id = id ∧ c.remotePeer = p := by
  constructor
  · rintro ⟨c, hc, rfl, rfl⟩
    obtain ⟨d, hd, rfl⟩ := List.mem_map.1 hc
    exact ⟨d, hd, by split <;> rfl, by split <;> rfl⟩
  · rintro ⟨c, hc, rfl, rfl⟩
    exact ⟨_, List.mem_map_of_mem hc, by split <;> rfl, by split <;> rfl⟩

end JsWaku.PeerManager
