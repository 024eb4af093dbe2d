import JsWaku.Core.Codecs
import JsWaku.Lib.Transition
import JsWaku.Runtime.Libp2p
import Mathlib.Data.List.Dedup

/-!
# The health indicator

`HealthIndicator` of `packages/sdk/src/health_indicator/health_indicator.ts`, listening. A handler takes the connections
when its event comes, asks the peer store for the peer of each, and sets the status once all are answered. It counts
connections, not peers, and it sets no status for some counts.

When the last handler saw the connections and peers that are there now, and a lone peer with both protocols is counted
as one or was found before, the status at rest is the one of the present (`healthAtRest_of_seesPresent`). For a handler
that sees the present the condition is exact (`reflects_iff`).
-/

namespace JsWaku.HealthIndicator

open Transition

/-! ## Data -/

/-- `HealthStatus`. -/
inductive HealthStatus
  | Unhealthy
  | MinimallyHealthy
  | SufficientlyHealthy
  deriving DecidableEq, Repr

/-- One `peerStore.get` of a handler: the protocols of the peer once it is answered, `none` if the call was rejected. -/
structure Lookup where
  remotePeer : PeerId
  peer : Option (Option (List String))
  deriving DecidableEq, Repr

/-- The remote peers of the open connections, the protocols in the peer store for the peers it has, the status, and the
handlers that wait for their lookups. -/
structure State where
  connections : List PeerId
  protocols : PeerId → Option (List String)
  value : HealthStatus
  handlers : List (List Lookup)

/-- A `peer:connect` or `peer:disconnect` with what is connected and known then, an answer of the peer store, or the
rest of a handler. -/
inductive Event
  | peerChange (connections : List PeerId) (protocols : PeerId → Option (List String))
  | answered (handler : List Lookup) (index : ℕ) (rejected : Bool)
  | resumed (handler : List Lookup)

/-! ## The code -/

/-- The peer was found and lists the protocol. -/
def supports (codec : String) (peer : Option (List String)) : Bool :=
  match peer with
  | some protocols => protocols.contains codec
  | none => false

/-- `filterPeers`. -/
def filterPeers (peers : List (Option (List String))) : ℕ := (peers.filter (supports FilterCodecs.SUBSCRIBE)).length

/-- `lightPushPeers`. -/
def lightPushPeers (peers : List (Option (List String))) : ℕ := (peers.filter (supports LightPushCodec)).length

/-- What `onPeerChange` makes of the status when each connection has its peer. -/
def onPeerChange (value : HealthStatus) (peers : List (Option (List String))) : HealthStatus :=
  if peers.length = 0 then .Unhealthy
  else if filterPeers peers ≥ 2 ∧ lightPushPeers peers ≥ 2 then .SufficientlyHealthy
  else if filterPeers peers = 1 ∧ lightPushPeers peers = 1 then .MinimallyHealthy
  else value

/-- One thing happens. -/
def step (s : State) : Event → Option State
  | .peerChange connections protocols =>
    some { s with
      connections
      protocols
      handlers := connections.map (fun remotePeer => ⟨remotePeer, none⟩) :: s.handlers }
  | .answered handler index rejected => do
    let handlers ← take handler s.handlers
    let lookup ← handler[index]?
    guard lookup.peer.isNone
    let peer := if rejected then none else s.protocols lookup.remotePeer
    some { s with handlers := handler.set index { lookup with peer := some peer } :: handlers }
  | .resumed handler => do
    let handlers ← take handler s.handlers
    let peers ← handler.mapM Lookup.peer
    some { s with value := onPeerChange s.value peers, handlers }

/-- A new indicator. -/
def init : State where
  connections := []
  protocols := fun _ => none
  value := .Unhealthy
  handlers := []

/-! ## What the status should say -/

namespace State

/-- The peer of each connection, as the peer store has it now. -/
def peers (s : State) : List (Option (List String)) := s.connections.map s.protocols

/-- The peer supports both protocols. -/
def servesBoth (s : State) (p : PeerId) : Bool :=
  supports FilterCodecs.SUBSCRIBE (s.protocols p) && supports LightPushCodec (s.protocols p)

/-- The distinct connected peers that support both protocols. -/
def servicePeers (s : State) : List PeerId := (s.connections.filter s.servesBoth).dedup

/-- The status is the one of the present. -/
def Reflects (s : State) : Prop :=
  (s.connections = [] → s.value = .Unhealthy) ∧ (2 ≤ s.servicePeers.length → s.value = .SufficientlyHealthy) ∧
    (s.servicePeers.length = 1 → s.value = .MinimallyHealthy)

instance (s : State) : Decidable s.Reflects := inferInstanceAs (Decidable (_ ∧ _ ∧ _))

/-- A lone peer with both protocols is counted as one of each, or the status said so before and is not raised. -/
def CountsLone (s : State) : Prop :=
  s.servicePeers.length = 1 →
    filterPeers s.peers = 1 ∧ lightPushPeers s.peers = 1 ∨
      s.value = .MinimallyHealthy ∧ ¬(2 ≤ filterPeers s.peers ∧ 2 ≤ lightPushPeers s.peers)

instance (s : State) : Decidable s.CountsLone := inferInstanceAs (Decidable (_ → _))

/-- What a handler has that sees the present. -/
def present (s : State) : List Lookup := s.connections.map fun p => ⟨p, some (s.protocols p)⟩

end State

/-- The handler that ends last sees the present, and a lone peer with both protocols counts. -/
def SeesPresent (s : State) : Event → Prop
  | .resumed handler => s.handlers = [handler] → handler = s.present ∧ s.CountsLone
  | _ => True

instance (s : State) : ∀ e : Event, Decidable (SeesPresent s e)
  | .resumed handler => inferInstanceAs (Decidable (s.handlers = [handler] → handler = s.present ∧ s.CountsLone))
  | .peerChange .. | .answered .. => isTrue trivial

/-! ## Counts -/

theorem length_filter_map_peers (s : State) (codec : String) :
    (s.peers.filter (supports codec)).length =
      (s.connections.filter fun p => supports codec (s.protocols p)).length := by
  rw [State.peers, List.filter_map, List.length_map]
  rfl

/-- The distinct peers with both protocols are at most the connections whose peer has one of them. -/
theorem servicePeers_le (s : State) {codec : String} (h : ∀ p, s.servesBoth p → supports codec (s.protocols p)) :
    s.servicePeers.length ≤ (s.peers.filter (supports codec)).length := by
  rw [length_filter_map_peers]
  calc s.servicePeers.length ≤ (s.connections.filter s.servesBoth).length := (List.dedup_sublist _).length_le
    _ ≤ _ := (List.monotone_filter_right s.connections h).length_le

theorem servicePeers_le_filterPeers (s : State) : s.servicePeers.length ≤ filterPeers s.peers :=
  servicePeers_le s fun _ hp => (Bool.and_eq_true _ _ ▸ hp : _ ∧ _).1

theorem servicePeers_le_lightPushPeers (s : State) : s.servicePeers.length ≤ lightPushPeers s.peers :=
  servicePeers_le s fun _ hp => (Bool.and_eq_true _ _ ▸ hp : _ ∧ _).2

/-- Without connections there are no peers. -/
theorem servicePeers_of_nil {s : State} (h : s.connections = []) : s.servicePeers = [] := by
  simp [State.servicePeers, h]

/-! ## A handler that sees the present -/

/-- Where it ends, the status is the one of the present exactly if a lone peer with both protocols counts. -/
theorem reflects_iff (s : State) (handlers : List (List Lookup)) :
    State.Reflects { s with value := onPeerChange s.value s.peers, handlers } ↔ s.CountsLone := by
  have hfilter := servicePeers_le_filterPeers s
  have hlightPush := servicePeers_le_lightPushPeers s
  have hlength : s.peers.length = s.connections.length := List.length_map _
  change (s.connections = [] → onPeerChange s.value s.peers = _) ∧ (2 ≤ s.servicePeers.length → _) ∧
    (s.servicePeers.length = 1 → _) ↔ _
  unfold State.CountsLone onPeerChange
  by_cases hnil : s.connections = []
  · simp [hlength, servicePeers_of_nil hnil, hnil]
  have hpeers : s.peers.length ≠ 0 := by
    rw [hlength]
    exact fun h => hnil (List.length_eq_zero_iff.1 h)
  rw [if_neg hpeers]
  by_cases htwo : filterPeers s.peers ≥ 2 ∧ lightPushPeers s.peers ≥ 2
  · -- two of each: the status is raised, so that a lone peer does not count
    have hne : ¬(filterPeers s.peers = 1 ∧ lightPushPeers s.peers = 1) := by omega
    simp [htwo, hne, hnil]
  · rw [if_neg htwo]
    have hfew : ¬2 ≤ s.servicePeers.length := fun h => htwo ⟨Nat.le_trans h hfilter, Nat.le_trans h hlightPush⟩
    by_cases hone : filterPeers s.peers = 1 ∧ lightPushPeers s.peers = 1
    · simp [hone, hfew, hnil]
    · rw [if_neg hone]
      simp [hfew, hnil, hone, htwo]

/-- It has the peers of the present. -/
theorem mapM_peer_present (s : State) : s.present.mapM Lookup.peer = some s.peers := by
  unfold State.present State.peers
  induction s.connections with
  | nil => rfl
  | cons p connections ih =>
    rw [List.map_cons, List.mapM_cons, ih]
    rfl

/-! ## Runs -/

/-- A step under the condition leaves the status of the present when no handler is left. -/
theorem atRest_step (s : State) (e : Event) (s' : State) (hcond : SeesPresent s e) (h : step s e = some s')
    (hrest : s'.handlers = []) : s'.Reflects := by
  cases e with
  | peerChange connections protocols =>
    cases h
    cases hrest
  | answered handler index rejected =>
    obtain ⟨handlers, -, h⟩ := Option.bind_eq_some_iff.1 h
    obtain ⟨lookup, -, h⟩ := Option.bind_eq_some_iff.1 h
    obtain ⟨-, -, h⟩ := Option.bind_eq_some_iff.1 h
    cases h
    cases hrest
  | resumed handler =>
    obtain ⟨handlers, htake, h⟩ := Option.bind_eq_some_iff.1 h
    obtain ⟨peers, hpeers, h⟩ := Option.bind_eq_some_iff.1 h
    cases h
    change handlers = [] at hrest
    rw [hrest] at htake
    obtain ⟨rfl, hcounts⟩ := hcond (eq_singleton_of_take htake)
    cases hpeers.symm.trans (mapM_peer_present s)
    exact (reflects_iff s handlers).2 hcounts

/-- **In every run in which the handler that ends last sees the present, with a lone peer that counts, the status is the
one of the present whenever no handler runs.** -/
theorem healthAtRest_of_seesPresent (es : List Event) {s : State} (hrun : run step init es = some s)
    (hmeets : Meets step SeesPresent init es) (hrest : s.handlers = []) : s.Reflects := by
  have hstep : ∀ s e s', (s.handlers = [] → s.Reflects) → SeesPresent s e → step s e = some s' →
      s'.handlers = [] → s'.Reflects :=
    fun s e s' _ hcond h hrest => atRest_step s e s' hcond h hrest
  exact run_invariant_of_meets hstep es (fun _ => by decide) hmeets hrun hrest

/-- Every peer supports both protocols. -/
def both (_ : PeerId) : Option (List String) := some [FilterCodecs.SUBSCRIBE, LightPushCodec]

/-- A peer connects, is looked up, and disconnects. -/
def inTurn : List Event :=
  [.peerChange ["a"] both, .answered [⟨"a", none⟩] 0 false, .resumed [⟨"a", some (both "a")⟩], .peerChange [] both,
    .resumed []]

theorem healthAtRest_inTurn : ∃ s, run step init inTurn = some s ∧ s.Reflects :=
  ⟨_, rfl, healthAtRest_of_seesPresent inTurn rfl (by decide) rfl⟩

/-! ## A handler that ends late -/

/-- A peer connects and disconnects, and the handler of the connect ends last. -/
def late : List Event :=
  let waiting : List Lookup := [⟨"a", none⟩]
  let answered : List Lookup := [⟨"a", some (both "a")⟩]
  [.peerChange ["a"] both, .peerChange [] both, .answered waiting 0 false, .resumed [], .resumed answered]

/-- A peer connects a second time. -/
def twice : List Event :=
  let lookups : List Lookup := [⟨"a", none⟩, ⟨"a", none⟩]
  let first : List Lookup := [⟨"a", some (both "a")⟩, ⟨"a", none⟩]
  [.peerChange ["a", "a"] both, .answered lookups 0 false, .answered first 1 false,
    .resumed [⟨"a", some (both "a")⟩, ⟨"a", some (both "a")⟩]]

/-- The runs end with no handler left; after the first the status is minimally healthy without a connection, after the
second it is sufficiently healthy with one peer. -/
theorem not_reflects :
    ((run step init late).any fun s =>
      s.handlers.isEmpty && s.connections.isEmpty && s.value == .MinimallyHealthy && !decide s.Reflects) = true ∧
    ((run step init twice).any fun s =>
      s.handlers.isEmpty && s.servicePeers == ["a"] && s.value == .SufficientlyHealthy &&
        !decide s.Reflects) = true := by
  decide

end JsWaku.HealthIndicator
