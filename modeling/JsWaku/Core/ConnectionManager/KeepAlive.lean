import JsWaku.Core.ConnectionManager.Dials
import JsWaku.Core.ConnectionManager.Network
import JsWaku.Core.KeepAliveManager

/-!
# Connections that are kept alive

The connection manager together with its `KeepAliveManager`: `peer:connect` and the end of a dial start the timers of a
peer, `peer:disconnect` and `dropConnection` stop them, and `stop` stops all and removes the listeners. A dial ends at a
lookup of tags, and the connection may have closed by then; a connection that is dropped is hung up after its timers are
stopped, and stays open meanwhile.

The peers with a ping timer are those with a connection in every state of a run if and only if each step keeps the two in
step (`InStep`), and without a relay the live intervals are one for each peer with a timer if and only if `stop` finds
none live (`keptAlive_iff`).
-/

namespace JsWaku.ConnectionManager

open Transition
open KeepAliveManager (Env Manager PeerIdObject)

/-! ## The system -/

/-- A connection manager with its keep-alive manager; whether its listeners are there. -/
structure System where
  manager : State
  keepAlive : Manager
  listening : Bool

/-- An event of the connection manager, or a call of it from outside. -/
inductive Happening
  | event (e : Event)
  | dropConnection (peerId : PeerId)
  | stop

/-- What happens, with the `PeerId` object that is at hand and the mesh peers of each topic then. -/
structure SystemEvent where
  happening : Happening
  object : ℕ
  mesh : String → List PeerId

/-- A call of the keep-alive manager. -/
inductive KeepAliveCall
  | start (peerId : PeerId)
  | stop (peerId : PeerId)
  | stopAll

/-- An error that the code throws itself, as `dialPeer` reads it; for the message of a native error stands its name. -/
def Caught.ofError : JsError → Caught
  | .error message => .error message
  | .rangeError => .error "RangeError"
  | .typeError => .error "TypeError"

/-- What happens, with what its call of `start` came to. -/
def Happening.withKeepAlive (outcome : Except JsError Unit) : Happening → Happening
  | .event (.connectionOpened conn _) => .event (.connectionOpened conn outcome)
  | .event (.tagged peerId dialAttempt tagNames _) =>
    .event (.tagged peerId dialAttempt tagNames (outcome.mapError Caught.ofError))
  | happening => happening

/-- A step without listeners: what libp2p tells is not heard. -/
def unheard (options : Options) (s : State) : Event → Option State
  | .discovered _ => some s
  | .connectionOpened conn _ =>
    if s.connections.any (·.id = conn.id) then none else some { s with connections := s.connections ++ [conn] }
  | .connectionClosed conn =>
    if conn ∈ s.connections then some { s with connections := s.connections.erase conn } else none
  | e => ConnectionManager.step options s e

namespace System

variable (options : Options) (env : Env) (s : System)

/-- A new manager, without connections. -/
def init : System := ⟨ConnectionManager.init [], KeepAliveManager.init, true⟩

/-- The call of the keep-alive manager that is made. -/
def keepAliveCall : Happening → Option KeepAliveCall
  | .event (.connectionOpened conn _) =>
    if s.listening ∧ (s.manager.connectionsOf conn.remotePeer).isEmpty then some (.start conn.remotePeer) else none
  | .event (.connectionClosed conn) =>
    let closed := { s.manager with connections := s.manager.connections.erase conn }
    if s.listening ∧ (closed.connectionsOf conn.remotePeer).isEmpty then some (.stop conn.remotePeer) else none
  | .event (.tagged peerId _ _ _) => some (.start peerId)
  | .event (.connectLookedUp peerId tagNames) =>
    -- the handler calls `dropConnection`, which stops the timers before it hangs up
    if tagNames.contains BOOTSTRAP ∧ s.manager.bootstrapConnections.length > options.maxBootstrapPeersAllowed then
      some (.stop peerId)
    else none
  | .event _ => none
  | .dropConnection peerId => some (.stop peerId)
  | .stop => some .stopAll

/-- What becomes of the connection manager. -/
def manage : Happening → Option State
  | .event e => if s.listening then ConnectionManager.step options s.manager e else unheard options s.manager e
  | .dropConnection _ | .stop => some s.manager

/-- A step. -/
def step (e : SystemEvent) : Option System :=
  match s.keepAliveCall options e.happening with
  | some (.start peerId) =>
    let (keepAlive, outcome) := s.keepAlive.start env e.mesh ⟨peerId, e.object⟩
    (s.manage options (e.happening.withKeepAlive outcome)).map fun manager => { s with manager, keepAlive }
  | some (.stop peerId) =>
    (s.manage options e.happening).map fun manager =>
      { s with manager, keepAlive := s.keepAlive.stop ⟨peerId, e.object⟩ }
  | some .stopAll =>
    (s.manage options e.happening).map fun manager => ⟨manager, s.keepAlive.stopAll, false⟩
  | none => (s.manage options e.happening).map fun manager => { s with manager }

end System

/-- The peer has a connection. -/
def State.Connected (s : State) (p : PeerId) : Prop := ∃ conn ∈ s.connections, conn.remotePeer = p

instance (s : State) (p : PeerId) : Decidable (s.Connected p) :=
  inferInstanceAs (Decidable (∃ conn ∈ s.connections, conn.remotePeer = p))

/-- The peers with a ping timer are those with a connection, if there are to be ping timers. -/
def System.KeptAlive (env : Env) (s : System) : Prop :=
  ∀ p, s.keepAlive.pingKeepAliveTimers.has p = true ↔ env.pingKeepAlive ≠ 0 ∧ s.manager.Connected p

/-- What happens keeps connections and timers in step: a dial ends while its peer has a connection, timers are stopped
for peers without a connection only, and without listeners no peer gets its first connection or loses its last. -/
def Happening.InStep (options : Options) (s : System) : Happening → Prop
  | .event (.tagged p _ _ _) => s.manager.Connected p
  | .event (.connectLookedUp p tagNames) =>
    tagNames.contains BOOTSTRAP ∧ s.manager.bootstrapConnections.length > options.maxBootstrapPeersAllowed →
      ¬s.manager.Connected p
  | .event (.connectionOpened conn _) => s.listening ∨ s.manager.Connected conn.remotePeer
  | .event (.connectionClosed conn) =>
    s.listening ∨ { s.manager with connections := s.manager.connections.erase conn }.Connected conn.remotePeer
  | .event _ => True
  | .dropConnection p => ¬s.manager.Connected p
  | .stop => s.manager.connections = []

/-- If there are to be ping timers, connections and timers are kept in step. -/
def InStep (options : Options) (env : Env) (s : System) (e : SystemEvent) : Prop :=
  env.pingKeepAlive ≠ 0 → e.happening.InStep options s

/-- All timers are stopped only with no interval live. -/
def StopsIdle (s : System) (e : SystemEvent) : Prop :=
  match e.happening with
  | .stop => s.keepAlive.intervals = []
  | _ => True

instance (options : Options) (s : System) : ∀ happening : Happening, Decidable (happening.InStep options s)
  | .event (.tagged p _ _ _) => inferInstanceAs (Decidable (s.manager.Connected p))
  | .event (.connectLookedUp p _) => inferInstanceAs (Decidable (_ ∧ _ → ¬s.manager.Connected p))
  | .event (.connectionOpened conn _) =>
    inferInstanceAs (Decidable (s.listening = true ∨ s.manager.Connected conn.remotePeer))
  | .event (.connectionClosed conn) =>
    inferInstanceAs (Decidable (s.listening = true ∨ State.Connected _ conn.remotePeer))
  | .event (.attemptDial _) | .event (.discovered _) | .event (.listed _) | .event (.dispatched _)
  | .event (.shardLookedUp _ _) | .event (.shardWarned _ _) | .event (.bootstrapLookedUp _ _)
  | .event (.bootstrapChecked _ _) | .event (.answered _ _) | .event (.dialResolved _ _ _)
  | .event (.dialRejected _ _ _ _) | .event (.deleted _ _) | .event (.dnsDiscovered _ _) | .event (.dropped _) =>
    inferInstanceAs (Decidable True)
  | .dropConnection p => inferInstanceAs (Decidable (¬s.manager.Connected p))
  | .stop => inferInstanceAs (Decidable (s.manager.connections = []))

instance (s : System) : ∀ e : SystemEvent, Decidable (StopsIdle s e)
  | ⟨.stop, _, _⟩ => inferInstanceAs (Decidable (s.keepAlive.intervals = []))
  | ⟨.event _, _, _⟩ | ⟨.dropConnection _, _, _⟩ => inferInstanceAs (Decidable True)

instance (options : Options) (env : Env) (s : System) (e : SystemEvent) : Decidable (InStep options env s e) :=
  inferInstanceAs (Decidable (_ → _))

/-! ## Timers -/

section

variable {env : Env} {m : Manager} {mesh : String → List PeerId} {peerId : PeerIdObject}

/-- The loop of the relay timers leaves the ping timers alone. -/
theorem pingKeepAliveTimers_scheduleRelayPings (p : PeerId) (m : Manager) (intervals : List ℕ) (topics : List String) :
    (Manager.scheduleRelayPings mesh p m intervals topics).1.pingKeepAliveTimers = m.pingKeepAliveTimers := by
  induction topics generalizing m intervals with
  | nil => rfl
  | cons topic topics ih =>
    rw [Manager.scheduleRelayPings]
    split
    · exact ih m intervals
    · split
      · rfl
      · exact ih m.setInterval _

theorem pingKeepAliveTimers_startRelay (m : Manager) :
    (m.startRelay env mesh peerId).1.pingKeepAliveTimers = m.pingKeepAliveTimers := by
  unfold Manager.startRelay
  split
  · rename_i topics _
    split
    · have hloop : (Manager.scheduleRelayPings mesh peerId.text m [] topics).1.pingKeepAliveTimers =
          m.pingKeepAliveTimers := pingKeepAliveTimers_scheduleRelayPings peerId.text m [] topics
      split <;> rename_i heq <;> rw [heq] at hloop <;> exact hloop
    · rfl
  · rfl

/-- After a start the peer has a ping timer, if there are to be any; the others keep theirs. -/
theorem has_start (p : PeerId) : (m.start env mesh peerId).1.pingKeepAliveTimers.has p =
    if p = peerId.text then decide (env.pingKeepAlive ≠ 0) else m.pingKeepAliveTimers.has p := by
  rw [Manager.start, pingKeepAliveTimers_startRelay, Manager.startPing, Manager.stop_eq]
  by_cases hp : p = peerId.text
  · subst hp
    by_cases hping : env.pingKeepAlive = 0 <;> simp [hping, Map.has]
  · rw [if_neg hp]
    by_cases hping : env.pingKeepAlive = 0
    · simp [hping, Map.has, Map.get_delete_ne _ hp]
    · simp [hping, Map.has, Map.get_set_ne _ _ hp, Map.get_delete_ne _ hp]

/-- After a stop the peer has none. -/
theorem has_stop (p : PeerId) : (m.stop peerId).pingKeepAliveTimers.has p =
    if p = peerId.text then false else m.pingKeepAliveTimers.has p := by
  rw [Manager.stop_eq]
  by_cases hp : p = peerId.text
  · subst hp
    simp [Map.has]
  · simp [hp, Map.has, Map.get_delete_ne _ hp]

/-- The live intervals are the ping timers that are recorded, each for one peer. -/
structure OneEach (m : Manager) : Prop where
  live : ∀ timer, timer ∈ m.intervals ↔ ∃ p, m.pingKeepAliveTimers.get p = some timer
  unique : ∀ p q timer, m.pingKeepAliveTimers.get p = some timer → m.pingKeepAliveTimers.get q = some timer → p = q

/-- There are no other intervals, and no interval has the next number. -/
structure Exact (m : Manager) : Prop extends OneEach m where
  lt : ∀ p timer, m.pingKeepAliveTimers.get p = some timer → timer < m.nextId
  noRelay : ∀ o, m.relayKeepAliveTimers.get o = none

theorem exact_stop (h : Exact m) (peerId : PeerIdObject) : Exact (m.stop peerId) := by
  have hget : ∀ p timer, (m.pingKeepAliveTimers.delete peerId.text).get p = some timer ↔
      p ≠ peerId.text ∧ m.pingKeepAliveTimers.get p = some timer := by
    intro p timer
    by_cases hp : p = peerId.text
    · subst hp
      simp
    · simp [hp, Map.get_delete_ne _ hp]
  have hrecorded : ∀ timer, timer ∈ m.recorded peerId ↔ m.pingKeepAliveTimers.get peerId.text = some timer := by
    intro timer
    simp [Manager.recorded, h.noRelay peerId]
  rw [Manager.stop_eq]
  refine ⟨⟨fun timer => ?_, fun p q timer hp hq => ?_⟩, fun p timer hp => ?_, fun o => ?_⟩
  · simp only [List.mem_filter, decide_eq_true_eq, h.live, hrecorded, hget]
    constructor
    · rintro ⟨⟨p, hp⟩, hother⟩
      exact ⟨p, fun heq => hother (heq ▸ hp), hp⟩
    · rintro ⟨p, hne, hp⟩
      exact ⟨⟨p, hp⟩, fun hself => hne (h.unique p _ timer hp hself)⟩
  · exact h.unique p q timer ((hget p timer).1 hp).2 ((hget q timer).1 hq).2
  · exact h.lt p timer ((hget p timer).1 hp).2
  · by_cases ho : o = peerId
    · subst ho
      exact Map.get_delete_self _ _
    · exact (Map.get_delete_ne _ ho).trans (h.noRelay o)

theorem exact_start (h : Exact m) (hrelay : env.relay = none) : Exact (m.start env mesh peerId).1 := by
  have hstopped := exact_stop h peerId
  have hnone : (m.stop peerId).pingKeepAliveTimers.get peerId.text = none := by
    rw [Manager.stop_eq]
    exact Map.get_delete_self _ _
  rw [Manager.start, Manager.startRelay, hrelay]
  simp only [Manager.startPing]
  split
  · have hget : ∀ p timer, ((m.stop peerId).pingKeepAliveTimers.set peerId.text (m.stop peerId).nextId).get p = some timer ↔
        (p = peerId.text ∧ timer = (m.stop peerId).nextId) ∨ (m.stop peerId).pingKeepAliveTimers.get p = some timer := by
      intro p timer
      by_cases hp : p = peerId.text
      · subst hp
        simp [hnone, eq_comm]
      · simp [hp, Map.get_set_ne _ _ hp]
    refine ⟨⟨fun timer => ?_, fun p q timer hp hq => ?_⟩, fun p timer hp => ?_, hstopped.noRelay⟩
    · simp only [Manager.mem_setInterval, hstopped.live, hget]
      constructor
      · rintro (rfl | ⟨p, hp⟩)
        · exact ⟨_, .inl ⟨rfl, rfl⟩⟩
        · exact ⟨p, .inr hp⟩
      · rintro ⟨p, ⟨-, rfl⟩ | hp⟩
        · exact .inl rfl
        · exact .inr ⟨p, hp⟩
    · rcases (hget p timer).1 hp with ⟨rfl, rfl⟩ | hp <;> rcases (hget q _).1 hq with ⟨rfl, hnew⟩ | hq
      · rfl
      · exact absurd (hstopped.lt q _ hq) (lt_irrefl _)
      · exact absurd (hstopped.lt p _ hp) (hnew ▸ lt_irrefl _)
      · exact hstopped.unique p q _ hp hq
    · rcases (hget p timer).1 hp with ⟨-, rfl⟩ | hp
      · exact Nat.lt_succ_self _
      · exact (hstopped.lt p timer hp).trans (Nat.lt_succ_self _)
  · exact hstopped

/-- To stop all forgets the timers and clears none. -/
theorem oneEach_stopAll : OneEach m.stopAll ↔ m.intervals = [] := by
  rw [Manager.stopAll_eq]
  constructor
  · intro h
    refine List.eq_nil_iff_forall_not_mem.2 fun timer hmem => ?_
    obtain ⟨p, hp⟩ := (h.live timer).1 hmem
    cases hp
  · intro h
    refine ⟨fun timer => ?_, fun p q timer hp => by cases hp⟩
    simp [h]

theorem exact_stopAll (h : m.intervals = []) : Exact m.stopAll where
  toOneEach := oneEach_stopAll.2 h
  lt p timer hp := by
    rw [Manager.stopAll_eq] at hp
    cases hp
  noRelay o := by
    rw [Manager.stopAll_eq]
    rfl

end

/-! ## Connections -/

section

variable {options : Options} {env : Env} {s s' : State} {p : PeerId}

theorem connectionsOf_isEmpty_iff : (s.connectionsOf p).isEmpty = true ↔ ¬s.Connected p := by
  simp [State.connectionsOf, State.Connected, List.filter_eq_nil_iff]

theorem connected_congr (h : s'.connections = s.connections) : s'.Connected p ↔ s.Connected p := by
  rw [State.Connected, State.Connected, h]

/-- The peer has a connection after the event. -/
def State.ConnectedAfter (s : State) (p : PeerId) : Event → Prop
  | .connectionOpened conn _ => conn.remotePeer = p ∨ s.Connected p
  | .connectionClosed conn => { s with connections := s.connections.erase conn }.Connected p
  | _ => s.Connected p

theorem connected_step {e : Event} (h : step options s e = some s') (p : PeerId) :
    s'.Connected p ↔ s.ConnectedAfter p e := by
  have hspec := network_spec h
  cases e with
  | attemptDial | discovered | listed | dispatched | shardLookedUp | shardWarned | bootstrapLookedUp | bootstrapChecked
  | answered | dialResolved | dialRejected | deleted | dnsDiscovered => exact connected_congr hspec.connections
  | tagged q dialAttempt tagNames keepAlive =>
    refine (connected_congr hspec.connections).trans ?_
    simp only [State.Connected, State.recordDial, List.mem_map]
    constructor
    · rintro ⟨conn', ⟨conn, hconn, rfl⟩, hp⟩
      refine ⟨conn, hconn, ?_⟩
      split at hp <;> exact hp
    · rintro ⟨conn, hconn, hp⟩
      refine ⟨_, ⟨conn, hconn, rfl⟩, ?_⟩
      split <;> exact hp
  | connectionOpened conn keepAlive =>
    have hopened : s'.connections = s.connections ++ [conn] := by
      rw [hspec]
      split <;> rfl
    simp only [State.Connected, hopened, List.mem_append, List.mem_singleton, or_and_right, exists_or, exists_eq_left]
    exact or_comm
  | connectionClosed conn =>
    obtain ⟨-, hspec⟩ := hspec
    refine connected_congr ?_
    rw [hspec, State.setP2PNetworkDisconnected]
    split
    · split <;> rfl
    · rfl
  | connectLookedUp q tagNames =>
    obtain ⟨s₀, hs₀, rfl⟩ := hspec
    refine connected_congr ?_
    rw [(resume_eq hs₀).2, State.connectLookedUp]
    split <;> rfl
  | dropped q =>
    obtain ⟨s₀, hs₀, rfl⟩ := hspec
    refine connected_congr ?_
    rw [(resume_eq hs₀).2]
    rfl

theorem connected_unheard {e : Event} (h : unheard options s e = some s') (p : PeerId) :
    s'.Connected p ↔ s.ConnectedAfter p e := by
  cases e with
  | discovered q =>
    cases h
    exact Iff.rfl
  | connectionOpened conn keepAlive =>
    rw [unheard] at h
    split at h
    · cases h
    · cases h
      simp only [State.Connected, List.mem_append, List.mem_singleton, or_and_right, exists_or, exists_eq_left]
      exact or_comm
  | connectionClosed conn =>
    rw [unheard] at h
    split at h
    · cases h
      exact Iff.rfl
    · cases h
  | attemptDial | listed | dispatched | shardLookedUp | shardWarned | bootstrapLookedUp | bootstrapChecked | answered
  | dialResolved | dialRejected | tagged | deleted | dnsDiscovered | connectLookedUp | dropped =>
    simp only [unheard] at h
    exact connected_step h p

end

section

variable {options : Options} {env : Env} {s s' : System} {e : SystemEvent} {manager : State}

theorem connected_manage {e : Event} (h : s.manage options (.event e) = some manager) (p : PeerId) :
    manager.Connected p ↔ s.manager.ConnectedAfter p e := by
  rw [System.manage] at h
  split at h
  · exact connected_step h p
  · exact connected_unheard h p

/-- A connection that closes was open. -/
theorem mem_of_closed {conn : Connection} (h : s.manage options (.event (.connectionClosed conn)) = some manager) :
    conn ∈ s.manager.connections := by
  rw [System.manage] at h
  split at h
  · exact (network_spec h).1
  · rw [unheard] at h
    split at h
    · assumption
    · cases h

/-- A connection that closes matters to its peer only. -/
theorem connected_erase {s : State} {conn : Connection} {p : PeerId} (hp : p ≠ conn.remotePeer) :
    State.Connected { s with connections := s.connections.erase conn } p ↔ s.Connected p := by
  refine exists_congr fun conn' => and_congr_left fun hpeer => List.mem_erase_of_ne ?_
  rintro rfl
  exact hp hpeer.symm

/-! ## Steps -/

section

variable {q : PeerId} {object : ℕ} {mesh : String → List PeerId} {listening : Bool}

/-- A start of a peer that the others do not notice. -/
theorem keptAlive_start (hkept : s.KeptAlive env) (hothers : ∀ p, p ≠ q → (manager.Connected p ↔ s.manager.Connected p)) :
    System.KeptAlive env ⟨manager, (s.keepAlive.start env mesh ⟨q, object⟩).1, listening⟩ ↔
      (env.pingKeepAlive ≠ 0 → manager.Connected q) := by
  have hself : ∀ p, p = q → (((s.keepAlive.start env mesh ⟨q, object⟩).1.pingKeepAliveTimers.has p = true ↔
      env.pingKeepAlive ≠ 0 ∧ manager.Connected p) ↔ (env.pingKeepAlive ≠ 0 → manager.Connected q)) := by
    rintro p rfl
    rw [has_start, if_pos rfl, decide_eq_true_eq]
    tauto
  constructor
  · exact fun h => (hself q rfl).1 (h q)
  · intro h p
    by_cases hp : p = q
    · exact (hself p hp).2 h
    · show (s.keepAlive.start env mesh ⟨q, object⟩).1.pingKeepAliveTimers.has p = true ↔ _
      rw [has_start, if_neg hp, hothers p hp]
      exact hkept p

/-- A stop of a peer that the others do not notice. -/
theorem keptAlive_stop (hkept : s.KeptAlive env) (hothers : ∀ p, p ≠ q → (manager.Connected p ↔ s.manager.Connected p)) :
    System.KeptAlive env ⟨manager, s.keepAlive.stop ⟨q, object⟩, listening⟩ ↔
      (env.pingKeepAlive ≠ 0 → ¬manager.Connected q) := by
  have hself : ∀ p, p = q → (((s.keepAlive.stop ⟨q, object⟩).pingKeepAliveTimers.has p = true ↔
      env.pingKeepAlive ≠ 0 ∧ manager.Connected p) ↔ (env.pingKeepAlive ≠ 0 → ¬manager.Connected q)) := by
    rintro p rfl
    rw [has_stop, if_pos rfl]
    simp
  constructor
  · exact fun h => (hself q rfl).1 (h q)
  · intro h p
    by_cases hp : p = q
    · exact (hself p hp).2 h
    · show (s.keepAlive.stop ⟨q, object⟩).pingKeepAliveTimers.has p = true ↔ _
      rw [has_stop, if_neg hp, hothers p hp]
      exact hkept p

/-- A stop of all. -/
theorem keptAlive_stopAll : System.KeptAlive env ⟨manager, s.keepAlive.stopAll, listening⟩ ↔
    (env.pingKeepAlive ≠ 0 → manager.connections = []) := by
  have hnone : ∀ p, s.keepAlive.stopAll.pingKeepAliveTimers.has p = false := by
    intro p
    rw [Manager.stopAll_eq]
    rfl
  simp only [System.KeptAlive, hnone, Bool.false_eq_true, false_iff, not_and]
  constructor
  · intro h hping
    refine List.eq_nil_iff_forall_not_mem.2 fun conn hmem => h conn.remotePeer hping ⟨conn, hmem, rfl⟩
  · rintro h p hping ⟨conn, hmem, -⟩
    rw [h hping] at hmem
    cases hmem

/-- The timers stay, and only one peer may notice. -/
theorem keptAlive_keep (hkept : s.KeptAlive env) (hothers : ∀ p, p ≠ q → (manager.Connected p ↔ s.manager.Connected p)) :
    System.KeptAlive env ⟨manager, s.keepAlive, listening⟩ ↔
      (env.pingKeepAlive ≠ 0 → (manager.Connected q ↔ s.manager.Connected q)) := by
  constructor
  · intro h hping
    have hthen := (h q).symm.trans (hkept q)
    simpa [hping] using hthen
  · intro h p
    refine (hkept p).trans (and_congr_right fun hping => ?_)
    by_cases hp : p = q
    · exact hp ▸ (h hping).symm
    · exact (hothers p hp).symm

theorem keptAlive_same (hkept : s.KeptAlive env) (hsame : ∀ p, manager.Connected p ↔ s.manager.Connected p) :
    System.KeptAlive env ⟨manager, s.keepAlive, listening⟩ := by
  intro p
  rw [hsame p]
  exact hkept p

end

/-- A step keeps the timers of the peers with a connection, exactly where it keeps the two in step. -/
theorem keptAlive_step (hkept : s.KeptAlive env) (h : s.step options env e = some s') :
    s'.KeptAlive env ↔ InStep options env s e := by
  obtain ⟨happening, object, mesh⟩ := e
  rw [InStep]
  cases happening with
  | dropConnection q =>
    cases h
    exact keptAlive_stop hkept fun p _ => Iff.rfl
  | stop =>
    cases h
    exact keptAlive_stopAll
  | event event =>
    cases event with
    | attemptDial | discovered | listed | dispatched | shardLookedUp | shardWarned | bootstrapLookedUp
    | bootstrapChecked | answered | dialResolved | dialRejected | deleted | dnsDiscovered | dropped =>
      simp only [System.step, System.keepAliveCall] at h
      obtain ⟨manager, hstep, rfl⟩ := Option.map_eq_some_iff.1 h
      exact iff_of_true (keptAlive_same hkept (connected_manage hstep)) fun _ => trivial
    | tagged q dialAttempt tagNames keepAlive =>
      simp only [System.step, System.keepAliveCall] at h
      obtain ⟨manager, hstep, rfl⟩ := Option.map_eq_some_iff.1 h
      have hconnected : ∀ p, manager.Connected p ↔ s.manager.Connected p := connected_manage hstep
      refine (keptAlive_start hkept fun p _ => hconnected p).trans ?_
      rw [hconnected q]
      exact Iff.rfl
    | connectLookedUp q tagNames =>
      simp only [System.step, System.keepAliveCall] at h
      by_cases hdrops : tagNames.contains BOOTSTRAP ∧
          s.manager.bootstrapConnections.length > options.maxBootstrapPeersAllowed
      · rw [if_pos hdrops] at h
        obtain ⟨manager, hstep, rfl⟩ := Option.map_eq_some_iff.1 h
        have hconnected : ∀ p, manager.Connected p ↔ s.manager.Connected p := connected_manage hstep
        refine (keptAlive_stop hkept fun p _ => hconnected p).trans ?_
        rw [hconnected q]
        exact forall_congr' fun _ => ⟨fun hnot _ => hnot, fun hnot => hnot hdrops⟩
      · rw [if_neg hdrops] at h
        obtain ⟨manager, hstep, rfl⟩ := Option.map_eq_some_iff.1 h
        exact iff_of_true (keptAlive_same hkept (connected_manage hstep)) fun _ hyes => absurd hyes hdrops
    | connectionOpened conn keepAlive =>
      simp only [System.step, System.keepAliveCall] at h
      by_cases hfirst : s.listening = true ∧ (s.manager.connectionsOf conn.remotePeer).isEmpty = true
      · rw [if_pos hfirst] at h
        obtain ⟨manager, hstep, rfl⟩ := Option.map_eq_some_iff.1 h
        have hconnected : ∀ p, manager.Connected p ↔ conn.remotePeer = p ∨ s.manager.Connected p :=
          connected_manage hstep
        have hothers : ∀ p, p ≠ conn.remotePeer → (manager.Connected p ↔ s.manager.Connected p) :=
          fun p hp => (hconnected p).trans (or_iff_right (Ne.symm hp))
        refine (keptAlive_start hkept hothers).trans (iff_of_true (fun _ => (hconnected _).2 (.inl rfl)) ?_)
        exact fun _ => Or.inl hfirst.1
      · rw [if_neg hfirst] at h
        obtain ⟨manager, hstep, rfl⟩ := Option.map_eq_some_iff.1 h
        have hconnected : ∀ p, manager.Connected p ↔ conn.remotePeer = p ∨ s.manager.Connected p :=
          connected_manage hstep
        have hothers : ∀ p, p ≠ conn.remotePeer → (manager.Connected p ↔ s.manager.Connected p) :=
          fun p hp => (hconnected p).trans (or_iff_right (Ne.symm hp))
        have hagain : s.listening = true → s.manager.Connected conn.remotePeer :=
          fun hl => not_not.1 fun hno => hfirst ⟨hl, connectionsOf_isEmpty_iff.2 hno⟩
        refine (keptAlive_keep hkept hothers).trans (forall_congr' fun _ => ?_)
        rw [hconnected, Happening.InStep, or_iff_right_of_imp hagain]
        simp
    | connectionClosed conn =>
      simp only [System.step, System.keepAliveCall] at h
      by_cases hlast : s.listening = true ∧ (State.connectionsOf
          { s.manager with connections := s.manager.connections.erase conn } conn.remotePeer).isEmpty = true
      · rw [if_pos hlast] at h
        obtain ⟨manager, hstep, rfl⟩ := Option.map_eq_some_iff.1 h
        have hconnected := connected_manage hstep
        refine (keptAlive_stop hkept fun p hp => (hconnected p).trans (connected_erase hp)).trans ?_
        rw [hconnected]
        exact iff_of_true (fun _ => connectionsOf_isEmpty_iff.1 hlast.2) fun _ => Or.inl hlast.1
      · rw [if_neg hlast] at h
        obtain ⟨manager, hstep, rfl⟩ := Option.map_eq_some_iff.1 h
        have hconnected := connected_manage hstep
        have hopen : s.manager.Connected conn.remotePeer := ⟨conn, mem_of_closed hstep, rfl⟩
        have hstill : s.listening = true → State.Connected
            { s.manager with connections := s.manager.connections.erase conn } conn.remotePeer :=
          fun hl => not_not.1 fun hno => hlast ⟨hl, connectionsOf_isEmpty_iff.2 hno⟩
        refine (keptAlive_keep hkept fun p hp => (hconnected p).trans (connected_erase hp)).trans
          (forall_congr' fun _ => ?_)
        rw [hconnected, Happening.InStep, or_iff_right_of_imp hstill]
        exact iff_true_right hopen

/-- Without a relay a step keeps the live intervals those that are recorded, exactly where it stops all with none
live. -/
theorem oneEach_step (hrelay : env.relay = none) (hexact : Exact s.keepAlive) (h : s.step options env e = some s') :
    (OneEach s'.keepAlive ↔ StopsIdle s e) ∧ (StopsIdle s e → Exact s'.keepAlive) := by
  obtain ⟨happening, object, mesh⟩ := e
  cases happening with
  | stop =>
    cases h
    exact ⟨oneEach_stopAll, exact_stopAll⟩
  | dropConnection q =>
    cases h
    have hthen := exact_stop hexact ⟨q, object⟩
    exact ⟨iff_of_true hthen.toOneEach trivial, fun _ => hthen⟩
  | event event =>
    have hthen : Exact s'.keepAlive := by
      unfold System.step at h
      split at h
      · obtain ⟨manager, -, rfl⟩ := Option.map_eq_some_iff.1 h
        exact exact_start hexact hrelay
      · obtain ⟨manager, -, rfl⟩ := Option.map_eq_some_iff.1 h
        exact exact_stop hexact _
      · rename_i hcall
        exact absurd hcall (by cases event <;> simp [System.keepAliveCall])
      · obtain ⟨manager, -, rfl⟩ := Option.map_eq_some_iff.1 h
        exact hexact
    exact ⟨iff_of_true hthen.toOneEach trivial, fun _ => hthen⟩

theorem keptAlive_init (env : Env) : System.init.KeptAlive env := by
  intro p
  refine iff_of_false (by simp [System.init, KeepAliveManager.init, Map.has]) ?_
  rintro ⟨-, conn, hmem, -⟩
  cases hmem

theorem exact_init : Exact KeepAliveManager.init where
  live timer := by simp [KeepAliveManager.init]
  unique p q timer hp := by cases hp
  lt p timer hp := by cases hp
  noRelay _ := rfl

/-- **Keep-alive timers match connections.** In every state of a run the peers with a ping timer are those with a
connection, if and only if every step of the run keeps the two in step. Without a relay the live intervals are in every
state of a run one for each peer with a timer, if and only if `stop` is called with no interval live. -/
theorem keptAlive_iff (options : Options) (env : Env) (es : List SystemEvent) (s : System)
    (hrun : run (System.step options env) System.init es = some s) :
    ((∀ es₁ es₂ t, es = es₁ ++ es₂ → run (System.step options env) System.init es₁ = some t → t.KeptAlive env) ↔
      Meets (System.step options env) (InStep options env) System.init es) ∧
    (env.relay = none →
      ((∀ es₁ es₂ t, es = es₁ ++ es₂ → run (System.step options env) System.init es₁ = some t → OneEach t.keepAlive) ↔
        Meets (System.step options env) StopsIdle System.init es)) := by
  refine ⟨invariant_iff_meets (fun s e s' hkept hstep => keptAlive_step hkept hstep) es (keptAlive_init env) hrun, ?_⟩
  intro hrelay
  exact holds_iff_meets (K := fun t => Exact t.keepAlive) (P := fun t => OneEach t.keepAlive)
    (fun s e s' hexact _ hstep => oneEach_step hrelay hexact hstep) es exact_init exact_init.toOneEach hrun

end

/-! ## A run -/

/-- Events of the connection manager, with one object for each peer and no mesh. -/
def events (es : List Event) : List SystemEvent := es.map fun e => ⟨.event e, 0, fun _ => []⟩

/-- A dial whose connection opens before it ends. -/
def dialedRun : List SystemEvent :=
  events ([.listed ["a"]] ++ passes "a" ++
    [.connectionOpened ⟨0, "a", []⟩ (.ok ()), .dialResolved "a" 0 false, .tagged "a" 0 [] (.ok ())])

/-- Its peer has one timer, the second that was started. -/
theorem keptAlive_iff_dialedRun : ∃ s, run (System.step oneBootstrap ⟨60, 300, none⟩) System.init dialedRun = some s ∧
    s.KeptAlive ⟨60, 300, none⟩ ∧ OneEach s.keepAlive ∧ s.keepAlive.intervals = [1] := by
  have hrun : (run (System.step oneBootstrap ⟨60, 300, none⟩) System.init dialedRun).isSome = true := by decide
  obtain ⟨s, hs⟩ := Option.isSome_iff_exists.1 hrun
  have hintervals : ∀ s ∈ run (System.step oneBootstrap ⟨60, 300, none⟩) System.init dialedRun,
      s.keepAlive.intervals = [1] := by decide
  obtain ⟨hkept, honeEach⟩ := keptAlive_iff oneBootstrap ⟨60, 300, none⟩ dialedRun s hs
  exact ⟨s, hs, hkept.2 (by decide) dialedRun [] s rfl hs, (honeEach rfl).2 (by decide) dialedRun [] s rfl hs,
    hintervals s hs⟩

end JsWaku.ConnectionManager
