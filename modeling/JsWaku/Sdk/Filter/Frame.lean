import JsWaku.Sdk.Filter.Model

/-!
# What the code of a subscription leaves alone

Most segments of code only suspend further calls, lock connections and write fields that a property does not depend on.
A relation between the states before and after a segment that allows for these (`IsFrame`) holds of every function of
the monitor, and with the keep-alive also of the rest (`IsKeepAliveFrame`). `Quiet s s'` is such a relation: it leaves
alone the delivery of messages and the peers of the monitor. A call in progress that matters to either (`Task.isActive`)
is a request under way over a connection or a `pushMessage`. `step_spec` says what each step does beyond that.
-/

namespace JsWaku.Filter

open Transition

/-- A request under way over a connection, or a `pushMessage`. -/
def Task.isActive : Task → Bool
  | exchanging _ _ | pushing _ _ => true
  | _ => false

/-- The connection with this number is open, and to this peer. -/
def State.IsOpen (s : State) (id : ℕ) (p : PeerId) : Prop := ∃ c ∈ s.connections, c.id = id ∧ c.remotePeer = p

/-- The peer has a locked connection. -/
def State.IsLocked (s : State) (p : PeerId) : Prop := p ∈ PeerManager.getPeers s.connections

/-! ## Frames -/

/-- `R` relates the state to what the requests and the listeners of the monitor make of it. -/
structure IsFrame (R : State → State → Prop) : Prop where
  refl : ∀ s, R s s
  trans : ∀ {s₁ s₂ s₃}, R s₁ s₂ → R s₂ s₃ → R s₁ s₃
  nextId : ∀ s, R s { s with nextId := s.nextId + 1 }
  pingFailedAttempts : ∀ s attempts, R s { s with monitor := { s.monitor with pingFailedAttempts := attempts } }
  lockPeerIfNeeded : ∀ s n peerId, R s { s with connections := PeerManager.lockPeerIfNeeded n s.connections peerId }
  requestRenew : ∀ s n peerId, R s { s with connections := (PeerManager.requestRenew n s.connections peerId).1 }
  resubscribing : ∀ s peers, R s (s.spawn (.resubscribing peers))
  subscribing : ∀ s peerId attempt handler,
    R s (s.spawn (.opening ⟨.subscribe s.subscriptionCallbacks.keys, peerId, .retry attempt handler⟩))
  pinging : ∀ s peerId renewOnFirstFail handler,
    R s (s.spawn (.opening ⟨.ping, peerId, .ping renewOnFirstFail handler⟩))

namespace IsFrame

variable {R : State → State → Prop} (hR : IsFrame R) {env : Env}

include hR

theorem foldl {α : Type} {f : State → α → State} (h : ∀ s a, R s (f s a)) (l : List α) (s : State) :
    R s (l.foldl f s) :=
  rel_foldl hR.refl (fun _ _ _ => hR.trans) h l s

/-- A call starts by getting its peers. -/
theorem startCall {s : State} {call : Call}
    (h : ∀ s' peers fresh, s'.nextId = s.nextId + 1 → R s' (s'.spawn (.gettingPeers s.nextId call peers fresh))) :
    R s (s.startCall call) := by
  refine hR.trans (hR.nextId s) ?_
  rw [State.startCall, State.getPeers]
  split <;> exact h _ _ _ rfl

theorem monitorSubscribe (s : State) (peerId : Option PeerId) (attempt : ℕ) (handler : Option ℕ) :
    R s (s.monitorSubscribe peerId attempt handler) := by
  unfold State.monitorSubscribe
  split
  · cases peerId with
    | none => exact hR.refl s
    | some peerId => exact hR.subscribing s peerId attempt handler
  · exact hR.refl s

theorem renew (s : State) (peerId : PeerId) (attempt : ℕ) (handler : Option ℕ) :
    R s (s.renew env peerId attempt handler) :=
  hR.trans (hR.requestRenew s env.numPeersToUse peerId) (hR.monitorSubscribe _ _ _ _)

theorem ping (s : State) (peerId : PeerId) (renewOnFirstFail : Bool) (handler : Option ℕ) :
    R s (s.ping peerId renewOnFirstFail handler) :=
  hR.pinging s peerId renewOnFirstFail handler

theorem pingAnswered (s : State) (peerId : PeerId) (renewOnFirstFail : Bool) (handler : Option ℕ) (success : Bool) :
    R s (s.pingAnswered env peerId renewOnFirstFail handler success) := by
  unfold State.pingAnswered
  split
  · exact hR.renew _ _ _ _
  · simp only
    generalize (if success = true then 0 else (s.monitor.pingFailedAttempts.get peerId).getD 0 + 1) = madeAttempts
    split
    · exact hR.trans (hR.pingFailedAttempts s _) (hR.renew _ _ _ _)
    · exact hR.pingFailedAttempts s _

theorem onPeerConnected (s : State) (peerId : PeerId) : R s (s.onPeerConnected env peerId) := by
  refine hR.trans (hR.lockPeerIfNeeded s env.numPeersToUse peerId) ?_
  unfold State.onPeerConnected
  simp only
  split
  · exact hR.refl _
  · exact hR.resubscribing _ _

theorem onPeerDisconnected (s : State) (peerId : PeerId) : R s (s.onPeerDisconnected env peerId) := by
  refine hR.trans (hR.requestRenew s env.numPeersToUse peerId) ?_
  unfold State.onPeerDisconnected
  simp only
  split
  · exact hR.refl _
  · exact hR.resubscribing _ _

/-- The handlers ask their peers after the peers of the monitor are assigned. -/
theorem resubscribe (s : State) (peers : List PeerId) :
    R { s with monitor := { s.monitor with peerIds := peers } } (s.resubscribe peers) :=
  hR.foldl (fun s _ => hR.monitorSubscribe s _ _ _) peers _

/-- The interval asks each peer of the monitor. -/
theorem intervalFired (s : State) :
    R s (s.monitor.peerIds.foldl (fun s peer => s.ping peer false none) s) :=
  hR.foldl (fun s _ => hR.ping s _ _ _) _ s

end IsFrame

/-- A frame that also leaves out the keep-alive and the handlers of the connection status. -/
structure IsKeepAliveFrame (R : State → State → Prop) : Prop extends IsFrame R where
  keepAlive : ∀ s isStarted keepAliveIntervalId intervals,
    R s { s with monitor := { s.monitor with isStarted, keepAliveIntervalId }, intervals }
  restarting : ∀ s id, R s (s.spawn (.restarting id))
  restarted : ∀ {s s' id}, s.resume (.restarting id) = some s' → R s s'

namespace IsKeepAliveFrame

variable {R : State → State → Prop} (hR : IsKeepAliveFrame R) {env : Env}

include hR

theorem startKeepAlive (s : State) : R s s.startKeepAlive := by
  unfold State.startKeepAlive
  split
  · exact hR.refl s
  · exact hR.trans (hR.nextId s) (hR.keepAlive { s with nextId := s.nextId + 1 } _ _ _)

theorem stopKeepAlive (s : State) : R s s.stopKeepAlive := by
  unfold State.stopKeepAlive
  split
  · exact hR.refl s
  · exact hR.keepAlive s _ _ _

theorem start (s : State) : R s s.start := by
  unfold State.start
  split
  · exact hR.refl s
  · exact hR.trans (hR.keepAlive s true _ _) (hR.startKeepAlive _)

theorem stop (s : State) : R s s.stop := by
  unfold State.stop
  split
  · exact hR.refl s
  · exact hR.trans (hR.keepAlive s false _ _) (hR.stopKeepAlive _)

theorem rejectHandler (s : State) (handler : Option ℕ) : R s (s.rejectHandler handler) := by
  cases handler with
  | none => exact hR.refl s
  | some id =>
    by_cases hmem : Task.restarting id ∈ s.tasks
    · have hresume : s.resume (.restarting id) = some (s.rejectHandler (some id)) := by
        simp [State.resume, take, hmem, State.rejectHandler]
      exact hR.restarted hresume
    · rw [State.rejectHandler, List.erase_of_not_mem hmem]
      exact hR.refl s

/-- The requests that are not those of a call. -/
theorem answered (s : State) {request : Request} (outcome : Except JsError Bool)
    (h : ∀ id, request.waiter ≠ .call id) : R s (s.answered env request outcome) := by
  obtain ⟨rpc, peerId, waiter⟩ := request
  cases waiter with
  | call id => exact absurd rfl (h id)
  | retry attempt handler =>
    cases outcome with
    | error e => exact hR.rejectHandler s handler
    | ok success =>
      cases success
      · exact hR.renew _ _ _ _
      · exact hR.refl s
  | ping renewOnFirstFail handler =>
    cases outcome with
    | error e => exact hR.rejectHandler s handler
    | ok success => exact hR.pingAnswered _ _ _ _ _

theorem onConnectionChange (s : State) (isConnected : Bool) : R s (s.onConnectionChange isConnected) := by
  unfold State.onConnectionChange
  split
  · exact hR.refl s
  · split
    · exact hR.stopKeepAlive s
    · have hhandler : R s { s with nextId := s.nextId + 1, tasks := s.tasks ++ [.restarting s.nextId] } :=
        hR.trans (hR.nextId s) (hR.restarting _ s.nextId)
      exact hR.trans hhandler (hR.foldl (fun s' _ => hR.ping s' _ _ _) _ _)

end IsKeepAliveFrame

/-! ## Quiet segments -/

/-- From `s` to `s'` nothing is received or delivered, the peers of the monitor and those that accepted stay the same,
connections are at most locked, and active calls neither start nor end. -/
structure Quiet (s s' : State) : Prop where
  received : s'.monitor.receivedMessages = s.monitor.receivedMessages
  invocations : s'.invocations = s.invocations
  peerIds : s'.monitor.peerIds = s.monitor.peerIds
  accepted : s'.accepted = s.accepted
  nextId : s.nextId ≤ s'.nextId
  isOpen : ∀ id p, s'.IsOpen id p ↔ s.IsOpen id p
  isLocked : ∀ p, s.IsLocked p → s'.IsLocked p
  tasks : ∀ q : Task → Bool, (∀ t, q t → t.isActive) → s'.tasks.countP q = s.tasks.countP q

namespace Quiet

theorem refl (s : State) : Quiet s s :=
  ⟨rfl, rfl, rfl, rfl, le_rfl, fun _ _ => Iff.rfl, fun _ h => h, fun _ _ => rfl⟩

theorem trans {s₁ s₂ s₃ : State} (h : Quiet s₁ s₂) (h' : Quiet s₂ s₃) : Quiet s₁ s₃ where
  received := h'.received.trans h.received
  invocations := h'.invocations.trans h.invocations
  peerIds := h'.peerIds.trans h.peerIds
  accepted := h'.accepted.trans h.accepted
  nextId := h.nextId.trans h'.nextId
  isOpen id p := (h'.isOpen id p).trans (h.isOpen id p)
  isLocked p hp := h'.isLocked p (h.isLocked p hp)
  tasks q hq := (h'.tasks q hq).trans (h.tasks q hq)

section

variable {env : Env} {s s' : State} {t : Task}

theorem spawn (s : State) (h : t.isActive = false) : Quiet s (s.spawn t) :=
  { refl s with tasks := fun q hq => by simp [State.spawn, List.countP_append, eq_false_of_imp hq h] }

theorem resume (hs : s.resume t = some s') (h : t.isActive = false) : Quiet s s' := by
  obtain ⟨tasks, htake, rfl⟩ := Option.map_eq_some_iff.1 hs
  refine { refl s with tasks := fun q hq => ?_ }
  have hcount := countP_take htake q
  rw [eq_false_of_imp hq h] at hcount
  exact hcount.symm

/-- Locking more connections. -/
theorem connections {l : List Connection} (hopen : ∀ id p, (∃ c ∈ l, c.id = id ∧ c.remotePeer = p) ↔ s.IsOpen id p)
    (hlocked : ∀ p, s.IsLocked p → p ∈ PeerManager.getPeers l) : Quiet s { s with connections := l } :=
  { refl s with isOpen := hopen, isLocked := hlocked }

theorem requestRenew (s : State) (n : ℕ) (peerId : PeerId) :
    Quiet s { s with connections := (PeerManager.requestRenew n s.connections peerId).1 } := by
  unfold PeerManager.requestRenew
  simp only
  split
  · exact refl s
  · exact connections (fun _ _ => PeerManager.exists_mem_lock _) fun _ => PeerManager.mem_getPeers_lock _

theorem lockPeerIfNeeded (s : State) (n : ℕ) (peerId : PeerId) :
    Quiet s { s with connections := PeerManager.lockPeerIfNeeded n s.connections peerId } := by
  unfold PeerManager.lockPeerIfNeeded
  split
  · exact refl s
  · exact connections (fun _ _ => PeerManager.exists_mem_lock _) fun _ => PeerManager.mem_getPeers_lock _

theorem isFrame : IsKeepAliveFrame Quiet where
  refl := refl
  trans := trans
  nextId s := { refl s with nextId := Nat.le_succ _ }
  pingFailedAttempts s _ := { refl s with }
  lockPeerIfNeeded := lockPeerIfNeeded
  requestRenew := requestRenew
  resubscribing s _ := spawn s rfl
  subscribing s _ _ _ := spawn s rfl
  pinging s _ _ _ := spawn s rfl
  keepAlive s _ _ _ := { refl s with }
  restarting s _ := spawn s rfl
  restarted hs := resume hs rfl

/-! ### The functions of calls -/

theorem startCall (s : State) (call : Call) : Quiet s (s.startCall call) :=
  isFrame.startCall fun s' _ _ _ => spawn s' rfl

theorem subscribe (s : State) (decoders : List IDecoder) (callback : Callback) :
    Quiet s (s.subscribe env decoders callback) := by
  unfold State.subscribe
  split
  · exact refl s
  · exact startCall s _

/-- A call sends its requests after the peers of the monitor are assigned. -/
theorem gotPeers (s : State) (id : ℕ) (call : Call) (peers : List PeerId) (fresh : Bool) :
    Quiet { s with monitor := { s.monitor with peerIds := if fresh then peers else s.monitor.peerIds } }
      (s.gotPeers id call peers fresh) := by
  unfold State.gotPeers
  refine Quiet.trans ?_ (spawn _ rfl)
  refine Quiet.trans ?_ (isFrame.foldl (fun s _ => spawn s rfl) peers _)
  cases fresh <;> exact refl _

theorem callSettled (s : State) (call : Call) : Quiet s (s.callSettled env call) := by
  cases call with
  | subscribe decodersArray callback =>
    refine Quiet.trans ?_ (isFrame.start (s.registerCallbacks env decodersArray callback))
    exact { refl s with }
  | unsubscribe contentTopics =>
    rw [State.callSettled]
    split
    · exact isFrame.stop s
    · exact refl s
  | unsubscribeAll =>
    refine Quiet.trans ?_ (isFrame.stop { s with subscriptionCallbacks := Map.empty })
    exact { refl s with }
  | ping => exact refl s

theorem answered (s : State) (request : Request) (outcome : Except JsError Bool) :
    Quiet s (s.answered env request outcome) := by
  obtain ⟨rpc, peerId, waiter⟩ := request
  cases waiter with
  | call id =>
    cases outcome with
    | error e => exact refl s
    | ok success => cases rpc <;> exact { refl s with }
  | retry attempt handler => exact isFrame.answered s outcome nofun
  | ping renewOnFirstFail handler => exact isFrame.answered s outcome nofun

end

end Quiet

/-! ## Steps -/

/-- What a step does beyond what is left alone, by its event. -/
def StepSpec (env : Env) (s s' : State) : Event → Prop
  | .connectionOpened peerId =>
    s' = { s with connections := s.connections ++ [⟨s.nextId, peerId, []⟩], nextId := s.nextId + 1 }
  | .connectionClosed conn =>
    ∃ accepted : List PeerId, s' = { s with connections := s.connections.erase conn, accepted } ∧
      accepted = if (∃ c ∈ s.connections.erase conn, c.remotePeer = conn.remotePeer) then s.accepted
        else s.accepted.filter (· ≠ conn.remotePeer)
  | .gotPeers id call peers fresh =>
    ∃ s₀, s.resume (.gettingPeers id call peers fresh) = some s₀ ∧
      Quiet { s₀ with monitor := { s₀.monitor with peerIds := if fresh then peers else s₀.monitor.peerIds } } s'
  | .resubscribed peers =>
    ∃ s₀, s.resume (.resubscribing peers) = some s₀ ∧
      Quiet { s₀ with monitor := { s₀.monitor with peerIds := peers } } s'
  | .streamOpened request conn =>
    conn ∈ s.connections ∧ conn.remotePeer = request.peerId ∧
      ∃ s₀, s.resume (.opening request) = some s₀ ∧ s' = (s₀.requestSent request).spawn (.exchanging request conn.id)
  | .answered request connection outcome =>
    (outcome = .ok true → s.IsOpen connection request.peerId) ∧
      ∃ s₀, s.resume (.exchanging request connection) = some s₀ ∧ Quiet (s₀.replied request outcome) s'
  | .pushed _ message => s' = s.processIncomingMessage env message
  | .decoded subscriptionCallback message =>
    subscriptionCallback.decodes env message = true ∧
      ∃ s₀, s.resume (.pushing subscriptionCallback message) = some s₀ ∧
        s' = { s₀ with invocations := s₀.invocations ++ [(subscriptionCallback.callback, message)] }
  | .notDecoded subscriptionCallback message =>
    subscriptionCallback.decodes env message = false ∧ s.resume (.pushing subscriptionCallback message) = some s'
  | _ => Quiet s s'

theorem step_spec {env : Env} {s s' : State} {e : Event} (h : step env s e = some s') : StepSpec env s s' e := by
  cases e with
  | connectionOpened peerId =>
    cases h
    rfl
  | connectionClosed conn =>
    rw [step] at h
    split at h
    · simp only at h
      split at h
      · rename_i hnone
        cases h
        refine ⟨_, rfl, ?_⟩
        rw [if_neg]
        simpa [State.connectionsOf] using hnone
      · rename_i hsome
        cases h
        refine ⟨_, rfl, ?_⟩
        rw [if_pos]
        simpa [State.connectionsOf] using hsome
    · cases h
  | peerConnected peerId =>
    cases h
    exact Quiet.isFrame.onPeerConnected s peerId
  | peerDisconnected peerId =>
    cases h
    exact Quiet.isFrame.onPeerDisconnected s peerId
  | connectionStatus isConnected =>
    cases h
    exact Quiet.isFrame.onConnectionChange s isConnected
  | intervalFired id =>
    rw [step] at h
    split at h
    · cases h
      exact Quiet.isFrame.intervalFired s
    · cases h
  | subscribe decoders callback =>
    cases h
    exact Quiet.subscribe s decoders callback
  | called call => cases call <;> cases h <;> exact Quiet.startCall s _
  | gotPeers id call peers fresh =>
    obtain ⟨s₀, hs₀, rfl⟩ := Option.map_eq_some_iff.1 h
    exact ⟨s₀, hs₀, Quiet.gotPeers s₀ id call peers fresh⟩
  | resubscribed peers =>
    obtain ⟨s₀, hs₀, rfl⟩ := Option.map_eq_some_iff.1 h
    exact ⟨s₀, hs₀, Quiet.isFrame.resubscribe s₀ peers⟩
  | streamOpened request conn =>
    rw [step] at h
    split at h
    · rename_i hconn
      obtain ⟨s₀, hs₀, rfl⟩ := Option.map_eq_some_iff.1 h
      exact ⟨hconn.1, hconn.2, s₀, hs₀, rfl⟩
    · cases h
  | streamFailed request error =>
    obtain ⟨s₀, hs₀, rfl⟩ := Option.map_eq_some_iff.1 h
    exact (Quiet.resume hs₀ rfl).trans (Quiet.answered s₀ request _)
  | answered request connection outcome =>
    rw [step] at h
    split at h
    · rename_i hopen
      obtain ⟨s₀, hs₀, rfl⟩ := Option.map_eq_some_iff.1 h
      refine ⟨?_, s₀, hs₀, Quiet.answered _ request outcome⟩
      intro houtcome
      simpa [State.IsOpen] using hopen houtcome
    · cases h
  | settled id call =>
    rw [step] at h
    split at h
    · cases h
    · obtain ⟨s₀, hs₀, rfl⟩ := Option.map_eq_some_iff.1 h
      exact (Quiet.resume hs₀ rfl).trans (Quiet.callSettled s₀ call)
  | restarted id =>
    rw [step] at h
    split at h
    · cases h
    · obtain ⟨s₀, hs₀, rfl⟩ := Option.map_eq_some_iff.1 h
      exact (Quiet.resume hs₀ rfl).trans (Quiet.isFrame.startKeepAlive s₀)
  | pushed p m =>
    cases h
    rfl
  | decoded subscriptionCallback m =>
    rw [step] at h
    split at h
    · rename_i hdecodes
      obtain ⟨s₀, hs₀, rfl⟩ := Option.map_eq_some_iff.1 h
      exact ⟨hdecodes, s₀, hs₀, rfl⟩
    · cases h
  | notDecoded subscriptionCallback m =>
    rw [step] at h
    split at h
    · cases h
    · rename_i hdecodes
      exact ⟨Bool.not_eq_true _ ▸ hdecodes, h⟩

end JsWaku.Filter
