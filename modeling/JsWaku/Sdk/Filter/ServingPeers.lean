import JsWaku.Sdk.Filter.Frame

/-!
# The peers that serve a subscription

A peer serves the subscription from when it accepts a subscribe request until it is sent an unsubscribe or all its
connections are closed. The monitor does not know all of them: `requestRenew` locks a connection and returns its peer,
which `ping` and the loop of `subscribe` send a request, but nobody puts it among `peerIds`. Conversely `peerIds` is
assigned what `getPeers` of the peer manager returns, the peers with a locked connection, so that a peer without one is
dropped. A run in which no step does either (`KeepsPeers`) keeps all peers that serve among `peerIds`
(`serving_peers_known`): what carries this is that peers which accepted, and peers that may still accept over an open
connection, are known and have a locked connection (`known_step`).
-/

namespace JsWaku.Filter

open Transition

/-! ## The invariant -/

/-- A subscribe request. -/
def Rpc.isSubscribe : Rpc → Bool
  | subscribe _ => true
  | _ => false

/-- The monitor has the peer among its own, and will have it when it next reads them from the peer manager. -/
def State.Knows (s : State) (p : PeerId) : Prop := p ∈ s.monitor.peerIds ∧ s.IsLocked p

/-- Peers that accepted are known, and so are those asked over a connection that is open. The numbers of connections
were given out before. -/
structure Known (s : State) : Prop where
  accepted : ∀ p ∈ s.accepted, s.Knows p
  exchanging : ∀ request id, request.rpc.isSubscribe = true → .exchanging request id ∈ s.tasks →
    s.IsOpen id request.peerId → s.Knows request.peerId
  exchangeId : ∀ request id, .exchanging request id ∈ s.tasks → id < s.nextId
  openId : ∀ id p, s.IsOpen id p → id < s.nextId

section

variable {env : Env} {s s' : State}

theorem known_init : Known init where
  accepted := by simp [init]
  exchanging := by simp [init]
  exchangeId := by simp [init]
  openId := by simp [init, State.IsOpen]

/-- What has no new request, connection or peer that accepted stays known, if the peers that matter do. -/
theorem Known.mono (hs : Known s) (haccepted : ∀ p ∈ s'.accepted, p ∈ s.accepted)
    (htasks : ∀ request id, .exchanging request id ∈ s'.tasks → .exchanging request id ∈ s.tasks)
    (hopen : ∀ id p, s'.IsOpen id p → s.IsOpen id p) (hid : s.nextId ≤ s'.nextId)
    (hknows : ∀ p, p ∈ s'.accepted ∨ (∃ id, s'.IsOpen id p) → s.Knows p → s'.Knows p) : Known s' where
  accepted p hp := hknows p (Or.inl hp) (hs.accepted p (haccepted p hp))
  exchanging request id hrpc ht ho :=
    hknows _ (Or.inr ⟨id, ho⟩) (hs.exchanging request id hrpc (htasks request id ht) (hopen id _ ho))
  exchangeId request id ht := (hs.exchangeId request id (htasks request id ht)).trans_le hid
  openId id p ho := (hs.openId id p (hopen id p ho)).trans_le hid

theorem Quiet.mem_tasks (h : Quiet s s') {t : Task} (ht : t.isActive = true) : t ∈ s'.tasks ↔ t ∈ s.tasks := by
  have hcount : s'.tasks.count t = s.tasks.count t :=
    h.tasks (· == t) fun u hu => by rw [eq_of_beq hu]; exact ht
  rw [← List.count_pos_iff, ← List.count_pos_iff, hcount]

theorem Quiet.known (h : Quiet s s') (hs : Known s) : Known s' := by
  refine hs.mono (fun p hp => h.accepted ▸ hp) (fun request id ht => (h.mem_tasks rfl).1 ht)
    (fun id p ho => (h.isOpen id p).1 ho) h.nextId ?_
  rintro p - ⟨hmem, hlocked⟩
  exact ⟨h.peerIds ▸ hmem, h.isLocked p hlocked⟩

/-! ## Steps -/

/-- A step that keeps the peers of the monitor in order: a subscribe request goes over a connection only to a peer of the
monitor that has a locked connection; a locked connection closes only if its peer has another one locked or none open;
and the peers assigned to the monitor, read a little before, are all that have a locked connection. -/
def KeepsPeers (s : State) : Event → Prop
  | .streamOpened request _ =>
    request.rpc.isSubscribe → request.peerId ∈ s.monitor.peerIds ∧ request.peerId ∈ PeerManager.getPeers s.connections
  | .connectionClosed conn =>
    PeerManager.isConnectionLocked conn → (∃ c ∈ s.connections.erase conn, c.remotePeer = conn.remotePeer) →
      conn.remotePeer ∈ PeerManager.getPeers (s.connections.erase conn)
  | .gotPeers _ _ peers fresh => fresh → ∀ p ∈ PeerManager.getPeers s.connections, p ∈ peers
  | .resubscribed peers => ∀ p ∈ PeerManager.getPeers s.connections, p ∈ peers
  | _ => True

instance (s : State) : ∀ e : Event, Decidable (KeepsPeers s e)
  | .streamOpened request _ => inferInstanceAs (Decidable (request.rpc.isSubscribe → _))
  | .connectionClosed conn => inferInstanceAs (Decidable (PeerManager.isConnectionLocked conn → _ → _))
  | .gotPeers _ _ _ fresh => inferInstanceAs (Decidable (fresh → _))
  | .resubscribed _ => inferInstanceAs (Decidable (∀ p ∈ _, _))
  | .connectionOpened _ | .peerConnected _ | .peerDisconnected _ | .connectionStatus _ | .intervalFired _
  | .subscribe _ _ | .called _ | .streamFailed _ _ | .answered _ _ _ | .settled _ _ | .restarted _ | .pushed _ _
  | .decoded _ _ | .notDecoded _ _ => inferInstanceAs (Decidable True)

theorem known_resume {t : Task} (hs : Known s) (h : s.resume t = some s') : Known s' := by
  obtain ⟨tasks, htake, rfl⟩ := Option.map_eq_some_iff.1 h
  exact hs.mono (fun _ hp => hp) (fun _ _ ht => mem_of_take htake ht) (fun _ _ ho => ho) le_rfl
    fun _ _ hp => hp

/-- Peers are assigned that have all the locked ones among them. -/
theorem known_assign (hs : Known s) {peers : List PeerId} (hpeers : ∀ p, s.IsLocked p → p ∈ peers) :
    Known { s with monitor := { s.monitor with peerIds := peers } } :=
  hs.mono (fun _ hp => hp) (fun _ _ ht => ht) (fun _ _ ho => ho) le_rfl fun p _ hp => ⟨hpeers p hp.2, hp.2⟩

/-- A new connection has a number that no request goes over. -/
theorem known_connectionOpened (hs : Known s) (peerId : PeerId) :
    Known { s with connections := s.connections ++ [⟨s.nextId, peerId, []⟩], nextId := s.nextId + 1 } := by
  have hknows : ∀ p, s.IsLocked p → p ∈ PeerManager.getPeers (s.connections ++ [⟨s.nextId, peerId, []⟩]) := by
    intro p hp
    obtain ⟨c, hc, hlocked⟩ := PeerManager.mem_getPeers.1 hp
    exact PeerManager.mem_getPeers.2 ⟨c, List.mem_append_left _ hc, hlocked⟩
  refine ⟨fun p hp => ⟨(hs.accepted p hp).1, hknows p (hs.accepted p hp).2⟩, ?_,
    fun request id ht => Nat.lt_succ_of_lt (hs.exchangeId request id ht), ?_⟩
  · rintro request id hrpc ht ⟨c, hc, rfl, hpeer⟩
    rcases List.mem_append.1 hc with hc | hc
    · obtain ⟨hmem, hlocked⟩ := hs.exchanging request _ hrpc ht ⟨c, hc, rfl, hpeer⟩
      exact ⟨hmem, hknows _ hlocked⟩
    · cases List.mem_singleton.1 hc
      exact absurd (hs.exchangeId request _ ht) (lt_irrefl _)
  · rintro id p ⟨c, hc, rfl, hpeer⟩
    rcases List.mem_append.1 hc with hc | hc
    · exact Nat.lt_succ_of_lt (hs.openId _ p ⟨c, hc, rfl, hpeer⟩)
    · cases List.mem_singleton.1 hc
      exact Nat.lt_succ_self _

/-- A peer keeps a locked connection or loses all. -/
theorem isLocked_erase {conn : Connection} (hC : KeepsPeers s (.connectionClosed conn)) {p : PeerId} (hp : s.IsLocked p)
    (hopen : ∃ c ∈ s.connections.erase conn, c.remotePeer = p) : p ∈ PeerManager.getPeers (s.connections.erase conn) := by
  obtain ⟨c, hc, hlocked, rfl⟩ := PeerManager.mem_getPeers.1 hp
  by_cases heq : c = conn
  · subst heq
    exact hC hlocked hopen
  · exact PeerManager.mem_getPeers.2 ⟨c, (List.mem_erase_of_ne heq).2 hc, hlocked, rfl⟩

theorem known_connectionClosed {conn : Connection} (hs : Known s) (hC : KeepsPeers s (.connectionClosed conn))
    (h : step env s (.connectionClosed conn) = some s') : Known s' := by
  obtain ⟨accepted, rfl, haccepted⟩ := step_spec h
  have hopen : ∀ id p, (∃ c ∈ s.connections.erase conn, c.id = id ∧ c.remotePeer = p) → s.IsOpen id p :=
    fun id p ⟨c, hc, hcp⟩ => ⟨c, List.mem_of_mem_erase hc, hcp⟩
  have hsub : ∀ p ∈ accepted, p ∈ s.accepted := by
    intro p hp
    rw [haccepted] at hp
    split at hp
    · exact hp
    · exact List.mem_of_mem_filter hp
  refine hs.mono hsub (fun _ _ ht => ht) hopen le_rfl ?_
  rintro p (hp | ⟨id, c, hc, -, rfl⟩) hknows
  · refine ⟨hknows.1, isLocked_erase hC hknows.2 ?_⟩
    obtain ⟨c, hc, -, rfl⟩ := PeerManager.mem_getPeers.1 hknows.2
    by_cases hpeer : c.remotePeer = conn.remotePeer
    · rw [hpeer]
      by_contra hnone
      rw [haccepted, if_neg hnone] at hp
      simp [hpeer] at hp
    · refine ⟨c, (List.mem_erase_of_ne ?_).2 hc, rfl⟩
      rintro rfl
      exact hpeer rfl
  · exact ⟨hknows.1, isLocked_erase hC hknows.2 ⟨c, hc, rfl⟩⟩

theorem known_requestSent (hs : Known s) (request : Request) : Known (s.requestSent request) := by
  unfold State.requestSent
  split
  · exact hs.mono (fun _ hp => List.mem_of_mem_filter hp) (fun _ _ ht => ht) (fun _ _ ho => ho) le_rfl
      fun _ _ hp => hp
  · exact hs.mono (fun _ hp => List.mem_of_mem_filter hp) (fun _ _ ht => ht) (fun _ _ ho => ho) le_rfl
      fun _ _ hp => hp
  · exact hs
  · exact hs

theorem known_spawn (hs : Known s) {t : Task}
    (ht : ∀ request id, t = .exchanging request id →
      id < s.nextId ∧ (request.rpc.isSubscribe = true → s.Knows request.peerId)) : Known (s.spawn t) := by
  have hmem : ∀ u, u ∈ (s.spawn t).tasks → u ∈ s.tasks ∨ u = t := by simp [State.spawn]
  refine ⟨hs.accepted, fun request id hrpc hu ho => ?_, fun request id hu => ?_, hs.openId⟩
  · rcases hmem _ hu with hu | rfl
    · exact hs.exchanging request id hrpc hu ho
    · exact (ht request id rfl).2 hrpc
  · rcases hmem _ hu with hu | rfl
    · exact hs.exchangeId request id hu
    · exact (ht request id rfl).1

theorem known_streamOpened {request : Request} {conn : Connection} (hs : Known s)
    (hC : KeepsPeers s (.streamOpened request conn)) (h : step env s (.streamOpened request conn) = some s') :
    Known s' := by
  obtain ⟨hconn, -, s₀, hs₀, rfl⟩ := step_spec h
  have hid : conn.id < s.nextId := hs.openId _ _ ⟨conn, hconn, rfl, rfl⟩
  obtain ⟨tasks, htake, rfl⟩ := Option.map_eq_some_iff.1 hs₀
  refine known_spawn (known_requestSent (known_resume hs hs₀) request) ?_
  rintro request' id ⟨⟩
  unfold State.requestSent
  split <;> rename_i hrpc
  · exact ⟨hid, fun hsub => by rw [hrpc] at hsub; cases hsub⟩
  · exact ⟨hid, fun hsub => by rw [hrpc] at hsub; cases hsub⟩
  · exact ⟨hid, hC⟩
  · exact ⟨hid, hC⟩

/-- A peer accepts over a connection that is open, and so it is known. -/
theorem known_answered {request : Request} {connection : ℕ} {outcome : Except JsError Bool} (hs : Known s)
    (h : step env s (.answered request connection outcome) = some s') : Known s' := by
  obtain ⟨hopen, s₀, hs₀, hquiet⟩ := step_spec h
  refine hquiet.known ?_
  have hs₀' := known_resume hs hs₀
  obtain ⟨tasks, htake, rfl⟩ := Option.map_eq_some_iff.1 hs₀
  unfold State.replied
  split
  · rename_i contentTopics hrpc
    have hknows : s.Knows request.peerId :=
      hs.exchanging request connection (by rw [hrpc]; rfl) (take_eq_some.1 htake).1 (hopen rfl)
    refine ⟨?_, hs₀'.exchanging, hs₀'.exchangeId, hs₀'.openId⟩
    intro p hp
    rcases List.mem_cons.1 hp with rfl | hp
    · exact hknows
    · exact hs₀'.accepted p hp
  · exact hs₀'

/-- A push only suspends a `pushMessage`. -/
theorem known_processIncomingMessage (hs : Known s) (message : IProtoMessage) :
    Known (s.processIncomingMessage env message) := by
  have hreceived : ∀ receivedMessages, Known { s with monitor := { s.monitor with receivedMessages } } :=
    fun receivedMessages => hs.mono (fun _ hp => hp) (fun _ _ ht => ht) (fun _ _ ho => ho) le_rfl
      fun _ _ hp => hp
  unfold State.processIncomingMessage
  split
  · exact hs
  · split
    · exact hs
    · simp only
      split
      · exact hreceived _
      · split
        · exact hreceived _
        · exact known_spawn (hreceived _) fun request id h => by cases h

theorem known_step {e : Event} (hs : Known s) (hC : KeepsPeers s e) (h : step env s e = some s') : Known s' := by
  have hspec := step_spec h
  cases e with
  | connectionOpened peerId =>
    obtain rfl := hspec
    exact known_connectionOpened hs peerId
  | connectionClosed conn => exact known_connectionClosed hs hC h
  | gotPeers id call peers fresh =>
    obtain ⟨s₀, hs₀, hquiet⟩ := hspec
    refine hquiet.known ?_
    have hs₀' := known_resume hs hs₀
    obtain ⟨tasks, -, rfl⟩ := Option.map_eq_some_iff.1 hs₀
    cases fresh with
    | false => exact hs₀'
    | true => exact known_assign hs₀' (hC rfl)
  | resubscribed peers =>
    obtain ⟨s₀, hs₀, hquiet⟩ := hspec
    refine hquiet.known ?_
    have hs₀' := known_resume hs hs₀
    obtain ⟨tasks, -, rfl⟩ := Option.map_eq_some_iff.1 hs₀
    exact known_assign hs₀' hC
  | streamOpened request conn => exact known_streamOpened hs hC h
  | answered request connection outcome => exact known_answered hs h
  | pushed p m =>
    obtain rfl := hspec
    exact known_processIncomingMessage hs m
  | decoded subscriptionCallback m =>
    obtain ⟨-, s₀, hs₀, rfl⟩ := hspec
    exact (known_resume hs hs₀).mono (fun _ hp => hp) (fun _ _ ht => ht) (fun _ _ ho => ho) le_rfl fun _ _ hp => hp
  | notDecoded subscriptionCallback m => exact known_resume hs hspec.2
  | _ => exact Quiet.known hspec hs

/-! ## Runs -/

/-- A call of `unsubscribeAll` reads the peer, and will send it the request. -/
def State.ReachedByUnsubscribeAll (env : Env) (s : State) (p : PeerId) : Prop :=
  ∃ peers fresh, p ∈ peers ∧
    (∀ s', step env s (.called .unsubscribeAll) = some s' →
      .gettingPeers s.nextId .unsubscribeAll peers fresh ∈ s'.tasks) ∧
    ∀ s₁ s₂, step env s₁ (.gotPeers s.nextId .unsubscribeAll peers fresh) = some s₂ →
      .opening ⟨.unsubscribeAll, p, .call s.nextId⟩ ∈ s₂.tasks

/-- The interval that keeps the subscription alive pings the peer. -/
def State.Pinged (env : Env) (s : State) (p : PeerId) : Prop :=
  ∀ id s', step env s (.intervalFired id) = some s' → .opening ⟨.ping, p, .ping false none⟩ ∈ s'.tasks

/-- A loop that suspends a call for each peer suspends one for this peer. -/
theorem mem_foldl_spawn (f : PeerId → Task) {p : PeerId} (peers : List PeerId) {s : State}
    (h : f p ∈ s.tasks ∨ p ∈ peers) : f p ∈ (peers.foldl (fun s peer => s.spawn (f peer)) s).tasks := by
  induction peers generalizing s with
  | nil => exact h.resolve_right List.not_mem_nil
  | cons peer peers ih =>
    apply ih
    rcases h with h | h
    · exact Or.inl (List.mem_append_left _ h)
    · rcases List.mem_cons.1 h with rfl | h
      · exact Or.inl (List.mem_append_right _ (List.mem_singleton_self _))
      · exact Or.inr h

theorem Known.reachedByUnsubscribeAll {p : PeerId} (h : s.Knows p) : s.ReachedByUnsubscribeAll env p := by
  have hsent : ∀ peers fresh, p ∈ peers → ∀ s₁ s₂, step env s₁ (.gotPeers s.nextId .unsubscribeAll peers fresh) = some s₂ →
      .opening ⟨.unsubscribeAll, p, .call s.nextId⟩ ∈ s₂.tasks := by
    intro peers fresh hp s₁ s₂ h
    obtain ⟨s₀, -, rfl⟩ := Option.map_eq_some_iff.1 h
    exact List.mem_append_left _ (mem_foldl_spawn (fun peer => .opening ⟨.unsubscribeAll, peer, .call s.nextId⟩) peers
      (Or.inr hp))
  cases hstarted : s.monitor.isStarted with
  | true =>
    refine ⟨s.monitor.peerIds, false, h.1, fun s' hs' => ?_, hsent _ _ h.1⟩
    cases hs'
    simp [State.startCall, State.getPeers, State.spawn, hstarted]
  | false =>
    refine ⟨PeerManager.getPeers s.connections, true, h.2, fun s' hs' => ?_, hsent _ _ h.2⟩
    cases hs'
    simp [State.startCall, State.getPeers, State.spawn, hstarted]

theorem Known.pinged {p : PeerId} (h : s.Knows p) : s.Pinged env p := by
  intro id s' hs'
  rw [step] at hs'
  split at hs'
  · cases hs'
    exact mem_foldl_spawn (fun peer => .opening ⟨.ping, peer, .ping false none⟩) s.monitor.peerIds (Or.inr h.1)
  · cases hs'

/-- **The monitor knows the peers that serve.** In every state reached by a run whose steps keep the peers of the monitor
in order, each peer that serves is among them, `unsubscribeAll` reaches it, and it is pinged. -/
theorem serving_peers_known (env : Env) (es : List Event) (s : State) (hrun : run (step env) init es = some s)
    (hmeets : Meets (step env) KeepsPeers init es) (p : PeerId) (hp : p ∈ s.accepted) :
    p ∈ s.monitor.peerIds ∧ s.ReachedByUnsubscribeAll env p ∧ s.Pinged env p := by
  have hknown : Known s := run_invariant_of_meets (fun s e s' => known_step) es known_init hmeets hrun
  have hp := hknown.accepted p hp
  exact ⟨hp.1, Known.reachedByUnsubscribeAll hp, Known.pinged hp⟩

end

/-! ## Two runs -/

/-- A subscription that uses one peer. -/
def onePeerEnv : Env := { sampleEnv with numPeersToUse := 1 }

/-- Two peers connect, and the subscription subscribes to the first. -/
def firstPeerSubscribed : List Event :=
  [.connectionOpened "a", .peerConnected "a", .connectionOpened "b", .peerConnected "b", .connectionOpened "a",
    .subscribe [sampleDecoder] 7, .gotPeers 3 (.subscribe [sampleDecoder] 7) ["a"] true,
    .streamOpened ⟨.subscribe ["c"], "a", .call 3⟩ ⟨0, "a", ["peer-manager-lock"]⟩,
    .answered ⟨.subscribe ["c"], "a", .call 3⟩ 0 (.ok true), .settled 3 (.subscribe [sampleDecoder] 7)]

/-- The first peer disconnects, and the second takes its place. -/
def replacedRun : List Event :=
  firstPeerSubscribed ++ [.connectionClosed ⟨2, "a", []⟩, .connectionClosed ⟨0, "a", ["peer-manager-lock"]⟩,
    .peerDisconnected "a", .resubscribed ["b"],
    .streamOpened ⟨.subscribe ["c"], "b", .retry 0 none⟩ ⟨1, "b", ["peer-manager-lock"]⟩,
    .answered ⟨.subscribe ["c"], "b", .retry 0 none⟩ 1 (.ok true)]

/-- The first peer loses its locked connection and not the other one, and does not answer a ping: the second peer is
subscribed to. -/
def renewedRun : List Event :=
  firstPeerSubscribed ++ [.connectionClosed ⟨0, "a", ["peer-manager-lock"]⟩, .connectionStatus true,
    .streamOpened ⟨.ping, "a", .ping true (some 5)⟩ ⟨2, "a", []⟩,
    .answered ⟨.ping, "a", .ping true (some 5)⟩ 2 (.ok false),
    .streamOpened ⟨.subscribe ["c"], "b", .retry 0 (some 5)⟩ ⟨1, "b", ["peer-manager-lock"]⟩,
    .answered ⟨.subscribe ["c"], "b", .retry 0 (some 5)⟩ 1 (.ok true)]

/-- After the first run the second peer serves, and the monitor knows it. -/
theorem serving_peers_known_replacedRun :
    ∃ s, run (step onePeerEnv) init replacedRun = some s ∧ s.accepted = ["b"] ∧
      "b" ∈ s.monitor.peerIds ∧ s.ReachedByUnsubscribeAll onePeerEnv "b" ∧ s.Pinged onePeerEnv "b" := by
  have hrun : (run (step onePeerEnv) init replacedRun).isSome = true := by decide +kernel
  obtain ⟨s, hs⟩ := Option.isSome_iff_exists.1 hrun
  have haccepted : ∀ s ∈ run (step onePeerEnv) init replacedRun, s.accepted = ["b"] := by decide +kernel
  have hmeets : Meets (step onePeerEnv) KeepsPeers init replacedRun := by decide +kernel
  refine ⟨s, hs, haccepted s hs, serving_peers_known onePeerEnv replacedRun s hs hmeets "b" ?_⟩
  rw [haccepted s hs]
  exact List.mem_singleton_self _

/-- After the second run the second peer serves too, and the monitor does not know it. -/
theorem serving_peer_not_known :
    ¬∀ (es : List Event) (s : State), run (step onePeerEnv) init es = some s →
      ∀ p ∈ s.accepted, p ∈ s.monitor.peerIds := by
  intro h
  have hrun : (run (step onePeerEnv) init renewedRun).isSome = true := by decide +kernel
  obtain ⟨s, hs⟩ := Option.isSome_iff_exists.1 hrun
  have hend : ∀ s ∈ run (step onePeerEnv) init renewedRun, "b" ∈ s.accepted ∧ "b" ∉ s.monitor.peerIds := by
    decide +kernel
  exact (hend s hs).2 (h renewedRun s hs "b" (hend s hs).1)

end JsWaku.Filter
