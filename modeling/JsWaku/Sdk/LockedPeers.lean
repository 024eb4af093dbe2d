import JsWaku.Lib.Transition
import JsWaku.Sdk.PeerManager

/-!
# How many peers are locked

The peer manager while connections open and close and its methods are called. `requestRenew` locks as many connections
as peers are missing and `lockPeerIfNeeded` every unlocked connection of a peer, both without a look at which peers the
locked connections belong to. The limit on locked connections holds, and no peer is listed twice, if and only if what is
locked in a step are connections of different peers without a locked one (`locks_bounded_iff`).
-/

namespace JsWaku.PeerManager

open Transition

/-! ## Events -/

/-- The open connections, each with its id. -/
structure Network where
  connections : List Connection
  nodup : (connections.map (·.id)).Nodup
  deriving DecidableEq

/-- What happens to the peer manager. -/
inductive Event
  /-- a connection opens, at this place of the list -/
  | opened (conn : Connection) (index : ℕ)
  | closed (id : ℕ)
  | peerConnect (peerId : PeerId)
  | peerDisconnect (peerId : PeerId)
  | requestRenew (peerId : PeerId)
  deriving DecidableEq

theorem map_id_lock (chosen connections : List Connection) :
    (lock chosen connections).map (·.id) = connections.map (·.id) := by
  rw [lock, List.map_map]
  apply List.map_congr_left
  intro c _
  simp only [Function.comp_apply]
  split <;> rfl

/-- The unlocked connections of other peers that `requestRenew` locks. -/
def renewed (numPeersToUse : ℕ) (connections : List Connection) (peerId : PeerId) : List Connection :=
  let others := (getUnlockedConnections connections).filter fun c => c.remotePeer ≠ peerId
  others.take (relativeIndex others.length (neededPeers numPeersToUse connections))

/-- The unlocked connections of the peer. -/
def unlockedOf (connections : List Connection) (peerId : PeerId) : List Connection :=
  (getUnlockedConnections connections).filter fun c => c.remotePeer = peerId

theorem requestRenew_eq (n : ℕ) (connections : List Connection) (peerId : PeerId) :
    (PeerManager.requestRenew n connections peerId).1 =
      if neededPeers n connections = 0 then connections else lock (renewed n connections peerId) connections := by
  unfold PeerManager.requestRenew
  simp only
  split <;> rfl

namespace Network

/-- The connections with the chosen ones locked. -/
def lock (s : Network) (chosen : List Connection) : Network :=
  ⟨PeerManager.lock chosen s.connections, by rw [map_id_lock]; exact s.nodup⟩

/-- `requestRenew`. -/
def requestRenew (n : ℕ) (s : Network) (peerId : PeerId) : Network where
  connections := (PeerManager.requestRenew n s.connections peerId).1
  nodup := by
    rw [requestRenew_eq]
    split
    · exact s.nodup
    · rw [map_id_lock]
      exact s.nodup

/-- `lockPeerIfNeeded`. -/
def lockPeerIfNeeded (n : ℕ) (s : Network) (peerId : PeerId) : Network where
  connections := PeerManager.lockPeerIfNeeded n s.connections peerId
  nodup := by
    unfold PeerManager.lockPeerIfNeeded
    split
    · exact s.nodup
    · rw [map_id_lock]
      exact s.nodup

/-- The connection opens: its id is new, and it is not locked. -/
def opened (s : Network) (conn : Connection) (index : ℕ) : Option Network :=
  if h : conn.id ∉ s.connections.map (·.id) ∧ isConnectionLocked conn = false then
    some ⟨s.connections.take index ++ conn :: s.connections.drop index, by
      rw [List.map_append, List.map_cons, List.nodup_middle, ← List.map_append, List.take_append_drop]
      exact List.nodup_cons.2 ⟨h.1, s.nodup⟩⟩
  else none

/-- The connection closes. -/
def closed (s : Network) (id : ℕ) : Network :=
  ⟨s.connections.filter fun c => c.id ≠ id, s.nodup.sublist (List.filter_sublist.map _)⟩

end Network

/-- One step, for a manager that uses `n` peers. -/
def step (n : ℕ) (s : Network) : Event → Option Network
  | .opened conn index => s.opened conn index
  | .closed id => some (s.closed id)
  | .peerConnect peerId => some (s.lockPeerIfNeeded n peerId)
  | .peerDisconnect peerId | .requestRenew peerId => some (s.requestRenew n peerId)

/-! ## What is locked -/

/-- No more connections are locked than peers are to be used, and no peer is listed twice. -/
structure Bounded (n : ℕ) (s : Network) : Prop where
  length_le : (getLockedConnections s.connections).length ≤ n
  nodup : (getPeers s.connections).Nodup

/-- Connections of different peers without a locked one. -/
def OfNewPeers (connections chosen : List Connection) : Prop :=
  (chosen.map (·.remotePeer)).Nodup ∧ ∀ c ∈ chosen, c.remotePeer ∉ getPeers connections

instance (connections chosen : List Connection) : Decidable (OfNewPeers connections chosen) :=
  inferInstanceAs (Decidable (_ ∧ _))

/-- If peers are missing, what the step locks are connections of different peers without a locked one. -/
def LocksNewPeers (n : ℕ) (s : Network) : Event → Prop
  | .peerConnect peerId =>
    neededPeers n s.connections ≠ 0 → OfNewPeers s.connections (unlockedOf s.connections peerId)
  | .peerDisconnect peerId | .requestRenew peerId =>
    neededPeers n s.connections ≠ 0 → OfNewPeers s.connections (renewed n s.connections peerId)
  | _ => True

instance (n : ℕ) (s : Network) : ∀ e : Event, Decidable (LocksNewPeers n s e)
  | .peerConnect _ | .peerDisconnect _ | .requestRenew _ =>
    inferInstanceAs (Decidable (neededPeers n s.connections ≠ 0 → OfNewPeers _ _))
  | .opened _ _ | .closed _ => inferInstanceAs (Decidable True)

/-- The peers that are locked when more connections are. -/
theorem perm_getPeers_lock {connections chosen : List Connection} (hnodup : connections.Nodup)
    (hchosen : chosen.Sublist (getUnlockedConnections connections)) :
    (getPeers (lock chosen connections)).Perm (getPeers connections ++ chosen.map (·.remotePeer)) := by
  have hunlocked : ∀ c ∈ chosen, c ∈ connections ∧ isConnectionLocked c = false := by
    intro c hc
    simpa [getUnlockedConnections] using hchosen.mem hc
  have hlock : getPeers (lock chosen connections) =
      (connections.filter fun c => isConnectionLocked c || c ∈ chosen).map (·.remotePeer) := by
    rw [getPeers, getLockedConnections, lock, List.filter_map, List.map_map]
    have hfilter : (connections.filter (isConnectionLocked ∘ fun c =>
        if c ∈ chosen then { c with tags := c.tags ++ [CONNECTION_LOCK_TAG] } else c)) =
        connections.filter fun c => isConnectionLocked c || c ∈ chosen := by
      apply List.filter_congr
      intro c _
      simp only [Function.comp_apply]
      split
      · rename_i hc
        simp [isConnectionLocked, hc]
      · rename_i hc
        simp [hc]
    rw [hfilter]
    apply List.map_congr_left
    intro c _
    simp only [Function.comp_apply]
    split <;> rfl
  have hsplit : (connections.filter fun c => isConnectionLocked c || c ∈ chosen).Perm
      (getLockedConnections connections ++ chosen) := by
    refine (List.perm_ext_iff_of_nodup (hnodup.filter _) ?_).2 fun c => ?_
    · rw [List.nodup_append]
      refine ⟨hnodup.filter _, (hnodup.filter _).sublist hchosen, ?_⟩
      intro a ha b hb hab
      subst hab
      have hlocked := (List.mem_filter.1 ha).2
      rw [(hunlocked a hb).2] at hlocked
      cases hlocked
    · rw [List.mem_filter, List.mem_append, getLockedConnections, List.mem_filter, Bool.or_eq_true, decide_eq_true_eq]
      constructor
      · rintro ⟨hmem, hlocked | hc⟩
        · exact Or.inl ⟨hmem, hlocked⟩
        · exact Or.inr hc
      · rintro (⟨hmem, hlocked⟩ | hc)
        · exact ⟨hmem, Or.inl hlocked⟩
        · exact ⟨(hunlocked c hc).1, Or.inr hc⟩
  rw [hlock]
  refine (hsplit.map _).trans ?_
  rw [List.map_append, getPeers]

section

variable {n : ℕ} {s s' : Network}

theorem length_getPeers (connections : List Connection) :
    (getPeers connections).length = (getLockedConnections connections).length :=
  List.length_map _

/-- Locking keeps the limit exactly where connections of new peers are locked, no more than are missing. -/
theorem bounded_lock_iff (h : Bounded n s) {chosen : List Connection}
    (hchosen : chosen.Sublist (getUnlockedConnections s.connections))
    (hlength : OfNewPeers s.connections chosen → (getLockedConnections s.connections).length + chosen.length ≤ n) :
    Bounded n (s.lock chosen) ↔ OfNewPeers s.connections chosen := by
  have hperm := perm_getPeers_lock (List.Nodup.of_map _ s.nodup) hchosen
  have hcount := hperm.length_eq
  rw [length_getPeers, List.length_append, length_getPeers, List.length_map] at hcount
  constructor
  · rintro ⟨-, hnodup⟩
    obtain ⟨-, hchosen', hdisjoint⟩ := List.nodup_append.1 (hperm.nodup_iff.1 hnodup)
    exact ⟨hchosen', fun c hc hmem => hdisjoint _ hmem _ (List.mem_map_of_mem hc) rfl⟩
  · intro hnew
    constructor
    · show (getLockedConnections (PeerManager.lock chosen s.connections)).length ≤ n
      rw [hcount]
      exact hlength hnew
    · refine hperm.nodup_iff.2 (List.nodup_append.2 ⟨h.nodup, hnew.1, ?_⟩)
      rintro p hp q hq rfl
      obtain ⟨c, hc, rfl⟩ := List.mem_map.1 hq
      exact hnew.2 c hc hp

/-- The same for a step that locks connections only if peers are missing. -/
theorem bounded_lockIfNeeded_iff (h : Bounded n s) {chosen : List Connection}
    (hstep : s' = if neededPeers n s.connections = 0 then s else s.lock chosen)
    (hchosen : chosen.Sublist (getUnlockedConnections s.connections))
    (hlength : (getLockedConnections s.connections).length < n → OfNewPeers s.connections chosen →
      (getLockedConnections s.connections).length + chosen.length ≤ n) :
    Bounded n s' ↔ (neededPeers n s.connections ≠ 0 → OfNewPeers s.connections chosen) := by
  have hle := h.length_le
  by_cases hneeded : neededPeers n s.connections = 0
  · rw [hstep, if_pos hneeded]
    exact ⟨fun _ hne => absurd hneeded hne, fun _ => h⟩
  · have hmissing : (getLockedConnections s.connections).length < n := by
      unfold neededPeers at hneeded
      omega
    rw [hstep, if_neg hneeded, bounded_lock_iff h hchosen (hlength hmissing)]
    exact ⟨fun hnew _ => hnew, fun hnew => hnew hneeded⟩

theorem bounded_lockPeerIfNeeded_iff (h : Bounded n s) (peerId : PeerId) :
    Bounded n (s.lockPeerIfNeeded n peerId) ↔ LocksNewPeers n s (.peerConnect peerId) := by
  have hstep : s.lockPeerIfNeeded n peerId =
      if neededPeers n s.connections = 0 then s else s.lock (unlockedOf s.connections peerId) := by
    unfold Network.lockPeerIfNeeded PeerManager.lockPeerIfNeeded
    split <;> rfl
  apply bounded_lockIfNeeded_iff h hstep List.filter_sublist
  intro hmissing hnew
  -- all chosen connections are of one peer, so that there is at most one
  have hpeer : ∀ p ∈ (unlockedOf s.connections peerId).map (·.remotePeer), p = peerId := by
    intro p hp
    obtain ⟨c, hc, rfl⟩ := List.mem_map.1 hp
    exact of_decide_eq_true (List.mem_filter.1 hc).2
  have hone := hnew.1
  rw [List.eq_replicate_of_mem hpeer, List.nodup_replicate, List.length_map] at hone
  omega

theorem bounded_requestRenew_iff (h : Bounded n s) (peerId : PeerId) :
    Bounded n (s.requestRenew n peerId) ↔ LocksNewPeers n s (.requestRenew peerId) := by
  have hstep : s.requestRenew n peerId =
      if neededPeers n s.connections = 0 then s else s.lock (renewed n s.connections peerId) := by
    unfold Network.requestRenew Network.lock
    simp only [requestRenew_eq]
    split <;> rfl
  apply bounded_lockIfNeeded_iff h hstep ((List.take_sublist _ _).trans List.filter_sublist)
  intro hmissing _
  have htake : (renewed n s.connections peerId).length ≤ n - (getLockedConnections s.connections).length := by
    unfold renewed neededPeers relativeIndex
    rw [List.length_take]
    split <;> omega
  omega

/-- A step keeps the limit exactly where it locks connections of new peers. -/
theorem bounded_step_iff {e : Event} (h : Bounded n s) (hstep : step n s e = some s') :
    Bounded n s' ↔ LocksNewPeers n s e := by
  cases e with
  | opened conn index =>
    simp only [step, Network.opened] at hstep
    split at hstep
    · rename_i hnew
      cases hstep
      have hlocked : getLockedConnections (s.connections.take index ++ conn :: s.connections.drop index) =
          getLockedConnections s.connections := by
        unfold getLockedConnections
        rw [List.filter_append, List.filter_cons_of_neg (by rw [hnew.2]; exact Bool.false_ne_true),
          ← List.filter_append, List.take_append_drop]
      refine ⟨fun _ => trivial, fun _ => ⟨?_, ?_⟩⟩
      · rw [hlocked]
        exact h.length_le
      · rw [getPeers, hlocked]
        exact h.nodup
    · cases hstep
  | closed id =>
    cases hstep
    have hsub : (getLockedConnections (s.closed id).connections).Sublist (getLockedConnections s.connections) :=
      List.filter_sublist.filter _
    exact ⟨fun _ => trivial, fun _ => ⟨hsub.length_le.trans h.length_le, h.nodup.sublist (hsub.map _)⟩⟩
  | peerConnect peerId =>
    cases hstep
    exact bounded_lockPeerIfNeeded_iff h peerId
  | peerDisconnect peerId =>
    cases hstep
    exact bounded_requestRenew_iff h peerId
  | requestRenew peerId =>
    cases hstep
    exact bounded_requestRenew_iff h peerId

/-- **The limit on locked connections** holds in every state of a run that begins without one if and only if each step
locks connections of new peers. -/
theorem locks_bounded_iff (n : ℕ) (es : List Event) (s t : Network) (hs : getLockedConnections s.connections = [])
    (hrun : run (step n) s es = some t) :
    (∀ es₁ es₂ u, es = es₁ ++ es₂ → run (step n) s es₁ = some u → Bounded n u) ↔
      Meets (step n) (LocksNewPeers n) s es := by
  have hstart : Bounded n s := ⟨by simp [hs], by simp [getPeers, hs]⟩
  exact invariant_iff_meets (fun s e s' h hstep => bounded_step_iff h hstep) es hstart hrun

end

/-! ## Samples -/

/-- No connection. -/
def noConnections : Network := ⟨[], List.nodup_nil⟩

/-- Two peers connect, and a third, which is used when one of them leaves. -/
def renewRun : List Event :=
  [.opened ⟨1, "a", []⟩ 0, .peerConnect "a", .opened ⟨2, "b", []⟩ 1, .peerConnect "b", .opened ⟨3, "c", []⟩ 2,
    .peerConnect "c", .closed 1, .peerDisconnect "a"]

theorem locks_bounded_iff_renewRun : ∃ t, run (step 2) noConnections renewRun = some t ∧
    getPeers t.connections = ["b", "c"] ∧ Meets (step 2) (LocksNewPeers 2) noConnections renewRun ∧
    ∀ es₁ es₂ u, renewRun = es₁ ++ es₂ → run (step 2) noConnections es₁ = some u → Bounded 2 u := by
  have hmeets : Meets (step 2) (LocksNewPeers 2) noConnections renewRun := by decide
  obtain ⟨t, ht, hpeers⟩ : ∃ t, run (step 2) noConnections renewRun = some t ∧ getPeers t.connections = ["b", "c"] :=
    ⟨_, rfl, by decide⟩
  exact ⟨t, ht, hpeers, hmeets, (locks_bounded_iff 2 renewRun noConnections t rfl ht).2 hmeets⟩

/-- Two connections of one peer are locked together, where one peer is to be used. -/
theorem locks_not_bounded : ¬∀ (n : ℕ) (es : List Event) (t : Network), 1 ≤ n →
    run (step n) noConnections es = some t →
    (getLockedConnections t.connections).length ≤ n ∧ (getPeers t.connections).Nodup := by
  intro h
  obtain ⟨hle, -⟩ := h 1 [.opened ⟨1, "a", []⟩ 0, .opened ⟨2, "a", []⟩ 1, .peerConnect "a"] _ le_rfl rfl
  exact absurd hle (by decide)

end JsWaku.PeerManager
