import JsWaku.Discovery.PeerExchange.Update
import JsWaku.Lib.Transition

/-!
# Peer discovery by DNS

`PeerDiscoveryDns` of `packages/discovery/src/dns/dns_discovery.ts` as an event system. A call of `findPeers` takes ENRs
from a generator and asks the peer store about each; calls run beside each other, since `start` and the connection
manager make them at any time. The peer store answers a call in one step, and others may change its entries between any
two. The ENRs that the generators yield are arbitrary.

A peer is announced only for an ENR that was yielded, and while nobody takes a bootstrap tag away each call announces it at
most once, and none if it has had the tag from the beginning (`announced_spec`). A stopped service announces no
more than the calls that were busy with a peer (`announced_after_stop`).
-/

namespace JsWaku.PeerDiscoveryDns

open Transition RelayShardCodec
open PeerExchange (Enr Multiaddr Peer PeerInfo Store Tag)

/-! ## Data -/

/-- `DnsDiscOptions`, what is read after the generator is made. -/
structure DnsDiscOptions where
  tagValue : Option ℕ
  tagTTL : Option ℕ
  deriving DecidableEq, Repr

def DEFAULT_BOOTSTRAP_TAG_NAME : String := "bootstrap"

def DEFAULT_BOOTSTRAP_TAG_VALUE : ℕ := 50

def DEFAULT_BOOTSTRAP_TAG_TTL : ℕ := 100000000

/-- `tagsToUpdate`. -/
def tagToUpdate (options : DnsDiscOptions) : Tag where
  name := DEFAULT_BOOTSTRAP_TAG_NAME
  value := options.tagValue.getD DEFAULT_BOOTSTRAP_TAG_VALUE
  ttl := options.tagTTL.getD DEFAULT_BOOTSTRAP_TAG_TTL

/-- Where a call of `findPeers` is suspended. -/
inductive FindPeers
  /-- At the generator, which may have to be made first. -/
  | yielding
  /-- At `peerStore.has`. -/
  | checking (peerInfo : PeerInfo) (shardInfo : Option ShardInfo)
  /-- At `peerStore.get`. -/
  | getting (peerInfo : PeerInfo)
  /-- At `peerStore.merge`. -/
  | merging (peerInfo : PeerInfo)
  /-- At `peerStore.save`. -/
  | saving (peerInfo : PeerInfo) (metadata : Option Bytes)
  /-- It has resolved or rejected. -/
  | ended

/-- The service, its peer store, and the peers that its calls have announced. -/
structure State where
  started : Bool
  peerStore : Store
  calls : List FindPeers
  announced : List (ℕ × PeerInfo)

/-- A call from outside, a generator that yields or is done, an answer of the peer store, or a change that others make to
an entry of it. -/
inductive Event
  | start
  | findPeers
  | stop
  | yielded (i : ℕ) (peerEnr : Option Enr)
  | answered (i : ℕ)
  | changed (peerId : PeerId) (peer : Option Peer)

/-! ## The code -/

/-- The loop of `findPeers` up to its first `await`, for an ENR. -/
def onEnr (started : Bool) (peerEnr : Enr) : FindPeers :=
  if !started then .ended
  else
    match peerEnr.peerInfo, peerEnr.shardInfo with
    | .ok none, .ok _ => .yielding
    | .ok (some peerInfo), .ok shardInfo => .checking peerInfo shardInfo
    | _, _ => .ended

/-- The call of `peerStore.save`, whose arguments are made first. -/
def callSave (peerInfo : PeerInfo) (shardInfo : Option ShardInfo) : FindPeers :=
  match shardInfo with
  | none => .saving peerInfo none
  | some shardInfo =>
    match encodeRelayShard shardInfo with
    | .error _ => .ended
    | .ok bytes => .saving peerInfo (some bytes)

/-- A peer with the tag, beside what it has. -/
def Peer.merge (options : DnsDiscOptions) (peer : Peer) : Peer :=
  { peer with tags := peer.tags.set DEFAULT_BOOTSTRAP_TAG_NAME (tagToUpdate options) }

/-- What `save` stores. -/
def savedPeer (options : DnsDiscOptions) (metadata : Option Bytes) : Peer where
  addresses := []
  metadata :=
    match metadata with
    | none => Map.empty
    | some bytes => Map.empty.set "shardInfo" bytes
  tags := Map.empty.set DEFAULT_BOOTSTRAP_TAG_NAME (tagToUpdate options)

namespace State

variable (options : DnsDiscOptions) (s : State)

/-- The entry of a peer is written, and the peer announced. -/
def write (i : ℕ) (peerInfo : PeerInfo) (peer : Peer) : State :=
  { s with
    peerStore := s.peerStore.set peerInfo.id peer
    calls := s.calls.set i .yielding
    announced := s.announced ++ [(i, peerInfo)] }

/-- The peer store answers a call. It rejects `get` for a peer that it does not have. -/
def answer (i : ℕ) : FindPeers → Option State
  | .checking peerInfo shardInfo =>
    let call := if s.peerStore.has peerInfo.id then .getting peerInfo else callSave peerInfo shardInfo
    some { s with calls := s.calls.set i call }
  | .getting peerInfo =>
    let call :=
      match s.peerStore.get peerInfo.id with
      | none => .ended
      | some peer => if peer.tags.has DEFAULT_BOOTSTRAP_TAG_NAME then .yielding else .merging peerInfo
    some { s with calls := s.calls.set i call }
  | .merging peerInfo =>
    some (s.write i peerInfo (Peer.merge options ((s.peerStore.get peerInfo.id).getD .unknown)))
  | .saving peerInfo metadata => some (s.write i peerInfo (savedPeer options metadata))
  | .yielding | .ended => none

end State

/-- A new service. -/
def init (peerStore : Store) : State := { started := false, peerStore, calls := [], announced := [] }

/-- One event; an event that cannot happen gives nothing. -/
def step (options : DnsDiscOptions) (s : State) : Event → Option State
  | .start => some { s with started := true, calls := s.calls ++ [.yielding] }
  | .findPeers => some { s with calls := s.calls ++ [.yielding] }
  | .stop => some { s with started := false }
  | .yielded i peerEnr =>
    match s.calls[i]? with
    | some .yielding =>
      let call :=
        match peerEnr with
        | none => .ended
        | some peerEnr => onEnr s.started peerEnr
      some { s with calls := s.calls.set i call }
    | _ => none
  | .answered i => s.calls[i]?.bind (s.answer options i)
  | .changed peerId peer =>
    some { s with peerStore :=
      match peer with
      | none => s.peerStore.delete peerId
      | some peer => s.peerStore.set peerId peer }

/-! ## What is announced -/

/-- The peer is in the store with the bootstrap tag. -/
def State.Tagged (s : State) (p : PeerId) : Prop :=
  (s.peerStore.get p).any (fun peer => peer.tags.has DEFAULT_BOOTSTRAP_TAG_NAME) = true

instance (s : State) (p : PeerId) : Decidable (s.Tagged p) :=
  inferInstanceAs (Decidable ((s.peerStore.get p).any _ = true))

/-- How often the peer was announced. -/
def State.announcements (s : State) (p : PeerId) : ℕ := s.announced.countP fun announcement => announcement.2.id = p

/-- How often the call announced the peer. -/
def State.announcementsOf (s : State) (i : ℕ) (p : PeerId) : ℕ :=
  s.announced.countP fun announcement => announcement.1 = i ∧ announcement.2.id = p

/-- The call is about to announce the peer. -/
def FindPeers.writes (p : PeerId) : FindPeers → Bool
  | merging peerInfo | saving peerInfo _ => peerInfo.id = p
  | _ => false

/-- The peer that the call is busy with. -/
def FindPeers.peer : FindPeers → Option PeerInfo
  | checking peerInfo _ | getting peerInfo | merging peerInfo | saving peerInfo _ => some peerInfo
  | yielding | ended => none

/-- A call of `findPeers` is made. -/
def Event.calls : Event → Bool
  | start | findPeers => true
  | _ => false

/-- The ENR of a peer was yielded. -/
def Yielded (es : List Event) (peerInfo : PeerInfo) : Prop :=
  ∃ i peerEnr, .yielded i (some peerEnr) ∈ es ∧ peerEnr.peerInfo = .ok (some peerInfo)

theorem Yielded.append {es : List Event} {peerInfo : PeerInfo} (h : Yielded es peerInfo) (es' : List Event) :
    Yielded (es ++ es') peerInfo := by
  obtain ⟨i, peerEnr, hmem, hpeerInfo⟩ := h
  exact ⟨i, peerEnr, List.mem_append_left _ hmem, hpeerInfo⟩

/-- Others take no bootstrap tag away. -/
def KeepsTags (s : State) (e : Event) : Prop :=
  match e with
  | .changed p peer => s.Tagged p → peer.any (fun peer => peer.tags.has DEFAULT_BOOTSTRAP_TAG_NAME) = true
  | _ => True

instance (s : State) : ∀ e : Event, Decidable (KeepsTags s e)
  | .changed p peer => inferInstanceAs (Decidable (s.Tagged p → peer.any _ = true))
  | .start | .findPeers | .stop | .yielded _ _ | .answered _ => isTrue trivial

/-! ## Steps -/

/-- What a call moves to where it writes nothing. -/
structure Moves (s : State) (e : Event) (c c' : FindPeers) : Prop where
  writes : ∀ p, c.writes p = false
  untagged : ∀ p, c'.writes p = true → ¬s.Tagged p
  origin : ∀ peerInfo, c'.peer = some peerInfo → c.peer = some peerInfo ∨
    s.started = true ∧ ∃ i peerEnr, e = .yielded i (some peerEnr) ∧ peerEnr.peerInfo = .ok (some peerInfo)

section

variable {options : DnsDiscOptions} {s s' : State} {e : Event} {p : PeerId}

theorem State.Tagged.of_get {peer : Peer} (hget : s.peerStore.get p = some peer)
    (htag : peer.tags.has DEFAULT_BOOTSTRAP_TAG_NAME = true) : s.Tagged p := by
  rw [State.Tagged, hget]
  exact htag

/-- A call that goes back to the generator, or ends. -/
theorem Moves.idle {c c' : FindPeers} (hwrites : ∀ p, c.writes p = false) (hpeer : c'.peer = none) : Moves s e c c' where
  writes := hwrites
  untagged p hp := by
    cases c' with
    | yielding | ended => cases hp
    | checking | getting | merging | saving => cases hpeer
  origin peerInfo h := by
    rw [hpeer] at h
    cases h

theorem moves_onEnr (s : State) (i : ℕ) (peerEnr : Enr) :
    Moves s (.yielded i (some peerEnr)) .yielding (onEnr s.started peerEnr) := by
  have hended : Moves s (.yielded i (some peerEnr)) .yielding .ended := .idle (fun _ => rfl) rfl
  unfold onEnr
  split
  · exact hended
  · rename_i hstarted
    split
    · exact .idle (fun _ => rfl) rfl
    · rename_i peerInfo shardInfo hpeerInfo hshardInfo
      refine ⟨fun _ => rfl, fun p hp => ?_, fun peerInfo' h => .inr ⟨by simpa using hstarted, i, peerEnr, rfl, ?_⟩⟩
      · cases hp
      · cases h
        exact hpeerInfo
    · exact hended

theorem moves_callSave (e : Event) {peerInfo : PeerInfo} {shardInfo : Option ShardInfo}
    (hnew : ¬s.peerStore.has peerInfo.id = true) :
    Moves s e (.checking peerInfo shardInfo) (callSave peerInfo shardInfo) := by
  have hsaving : ∀ metadata, Moves s e (.checking peerInfo shardInfo) (.saving peerInfo metadata) := by
    refine fun metadata => ⟨fun _ => rfl, fun p hp htagged => hnew ?_, fun _ h => .inl h⟩
    obtain rfl : peerInfo.id = p := by simpa [FindPeers.writes] using hp
    obtain ⟨peer, hget, -⟩ := (Option.any_eq_true _ _).1 htagged
    rw [Map.has, hget]
    rfl
  unfold callSave
  split
  · exact hsaving none
  · split
    · exact .idle (fun _ => rfl) rfl
    · exact hsaving _

/-- What a step does. -/
theorem step_cases (h : step options s e = some s') :
    (e.calls = true ∧ s'.calls = s.calls ++ [.yielding] ∧ s'.peerStore = s.peerStore ∧ s'.announced = s.announced) ∨
    (e.calls = false ∧ ∃ i c c', s.calls[i]? = some c ∧ s' = { s with calls := s.calls.set i c' } ∧ Moves s e c c') ∨
    (e.calls = false ∧ ∃ i c peerInfo peer, s.calls[i]? = some c ∧ c.peer = some peerInfo ∧
      c.writes peerInfo.id = true ∧ peer.tags.has DEFAULT_BOOTSTRAP_TAG_NAME = true ∧ s' = s.write i peerInfo peer) ∨
    (e.calls = false ∧ s'.calls = s.calls ∧ s'.announced = s.announced ∧ (s'.started = true → s.started = true) ∧
      (KeepsTags s e → ∀ p, s.Tagged p → s'.Tagged p)) := by
  cases e with
  | start | findPeers =>
    cases h
    exact .inl ⟨rfl, rfl, rfl, rfl⟩
  | stop =>
    cases h
    exact .inr (.inr (.inr ⟨rfl, rfl, rfl, (fun h => by cases h), fun _ _ htagged => htagged⟩))
  | yielded i peerEnr =>
    simp only [step] at h
    split at h
    · rename_i hcall
      cases h
      refine .inr (.inl ⟨rfl, i, _, _, hcall, rfl, ?_⟩)
      cases peerEnr with
      | none => exact .idle (fun _ => rfl) rfl
      | some peerEnr => exact moves_onEnr s i peerEnr
    · cases h
  | answered i =>
    obtain ⟨c, hcall, h⟩ := Option.bind_eq_some_iff.1 h
    cases c with
    | yielding | ended => cases h
    | checking peerInfo shardInfo =>
      cases h
      refine .inr (.inl ⟨rfl, i, _, _, hcall, rfl, ?_⟩)
      split
      · exact ⟨fun _ => rfl, (fun p hp => by cases hp), fun _ h => .inl h⟩
      · rename_i hnew
        exact moves_callSave _ hnew
    | getting peerInfo =>
      cases h
      refine .inr (.inl ⟨rfl, i, _, _, hcall, rfl, ?_⟩)
      split
      · exact .idle (fun _ => rfl) rfl
      · rename_i peer hget
        split
        · exact .idle (fun _ => rfl) rfl
        · rename_i htag
          refine ⟨fun _ => rfl, fun p hp htagged => htag ?_, fun _ h => .inl h⟩
          obtain rfl : peerInfo.id = p := by simpa [FindPeers.writes] using hp
          rwa [State.Tagged, hget] at htagged
    | merging peerInfo =>
      cases h
      have hwrites : (FindPeers.merging peerInfo).writes peerInfo.id = true := by simp [FindPeers.writes]
      exact .inr (.inr (.inl ⟨rfl, i, _, peerInfo, _, hcall, rfl, hwrites, Map.has_set_self _ _ _, rfl⟩))
    | saving peerInfo metadata =>
      cases h
      have hwrites : (FindPeers.saving peerInfo metadata).writes peerInfo.id = true := by simp [FindPeers.writes]
      exact .inr (.inr (.inl ⟨rfl, i, _, peerInfo, _, hcall, rfl, hwrites, Map.has_set_self _ _ _, rfl⟩))
  | changed q peer =>
    cases h
    refine .inr (.inr (.inr ⟨rfl, rfl, rfl, id, fun hkeeps p htagged => ?_⟩))
    by_cases hp : p = q
    · subst hp
      have hpeer := hkeeps htagged
      cases peer with
      | none => cases hpeer
      | some peer => exact State.Tagged.of_get (Map.get_set_self _ _ _) hpeer
    · unfold State.Tagged at htagged ⊢
      cases peer with
      | none => rwa [Map.get_delete_ne _ hp]
      | some peer => rwa [Map.get_set_ne _ _ hp]

end

/-! ## Announcements -/

section

variable {options : DnsDiscOptions} {s s' : State} {e : Event} {p : PeerId}

theorem State.announcements_write (s : State) (i : ℕ) (peerInfo : PeerInfo) (peer : Peer) (p : PeerId) :
    (s.write i peerInfo peer).announcements p = s.announcements p + if peerInfo.id = p then 1 else 0 := by
  simp [State.announcements, State.write, List.countP_append, List.countP_singleton]

theorem State.announcementsOf_write (s : State) (i : ℕ) (peerInfo : PeerInfo) (peer : Peer) (j : ℕ) (p : PeerId) :
    (s.write i peerInfo peer).announcementsOf j p =
      s.announcementsOf j p + if i = j ∧ peerInfo.id = p then 1 else 0 := by
  simp [State.announcementsOf, State.write, List.countP_append, List.countP_singleton]

theorem State.announcementsOf_le (s : State) (i : ℕ) (p : PeerId) : s.announcementsOf i p ≤ s.announcements p := by
  refine List.countP_mono_left fun announcement _ h => ?_
  simp only [decide_eq_true_eq] at h ⊢
  exact h.2

/-- A write tags its peer, and no other. -/
theorem State.tagged_write {peer : Peer} (htag : peer.tags.has DEFAULT_BOOTSTRAP_TAG_NAME = true) (i : ℕ)
    (peerInfo : PeerInfo) : (s.write i peerInfo peer).Tagged p ↔ peerInfo.id = p ∨ s.Tagged p := by
  by_cases hp : peerInfo.id = p
  · subst hp
    exact iff_of_true (Tagged.of_get (Map.get_set_self _ _ _) htag) (.inl rfl)
  · rw [State.Tagged, State.write, Map.get_set_ne _ _ (Ne.symm hp)]
    exact (or_iff_right hp).symm

/-- An announced peer has the tag, and it was announced, or is about to be, no more often than there are calls. -/
structure State.Counted (s : State) (p : PeerId) : Prop where
  tagged : 0 < s.announcements p → s.Tagged p
  bound : s.announcements p + s.calls.countP (·.writes p) ≤ s.calls.length

theorem State.Counted.step (h : s.Counted p) (hkeeps : KeepsTags s e) (hstep : step options s e = some s') :
    s'.Counted p := by
  rcases step_cases hstep with ⟨-, hcalls, hstore, hannounced⟩ | ⟨-, i, c, c', hcall, rfl, hmoves⟩ |
    ⟨-, i, c, peerInfo, peer, hcall, -, hwrites, htag, rfl⟩ | ⟨-, hcalls, hannounced, -, htagged⟩
  · have hzero : FindPeers.yielding.writes p = false := rfl
    constructor
    · rw [announcements, hannounced, Tagged, hstore]
      exact h.tagged
    · have hbound := h.bound
      rw [announcements, hannounced, hcalls, List.countP_append, List.length_append, List.countP_singleton, hzero]
      exact Nat.le_succ_of_le hbound
  · obtain ⟨rest, hbefore, hafter⟩ := perm_set hcall c'
    refine ⟨h.tagged, ?_⟩
    have hbound := h.bound
    rw [hbefore.countP_eq, hbefore.length_eq, List.countP_cons, hmoves.writes p] at hbound
    show s.announcements p + (s.calls.set i c').countP (·.writes p) ≤ (s.calls.set i c').length
    rw [hafter.countP_eq, hafter.length_eq, List.countP_cons]
    split
    · -- It will announce a peer without the tag, which was not announced before.
      rename_i hwrites
      have hnone : s.announcements p = 0 :=
        Nat.eq_zero_of_not_pos fun hpos => hmoves.untagged p hwrites (h.tagged hpos)
      have hle : rest.countP (·.writes p) ≤ rest.length := List.countP_le_length
      rw [hnone, List.length_cons]
      omega
    · simpa using hbound
  · obtain ⟨rest, hbefore, hafter⟩ := perm_set hcall .yielding
    have hbound := h.bound
    rw [hbefore.countP_eq, hbefore.length_eq, List.countP_cons] at hbound
    constructor
    · rw [announcements_write, tagged_write htag]
      intro hpos
      by_cases hp : peerInfo.id = p
      · exact .inl hp
      · rw [if_neg hp] at hpos
        exact .inr (h.tagged hpos)
    · have hzero : FindPeers.yielding.writes p = false := rfl
      rw [announcements_write]
      show _ + (s.calls.set i .yielding).countP (·.writes p) ≤ (s.calls.set i .yielding).length
      rw [hafter.countP_eq, hafter.length_eq, List.countP_cons, hzero]
      by_cases hp : peerInfo.id = p
      · subst hp
        rw [hwrites] at hbound
        simp only [if_true, List.length_cons, Bool.false_eq_true, if_false] at hbound ⊢
        omega
      · simp only [if_neg hp, List.length_cons, Bool.false_eq_true, if_false] at hbound ⊢
        omega
  · constructor
    · rw [announcements, hannounced]
      exact fun hpos => htagged hkeeps p (h.tagged hpos)
    · rw [announcements, hannounced, hcalls]
      exact h.bound

/-- Each call has announced the peer at most once, and not at all if it is about to. -/
def State.Once (s : State) (p : PeerId) : Prop :=
  ∀ i, s.announcementsOf i p ≤ 1 ∧ ∀ c, s.calls[i]? = some c → c.writes p = true → s.announcementsOf i p = 0

theorem State.Once.step (h : s.Once p) (htagged : 0 < s.announcements p → s.Tagged p)
    (hstep : step options s e = some s') : s'.Once p := by
  intro j
  obtain ⟨hle, hzero⟩ := h j
  rcases step_cases hstep with ⟨-, hcalls, -, hannounced⟩ | ⟨-, i, c, c', hcall, rfl, hmoves⟩ |
    ⟨-, i, c, peerInfo, peer, hcall, -, hwrites, -, rfl⟩ | ⟨-, hcalls, hannounced, -⟩
  · rw [announcementsOf, hannounced, hcalls]
    refine ⟨hle, fun d hd hwrites => ?_⟩
    rcases Nat.lt_or_ge j s.calls.length with hj | hj
    · rw [List.getElem?_append_left hj] at hd
      exact hzero d hd hwrites
    · rw [List.getElem?_append_right hj] at hd
      rw [List.mem_singleton.1 (List.mem_of_getElem? hd)] at hwrites
      cases hwrites
  · refine ⟨hle, fun d hd hwrites => ?_⟩
    by_cases hij : i = j
    · subst hij
      obtain ⟨hi, -⟩ := List.getElem?_eq_some_iff.1 hcall
      rw [List.getElem?_set_self hi] at hd
      cases hd
      -- It will announce a peer without the tag, which was not announced before.
      have hnone : s.announcements p = 0 :=
        Nat.eq_zero_of_not_pos fun hpos => hmoves.untagged p hwrites (htagged hpos)
      exact Nat.eq_zero_of_le_zero (hnone ▸ s.announcementsOf_le i p)
    · rw [List.getElem?_set_ne hij] at hd
      exact hzero d hd hwrites
  · rw [announcementsOf_write]
    by_cases hij : i = j
    · subst hij
      obtain ⟨hi, -⟩ := List.getElem?_eq_some_iff.1 hcall
      constructor
      · split
        · rename_i hp
          rw [hzero c hcall (hp.2 ▸ hwrites)]
        · exact hle
      · intro d hd hlater
        have hyielding : d = .yielding := by
          rw [State.write, List.getElem?_set_self hi] at hd
          cases hd
          rfl
        rw [hyielding] at hlater
        cases hlater
    · rw [if_neg fun hp => hij hp.1, Nat.add_zero]
      refine ⟨hle, fun d hd hwrites => hzero d ?_ hwrites⟩
      rwa [State.write, List.getElem?_set_ne hij] at hd
  · rw [announcementsOf, hannounced, hcalls]
    exact ⟨hle, hzero⟩

/-- The peer has the tag, and nobody has announced it or is about to. -/
structure State.Settled (s : State) (p : PeerId) : Prop where
  tagged : s.Tagged p
  announcements : s.announcements p = 0
  writes : ∀ c ∈ s.calls, c.writes p = false

theorem State.Settled.step (h : s.Settled p) (hkeeps : KeepsTags s e) (hstep : step options s e = some s') :
    s'.Settled p := by
  rcases step_cases hstep with ⟨-, hcalls, hstore, hannounced⟩ | ⟨-, i, c, c', hcall, rfl, hmoves⟩ |
    ⟨-, i, c, peerInfo, peer, hcall, -, hwrites, htag, rfl⟩ | ⟨-, hcalls, hannounced, -, htagged⟩
  · refine ⟨?_, ?_, fun c hc => ?_⟩
    · rw [Tagged, hstore]
      exact h.tagged
    · rw [State.announcements, hannounced]
      exact h.announcements
    · rw [hcalls] at hc
      rcases List.mem_append.1 hc with hc | hc
      · exact h.writes c hc
      · rw [List.mem_singleton.1 hc]
        rfl
  · refine ⟨h.tagged, h.announcements, fun d hd => ?_⟩
    rcases List.mem_or_eq_of_mem_set hd with hd | rfl
    · exact h.writes d hd
    · by_contra hwrites
      exact hmoves.untagged p (Bool.not_eq_false _ ▸ hwrites) h.tagged
  · have hp : peerInfo.id ≠ p := by
      rintro rfl
      rw [h.writes c (List.mem_of_getElem? hcall)] at hwrites
      cases hwrites
    refine ⟨(tagged_write htag i peerInfo).2 (.inr h.tagged), ?_, fun d hd => ?_⟩
    · rw [announcements_write, if_neg hp]
      exact h.announcements
    · rcases List.mem_or_eq_of_mem_set hd with hd | rfl
      · exact h.writes d hd
      · rfl
  · refine ⟨htagged hkeeps p h.tagged, ?_, ?_⟩
    · rw [State.announcements, hannounced]
      exact h.announcements
    · rw [hcalls]
      exact h.writes

end

/-! ## Runs -/

section

variable {options : DnsDiscOptions} {store : Store} {s s' t : State} {e : Event} {es : List Event}

/-- Every peer that a call is busy with or that was announced came with an ENR. -/
structure State.Sourced (s : State) (es : List Event) : Prop where
  calls : ∀ c ∈ s.calls, ∀ peerInfo, c.peer = some peerInfo → Yielded es peerInfo
  announced : ∀ announcement ∈ s.announced, Yielded es announcement.2

theorem State.Sourced.step (h : s.Sourced es) (hstep : step options s e = some s') : s'.Sourced (es ++ [e]) := by
  have hcalls' : ∀ c ∈ s.calls, ∀ peerInfo, c.peer = some peerInfo → Yielded (es ++ [e]) peerInfo :=
    fun c hc peerInfo hpeer => (h.calls c hc peerInfo hpeer).append [e]
  have hannounced' : ∀ announcement ∈ s.announced, Yielded (es ++ [e]) announcement.2 :=
    fun announcement hmem => (h.announced announcement hmem).append [e]
  rcases step_cases hstep with ⟨-, hcalls, -, hannounced⟩ | ⟨-, i, c, c', hcall, rfl, hmoves⟩ |
    ⟨-, i, c, peerInfo, peer, hcall, hpeer, -, -, rfl⟩ | ⟨-, hcalls, hannounced, -⟩
  · rw [← hannounced] at hannounced'
    refine ⟨fun c hc => ?_, hannounced'⟩
    rw [hcalls] at hc
    rcases List.mem_append.1 hc with hc | hc
    · exact hcalls' c hc
    · rw [List.mem_singleton.1 hc]
      nofun
  · refine ⟨fun d hd peerInfo hpeer => ?_, hannounced'⟩
    rcases List.mem_or_eq_of_mem_set hd with hd | rfl
    · exact hcalls' d hd peerInfo hpeer
    · rcases hmoves.origin peerInfo hpeer with hpeer | ⟨-, j, peerEnr, rfl, hpeerEnr⟩
      · exact hcalls' c (List.mem_of_getElem? hcall) peerInfo hpeer
      · exact ⟨j, peerEnr, by simp, hpeerEnr⟩
  · constructor
    · intro d hd
      rcases List.mem_or_eq_of_mem_set hd with hd | rfl
      · exact hcalls' d hd
      · nofun
    · intro announcement hmem
      rcases List.mem_append.1 hmem with hmem | hmem
      · exact hannounced' announcement hmem
      · rw [List.mem_singleton.1 hmem]
        exact hcalls' c (List.mem_of_getElem? hcall) peerInfo hpeer
  · rw [← hannounced] at hannounced'
    rw [← hcalls] at hcalls'
    exact ⟨hcalls', hannounced'⟩

theorem length_calls (hrun : run (step options) (init store) es = some s) : s.calls.length = es.countP Event.calls := by
  refine run_invariant_of_history (P := fun s es => s.calls.length = es.countP Event.calls) rfl ?_ es hrun
  intro es s e s' _ hlength hstep
  rw [List.countP_append, List.countP_singleton, ← hlength]
  rcases step_cases hstep with ⟨hcalls, heq, -⟩ | ⟨hcalls, i, c, c', -, rfl, -⟩ |
    ⟨hcalls, i, c, peerInfo, peer, -, -, -, -, rfl⟩ | ⟨hcalls, heq, -⟩
  · rw [heq, hcalls, List.length_append]
    rfl
  · rw [hcalls]
    exact List.length_set
  · rw [hcalls]
    exact List.length_set
  · rw [heq, hcalls]
    rfl

/-- Only peers whose ENR was yielded are announced. While nobody takes a bootstrap tag away, an announced peer has it,
each call has announced it at most once, it was announced no more often than calls were made, and a peer that had the tag
from the beginning was not announced. -/
theorem announced_spec (hrun : run (step options) (init store) es = some s) :
    (∀ announcement ∈ s.announced, Yielded es announcement.2) ∧ (Meets (step options) KeepsTags (init store) es → ∀ p,
      (0 < s.announcements p → s.Tagged p) ∧ (∀ i, s.announcementsOf i p ≤ 1) ∧
      s.announcements p ≤ es.countP Event.calls ∧ ((init store).Tagged p → s.announcements p = 0)) := by
  constructor
  · have hsourced : s.Sourced es := by
      refine run_invariant_of_history ⟨nofun, nofun⟩ (fun es s e s' _ h hstep => ?_) es hrun
      exact State.Sourced.step h hstep
    exact hsourced.announced
  · intro hkeeps p
    have hstart : (init store).Counted p ∧ (init store).Once p :=
      ⟨⟨nofun, Nat.le_refl 0⟩, fun i => ⟨Nat.zero_le 1, fun c hc => by cases hc⟩⟩
    obtain ⟨hcounted, honce⟩ : s.Counted p ∧ s.Once p := by
      refine run_invariant_of_meets (P := fun s => s.Counted p ∧ s.Once p) ?_ es hstart hkeeps hrun
      exact fun s e s' h hkeeps hstep => ⟨h.1.step hkeeps hstep, h.2.step h.1.tagged hstep⟩
    refine ⟨hcounted.tagged, fun i => (honce i).1, ?_, fun htagged => ?_⟩
    · have hbound := hcounted.bound
      rw [length_calls hrun] at hbound
      exact (Nat.le_add_right _ _).trans hbound
    · have hquiet : (init store).Settled p := ⟨htagged, rfl, nofun⟩
      have hsettled : s.Settled p :=
        run_invariant_of_meets (P := (·.Settled p)) (fun _ _ _ h hkeeps hstep => h.step hkeeps hstep) es hquiet hkeeps hrun
      exact hsettled.announcements

/-- The ENR of a peer without shards. -/
def enrOf (peerId : PeerId) : Enr := ⟨some peerId, none, none, .ok []⟩

/-- Two calls take the same ENR. -/
def racingRun : List Event :=
  [.start, .findPeers, .yielded 0 (some (enrOf "a")), .yielded 1 (some (enrOf "a")), .answered 0, .answered 1, .answered 0,
    .answered 1]

/-- Each of them announces the peer. -/
theorem announced_spec_racingRun : ∃ s, run (step ⟨none, none⟩) (init Map.empty) racingRun = some s ∧
    s.announcements "a" = 2 ∧ (∀ announcement ∈ s.announced, Yielded racingRun announcement.2) ∧ s.Tagged "a" ∧
    ∀ i, s.announcementsOf i "a" ≤ 1 := by
  have hrun : (run (step ⟨none, none⟩) (init Map.empty) racingRun).isSome = true := by decide
  obtain ⟨s, hs⟩ := Option.isSome_iff_exists.1 hrun
  have htwice : ∀ s ∈ run (step ⟨none, none⟩) (init Map.empty) racingRun, s.announcements "a" = 2 := by decide
  obtain ⟨hyielded, htags⟩ := announced_spec hs
  obtain ⟨htagged, honce, -⟩ := htags (by decide) "a"
  exact ⟨s, hs, htwice s hs, hyielded, htagged (by rw [htwice s hs]; decide), honce⟩

/-- A stopped service stays so until it is started. -/
theorem started_step (hstep : step options s e = some s') (he : e ≠ .start) (hstopped : s.started = false) :
    s'.started = false := by
  cases e with
  | start => exact absurd rfl he
  | findPeers | stop | changed =>
    cases hstep
    first | exact hstopped | rfl
  | yielded i peerEnr =>
    simp only [step] at hstep
    split at hstep
    · cases hstep
      exact hstopped
    · cases hstep
  | answered i =>
    obtain ⟨c, -, hanswer⟩ := Option.bind_eq_some_iff.1 hstep
    cases c with
    | yielding | ended => cases hanswer
    | checking | getting | merging | saving =>
      cases hanswer
      exact hstopped

/-- Until it is started again, a stopped service announces no peer that a call was not busy with when it was stopped, and
each of those at most once for that call. -/
theorem announced_after_stop (hrun : run (step options) s es = some t) (hstopped : s.started = false)
    (hes : ∀ e ∈ es, e ≠ .start) :
    ∃ more, t.announced = s.announced ++ more ∧ (more.map Prod.snd).Subperm (s.calls.filterMap FindPeers.peer) := by
  suffices h : t.started = false ∧ ∃ more, t.announced = s.announced ++ more ∧
      (more.map Prod.snd ++ t.calls.filterMap FindPeers.peer).Subperm (s.calls.filterMap FindPeers.peer) by
    obtain ⟨-, more, heq, hsub⟩ := h
    exact ⟨more, heq, (List.sublist_append_left _ _).subperm.trans hsub⟩
  refine run_invariant_of_events (P := fun t => t.started = false ∧ ∃ more, t.announced = s.announced ++ more ∧
    (more.map Prod.snd ++ t.calls.filterMap FindPeers.peer).Subperm (s.calls.filterMap FindPeers.peer)) ?_ es
    ⟨hstopped, [], (List.append_nil _).symm, List.Subperm.refl _⟩ hes hrun
  rintro u e u' ⟨hstopped, more, heq, hsub⟩ he hstep
  refine ⟨started_step hstep he hstopped, ?_⟩
  rcases step_cases hstep with ⟨-, hcalls, -, hannounced⟩ | ⟨-, i, c, c', hcall, rfl, hmoves⟩ |
    ⟨-, i, c, peerInfo, peer, hcall, hpeer, -, -, rfl⟩ | ⟨-, hcalls, hannounced, -⟩
  · refine ⟨more, hannounced.trans heq, ?_⟩
    rw [hcalls, List.filterMap_append, show [FindPeers.yielding].filterMap FindPeers.peer = [] from rfl, List.append_nil]
    exact hsub
  · refine ⟨more, heq, List.Subperm.trans ?_ hsub⟩
    obtain ⟨rest, hbefore, hafter⟩ := perm_set hcall c'
    refine ((hafter.filterMap _).append_left (more.map Prod.snd)).subperm.trans
      (List.Subperm.trans ?_ ((hbefore.filterMap _).append_left (more.map Prod.snd)).symm.subperm)
    -- A peer that the call is busy with now, it was busy with before, for no ENR is taken.
    cases hpeer' : c'.peer with
    | none =>
      rw [List.filterMap_cons_none hpeer']
      exact ((((List.sublist_cons_self c rest).filterMap _)).append_left (more.map Prod.snd)).subperm
    | some peerInfo =>
      have hpeer : c.peer = some peerInfo :=
        (hmoves.origin peerInfo hpeer').resolve_right fun ⟨hstarted, _⟩ => by
          rw [hstopped] at hstarted
          cases hstarted
      rw [List.filterMap_cons_some hpeer', List.filterMap_cons_some hpeer]
  · refine ⟨more ++ [(i, peerInfo)], ?_, List.Subperm.trans ?_ hsub⟩
    · show u.announced ++ [(i, peerInfo)] = s.announced ++ (more ++ [(i, peerInfo)])
      rw [heq, List.append_assoc]
    · obtain ⟨rest, hbefore, hafter⟩ := perm_set hcall .yielding
      have hnow : ((u.calls.set i .yielding).filterMap FindPeers.peer).Perm (rest.filterMap FindPeers.peer) :=
        hafter.filterMap _
      have hthen : (u.calls.filterMap FindPeers.peer).Perm (peerInfo :: rest.filterMap FindPeers.peer) := by
        rw [← List.filterMap_cons_some hpeer]
        exact hbefore.filterMap _
      rw [List.map_append, List.append_assoc]
      exact ((hnow.cons peerInfo).trans hthen.symm).append_left (more.map Prod.snd) |>.subperm
  · refine ⟨more, hannounced.trans heq, ?_⟩
    rw [hcalls]
    exact hsub

/-- A service that was stopped while a call was busy with a peer. -/
def stopped : State := ⟨false, Map.empty, [.saving ⟨"a", []⟩ none], []⟩

/-- The call announces the peer, and ends at the next ENR. -/
def stoppedRun : List Event := [.answered 0, .yielded 0 (some (enrOf "b"))]

theorem announced_after_stop_stoppedRun : ∃ t, run (step ⟨none, none⟩) stopped stoppedRun = some t ∧
    ∃ more, t.announced = [] ++ more ∧ (more.map Prod.snd).Subperm [⟨"a", []⟩] := by
  have hes : ∀ e ∈ stoppedRun, e ≠ .start := by
    intro e he
    rcases List.mem_pair.1 he with rfl | rfl <;> nofun
  have hafter : ∀ t, run (step ⟨none, none⟩) stopped stoppedRun = some t →
      ∃ more, t.announced = [] ++ more ∧ (more.map Prod.snd).Subperm [⟨"a", []⟩] := fun t hrun => announced_after_stop hrun rfl hes
  exact ⟨_, rfl, hafter _ rfl⟩

end

end JsWaku.PeerDiscoveryDns
