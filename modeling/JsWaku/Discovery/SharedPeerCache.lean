import JsWaku.Discovery.LocalPeerCache
import JsWaku.Lib.Transition
import JsWaku.Runtime.Text
import Mathlib.Logic.Function.Basic

/-!
# The local peer cache across pages

Instances of `LocalPeerCacheDiscovery`, `packages/discovery/src/local-peer-cache/index.ts`, in pages of a browser that
share its `localStorage`. An event constructs, starts or stops an instance, identifies a peer, answers a call of a peer
store, or closes a page; events come in any order, and a page may deny access to the storage or have no room left in it.
Since `JSON.parse` gives back what `JSON.stringify` was given, the item is kept as what `JSON.parse` makes of it.

The stored addresses are those of the latest identifications as long as, and only as long as, no instance that has missed
one is stopped (`stored_iff_meets`), which holds for pages that follow one another (`stored_of_solo`).
-/

namespace JsWaku.LocalPeerCache.Shared

open Transition Text

/-! ## Data -/

/-- What the code uses of peer ids and multiaddrs, beside the parsers. -/
structure Env (Multiaddr : Type) extends Parsers Multiaddr where
  toString : Multiaddr → String

/-- The item `waku:peers`, as what `JSON.parse` makes of it; none if it is absent or empty. -/
abbrev Item := Option (Except JsError Json)

/-- What becomes of an access to the storage. -/
inductive Access
  | granted
  /-- `setItem` throws. -/
  | full
  /-- `getItem` throws as well. -/
  | denied
  deriving DecidableEq, Repr

/-- An instance, in a page of its own. -/
structure Discovery where
  isStarted : Bool
  peers : List LocalStoragePeerInfo
  listening : Bool
  closed : Bool
  deriving DecidableEq, Repr

/-- Where a call of `start` is suspended, with the entries that its loop has not come to. -/
inductive Progress (Multiaddr : Type)
  /-- At `peerStore.has`. -/
  | checking (peerId : PeerId) (address : String) (rest : List LocalStoragePeerInfo)
  /-- At `peerStore.save`. -/
  | saving (peerId : PeerId) (address : Multiaddr) (rest : List LocalStoragePeerInfo)
  | resolved
  | rejected

/-- A call of `start` on an instance. -/
structure Call (Multiaddr : Type) where
  discovery : ℕ
  progress : Progress Multiaddr

/-- The storage, the instances, the calls of `start`, and what each of these announced. -/
structure State (Multiaddr : Type) where
  item : Item
  discoveries : List Discovery
  calls : List (Call Multiaddr)
  announced : List (ℕ × PeerId × Multiaddr)

/-- The events, with the places of the instance or of the call. -/
inductive Event (Multiaddr : Type)
  | constructed (access : Access)
  | start (i : ℕ)
  | stop (i : ℕ) (access : Access)
  | identified (i : ℕ) (peerId : PeerId) (listenAddrs : List Multiaddr) (access : Access)
  /-- `peerStore.has` resolves, or rejects. -/
  | has (j : ℕ) (peerId : PeerId) (known : Option Bool)
  /-- `peerStore.save` resolves, or rejects. -/
  | saved (j : ℕ) (ok : Bool)
  | closed (i : ℕ)
  /-- The item is removed from the storage. -/
  | cleared

/-! ## The storage -/

/-- The peers in the item. -/
def getPeers : Item → List LocalStoragePeerInfo
  | some (.ok (.array peers)) => peers.filterMap isValidStoredPeer
  | _ => []

/-- They are what is read when the item is a text. -/
theorem getPeersFromLocalStorage_text {Multiaddr : Type} (parsers : Parsers Multiaddr) (text : String) :
    getPeersFromLocalStorage parsers (.ok (some text)) =
      getPeers (if text = "" then none else some (parsers.json text)) := by
  unfold getPeersFromLocalStorage tryGetPeers
  split_ifs with h
  · subst h
    rfl
  · cases hjson : parsers.json text with
    | error e => simp [hjson, getPeers]
    | ok json => cases json <;> simp [hjson, getPeers] <;> rfl

/-- `LocalStoragePeerInfo` as a value. -/
def toJson (peer : LocalStoragePeerInfo) : Json := .object [("id", .string peer.id), ("address", .string peer.address)]

/-- `JSON.stringify`, read back. -/
def stringify (peers : List LocalStoragePeerInfo) : Item := some (.ok (.array (peers.map toJson)))

@[simp] theorem getPeers_stringify (peers : List LocalStoragePeerInfo) : getPeers (stringify peers) = peers := by
  rw [stringify, getPeers, List.filterMap_map]
  exact List.filterMap_some

/-- `getPeersFromLocalStorage`. -/
def Access.read (item : Item) : Access → List LocalStoragePeerInfo
  | .granted | .full => getPeers item
  | .denied => []

/-- `savePeersToLocalStorage`. -/
def Access.write (item : Item) (peers : List LocalStoragePeerInfo) : Access → Item
  | .granted => stringify peers
  | .full | .denied => item

/-! ## The code -/

section

variable {Multiaddr : Type} (env : Env Multiaddr)

/-- `getWsMultiaddrFromMultiaddrs`, which throws if there is none. -/
def getWsMultiaddrFromMultiaddrs (addresses : List Multiaddr) : Option Multiaddr :=
  addresses.find? fun addr => includes (env.toString addr) "ws" || includes (env.toString addr) "wss"

/-- The address of the peer is replaced where its first entry is, or the peer is added. -/
def upsert (localStoragePeers : List LocalStoragePeerInfo) (id : PeerId) (address : String) :
    List LocalStoragePeerInfo :=
  match localStoragePeers.findIdx? fun peer => peer.id == id with
  | some existingPeerIndex => localStoragePeers.modify existingPeerIndex fun peer => { peer with address }
  | none => localStoragePeers ++ [{ id, address }]

/-- The loop of `start` up to its next `await`. -/
def next : List LocalStoragePeerInfo → Progress Multiaddr
  | [] => .resolved
  | peer :: rest =>
    match env.peerIdFromString peer.id with
    | .error _ => .rejected
    | .ok peerId => .checking peerId peer.address rest

namespace State

variable (s : State Multiaddr)

/-- The instance, if its page is open. -/
def live (i : ℕ) : Option Discovery := s.discoveries[i]?.filter fun discovery => !discovery.closed

/-- A call goes on with the loop, and with what follows it. -/
def resume (j i : ℕ) (rest : List LocalStoragePeerInfo) : State Multiaddr :=
  let progress := next env rest
  { s with
    calls := s.calls.set j ⟨i, progress⟩
    discoveries :=
      match progress with
      | .resolved => s.discoveries.modify i fun discovery => { discovery with isStarted := true }
      | _ => s.discoveries }

/-- A call of `start` on an instance that is not started. -/
def begin (i : ℕ) (discovery : Discovery) : State Multiaddr :=
  let begun : State Multiaddr :=
    { s with
      discoveries := s.discoveries.set i { discovery with listening := true }
      calls := s.calls ++ [⟨i, .rejected⟩] }
  begun.resume env s.calls.length i discovery.peers

/-- `peerStore.has` answers for an entry. -/
def checked (j i : ℕ) (peerId : PeerId) (address : String) (rest : List LocalStoragePeerInfo) :
    Option Bool → State Multiaddr
  | some true => s.resume env j i rest
  | some false =>
    match env.multiaddr address with
    | .error _ => { s with calls := s.calls.set j ⟨i, .rejected⟩ }
    | .ok address => { s with calls := s.calls.set j ⟨i, .saving peerId address rest⟩ }
  | none => { s with calls := s.calls.set j ⟨i, .rejected⟩ }

/-- A peer is announced, and the call goes on. -/
def announce (j i : ℕ) (peerId : PeerId) (address : Multiaddr) (rest : List LocalStoragePeerInfo) : State Multiaddr :=
  let announcing : State Multiaddr := { s with announced := s.announced ++ [(j, peerId, address)] }
  announcing.resume env j i rest

end State

/-- One event; an event that cannot happen gives nothing. -/
def step (s : State Multiaddr) : Event Multiaddr → Option (State Multiaddr)
  | .constructed access =>
    let discovery := { isStarted := false, peers := access.read s.item, listening := false, closed := false }
    some { s with discoveries := s.discoveries ++ [discovery] }
  | .start i => do
    let discovery ← s.live i
    return if discovery.isStarted then s else s.begin env i discovery
  | .stop i access => do
    let discovery ← s.live i
    return if !discovery.isStarted then s else
      { s with
        discoveries := s.discoveries.set i { discovery with listening := false, isStarted := false }
        item := access.write s.item discovery.peers }
  | .identified i peerId listenAddrs access => do
    let discovery ← s.live i
    guard discovery.listening
    match getWsMultiaddrFromMultiaddrs env listenAddrs with
    | none => return s
    | some websocketMultiaddr =>
      let peers := upsert (access.read s.item) peerId (env.toString websocketMultiaddr)
      return { s with
        discoveries := s.discoveries.set i { discovery with peers }
        item := access.write s.item peers }
  | .has j peerId known => do
    let call ← s.calls[j]?
    let _ ← s.live call.discovery
    match call.progress with
    | .checking checkedId address rest =>
      guard (peerId = checkedId)
      return s.checked env j call.discovery peerId address rest known
    | _ => none
  | .saved j ok => do
    let call ← s.calls[j]?
    let _ ← s.live call.discovery
    match call.progress with
    | .saving peerId address rest =>
      return if ok then s.announce env j call.discovery peerId address rest
        else { s with calls := s.calls.set j ⟨call.discovery, .rejected⟩ }
    | _ => none
  | .closed i => do
    let discovery ← s.live i
    return { s with discoveries := s.discoveries.set i { discovery with closed := true } }
  | .cleared => some { s with item := none }

end

/-! ## The memory of the pages -/

/-- The address that a list of peers has for a peer. -/
def lookup (peers : List LocalStoragePeerInfo) (id : PeerId) : Option String :=
  (peers.find? fun peer => peer.id == id).map (·.address)

theorem lookup_upsert (peers : List LocalStoragePeerInfo) (id : PeerId) (address : String) :
    lookup (upsert peers id address) = Function.update (lookup peers) id (some address) := by
  funext other
  induction peers with
  | nil =>
    by_cases h : id = other
    · subst h
      simp [lookup, upsert]
    · simp [lookup, upsert, h, Function.update_of_ne (Ne.symm h)]
  | cons peer peers ih =>
    by_cases hid : peer.id = id
    · subst hid
      by_cases h : peer.id = other
      · subst h
        simp [lookup, upsert, List.findIdx?_cons]
      · simp [lookup, upsert, List.findIdx?_cons, h, Function.update_of_ne (Ne.symm h)]
    · have hcons : upsert (peer :: peers) id address = peer :: upsert peers id address := by
        rw [upsert, upsert, List.findIdx?_cons, if_neg (by simpa using hid)]
        cases peers.findIdx? fun peer => peer.id == id <;> simp
      rw [hcons]
      by_cases h : peer.id = other
      · subst h
        simp [lookup, Function.update_of_ne hid]
      · have hskip : ∀ l, lookup (peer :: l) other = lookup l other := fun l => by simp [lookup, h]
        rw [hskip, ih]
        by_cases hother : other = id
        · subst hother
          simp
        · rw [Function.update_of_ne hother, Function.update_of_ne hother, hskip]

section

variable {Multiaddr : Type}

/-- The addresses in the storage. -/
def State.stored (s : State Multiaddr) : PeerId → Option String := lookup (getPeers s.item)

variable (env : Env Multiaddr)

/-- What all pages together should remember: of each peer the address of its latest identification. -/
def remember (memory : PeerId → Option String) : Event Multiaddr → PeerId → Option String
  | .identified _ peerId listenAddrs .granted =>
    match getWsMultiaddrFromMultiaddrs env listenAddrs with
    | none => memory
    | some websocketMultiaddr => Function.update memory peerId (some (env.toString websocketMultiaddr))
  | .cleared => fun _ => none
  | _ => memory

/-- A started instance that is stopped has the addresses that are stored. -/
def Fresh (s : State Multiaddr) : Event Multiaddr → Prop
  | .stop i .granted => ∀ discovery ∈ s.live i, discovery.isStarted = true → lookup discovery.peers = s.stored
  | _ => True

/-! ## Steps -/

/-- The instances that are live after a step were live before, with the same lists. -/
structure Keeps (s s' : State Multiaddr) : Prop where
  length : s'.discoveries.length = s.discoveries.length
  live : ∀ i, ∀ discovery' ∈ s'.live i, ∃ discovery ∈ s.live i, discovery'.peers = discovery.peers

variable {env} {s s' : State Multiaddr} {e : Event Multiaddr}

theorem Keeps.of_eq (h : s'.discoveries = s.discoveries) : Keeps s s' := by
  refine ⟨by rw [h], fun i discovery' hlive => ⟨discovery', ?_, rfl⟩⟩
  rwa [State.live, ← h]

theorem Keeps.trans {t : State Multiaddr} (h : Keeps s s') (h' : Keeps s' t) : Keeps s t := by
  refine ⟨h'.length.trans h.length, fun i discovery'' hlive => ?_⟩
  obtain ⟨discovery', hlive', heq'⟩ := h'.live i discovery'' hlive
  obtain ⟨discovery, hlive, heq⟩ := h.live i discovery' hlive'
  exact ⟨discovery, hlive, heq'.trans heq⟩

theorem live_eq_some {i : ℕ} {discovery : Discovery} :
    s.live i = some discovery ↔ s.discoveries[i]? = some discovery ∧ discovery.closed = false := by
  simp [State.live, Option.filter_eq_some_iff]

/-- An instance changes, but not its list. -/
theorem Keeps.of_set {i : ℕ} {discovery changed : Discovery} (hlive : s.live i = some discovery)
    (h : s'.discoveries = s.discoveries.set i changed) (hpeers : changed.peers = discovery.peers) : Keeps s s' := by
  refine ⟨by rw [h, List.length_set], fun k discovery' hlive' => ?_⟩
  obtain ⟨hget, hclosed⟩ := live_eq_some.1 hlive'
  rw [h] at hget
  by_cases hk : i = k
  · subst hk
    obtain ⟨hi, -⟩ := List.getElem?_eq_some_iff.1 (live_eq_some.1 hlive).1
    rw [List.getElem?_set_self hi, Option.some.injEq] at hget
    subst hget
    exact ⟨discovery, hlive, hpeers⟩
  · rw [List.getElem?_set_ne hk] at hget
    exact ⟨discovery', live_eq_some.2 ⟨hget, hclosed⟩, rfl⟩

theorem keeps_resume (s : State Multiaddr) (j i : ℕ) (rest : List LocalStoragePeerInfo) :
    Keeps s (s.resume env j i rest) := by
  unfold State.resume
  cases next env rest with
  | checking | saving | rejected => exact Keeps.of_eq rfl
  | resolved =>
    refine ⟨by simp, fun k discovery' hlive => ?_⟩
    obtain ⟨hget, hclosed⟩ := live_eq_some.1 hlive
    rw [List.getElem?_modify] at hget
    obtain ⟨discovery, hdiscovery, rfl⟩ := Option.map_eq_some_iff.1 hget
    refine ⟨discovery, live_eq_some.2 ⟨hdiscovery, ?_⟩, ?_⟩
    · split at hclosed <;> exact hclosed
    · split <;> rfl

/-- A call of `start` and the answers of a peer store leave the storage and the lists alone. -/
theorem keeps_begin {i : ℕ} {discovery : Discovery} (hlive : s.live i = some discovery) :
    Keeps s (s.begin env i discovery) := by
  refine Keeps.trans ?_ (keeps_resume _ _ _ _)
  exact Keeps.of_set hlive rfl rfl

theorem checked_keeps (env : Env Multiaddr) (s : State Multiaddr) (j i : ℕ) (peerId : PeerId) (address : String)
    (rest : List LocalStoragePeerInfo) (known : Option Bool) :
    (s.checked env j i peerId address rest known).item = s.item ∧
      Keeps s (s.checked env j i peerId address rest known) := by
  unfold State.checked
  split
  · exact ⟨rfl, keeps_resume s j i rest⟩
  · split <;> exact ⟨rfl, Keeps.of_eq rfl⟩
  · exact ⟨rfl, Keeps.of_eq rfl⟩

/-- What a step does to the storage and to the lists. -/
theorem step_cases (h : step env s e = some s') :
    (s'.item = s.item ∧ Keeps s s' ∧ (∀ memory, remember env memory e = memory) ∧ Fresh s e) ∨
    (∃ access, e = .constructed access ∧ s'.item = s.item ∧
      s'.discoveries = s.discoveries ++ [⟨false, access.read s.item, false, false⟩]) ∨
    (∃ i peerId listenAddrs access discovery websocketMultiaddr, e = .identified i peerId listenAddrs access ∧
      s.live i = some discovery ∧ getWsMultiaddrFromMultiaddrs env listenAddrs = some websocketMultiaddr ∧
      s'.discoveries = s.discoveries.set i { discovery with
        peers := upsert (access.read s.item) peerId (env.toString websocketMultiaddr) } ∧
      s'.item = access.write s.item (upsert (access.read s.item) peerId (env.toString websocketMultiaddr))) ∨
    (∃ i access discovery, e = .stop i access ∧ s.live i = some discovery ∧ discovery.isStarted = true ∧ Keeps s s' ∧
      s'.item = access.write s.item discovery.peers) ∨
    (e = .cleared ∧ s'.item = none ∧ Keeps s s') := by
  cases e with
  | constructed access =>
    cases h
    exact .inr (.inl ⟨access, rfl, rfl, rfl⟩)
  | start i =>
    obtain ⟨discovery, hlive, h⟩ := Option.bind_eq_some_iff.1 h
    cases h
    refine .inl ⟨?_, ?_, fun _ => rfl, trivial⟩
    · split <;> rfl
    · split
      · exact Keeps.of_eq rfl
      · exact keeps_begin hlive
  | stop i access =>
    obtain ⟨discovery, hlive, h⟩ := Option.bind_eq_some_iff.1 h
    cases h
    cases hstarted : discovery.isStarted with
    | false =>
      refine .inl ⟨rfl, Keeps.of_eq rfl, fun _ => rfl, ?_⟩
      cases access with
      | full | denied => trivial
      | granted =>
        intro discovery' hlive' hstarted'
        cases hlive.symm.trans hlive'
        rw [hstarted] at hstarted'
        cases hstarted'
    | true =>
      exact .inr (.inr (.inr (.inl ⟨i, access, discovery, rfl, hlive, hstarted, Keeps.of_set hlive rfl rfl, rfl⟩)))
  | identified i peerId listenAddrs access =>
    obtain ⟨discovery, hlive, h⟩ := Option.bind_eq_some_iff.1 h
    obtain ⟨-, -, h⟩ := Option.bind_eq_some_iff.1 h
    cases hws : getWsMultiaddrFromMultiaddrs env listenAddrs with
    | none =>
      rw [hws] at h
      cases h
      refine .inl ⟨rfl, Keeps.of_eq rfl, fun memory => ?_, trivial⟩
      cases access with
      | granted => rw [remember, hws]
      | full | denied => rfl
    | some websocketMultiaddr =>
      rw [hws] at h
      cases h
      exact .inr (.inr (.inl ⟨i, peerId, listenAddrs, access, discovery, websocketMultiaddr, rfl, hlive, hws, rfl, rfl⟩))
  | has j peerId known =>
    obtain ⟨call, -, h⟩ := Option.bind_eq_some_iff.1 h
    obtain ⟨-, -, h⟩ := Option.bind_eq_some_iff.1 h
    cases hprogress : call.progress with
    | saving | resolved | rejected =>
      rw [hprogress] at h
      cases h
    | checking checkedId address rest =>
      rw [hprogress] at h
      obtain ⟨-, -, h⟩ := Option.bind_eq_some_iff.1 h
      cases h
      obtain ⟨hitem, hkeeps⟩ := checked_keeps env s j call.discovery peerId address rest known
      exact .inl ⟨hitem, hkeeps, fun _ => rfl, trivial⟩
  | saved j ok =>
    obtain ⟨call, -, h⟩ := Option.bind_eq_some_iff.1 h
    obtain ⟨-, -, h⟩ := Option.bind_eq_some_iff.1 h
    cases hprogress : call.progress with
    | checking | resolved | rejected =>
      rw [hprogress] at h
      cases h
    | saving peerId address rest =>
      rw [hprogress] at h
      cases h
      refine .inl ⟨?_, ?_, fun _ => rfl, trivial⟩
      · split <;> rfl
      · split
        · have hannounced : Keeps s { s with announced := s.announced ++ [(j, peerId, address)] } := Keeps.of_eq rfl
          exact hannounced.trans (keeps_resume _ _ _ _)
        · exact Keeps.of_eq rfl
  | closed i =>
    obtain ⟨discovery, hlive, h⟩ := Option.bind_eq_some_iff.1 h
    cases h
    exact .inl ⟨rfl, Keeps.of_set hlive rfl rfl, fun _ => rfl, trivial⟩
  | cleared =>
    cases h
    exact .inr (.inr (.inr (.inr ⟨rfl, rfl, Keeps.of_eq rfl⟩)))

/-! ## What is remembered -/

/-- Peer ids and multiaddrs as their texts. -/
def plainEnv : Env String where
  json _ := .error (.error "Unexpected token")
  peerIdFromString := .ok
  multiaddr := .ok
  toString := id

/-- Nothing but an item. -/
def init (item : Item) : State Multiaddr := { item, discoveries := [], calls := [], announced := [] }

/-- In every state the stored addresses are those of the latest identifications exactly if every instance that is stopped
has the stored addresses. -/
theorem stored_iff_meets {es : List (Event Multiaddr)} {t : State Multiaddr} (hrun : run (step env) s es = some t) :
    (∀ es₁ es₂ u, es = es₁ ++ es₂ → run (step env) s es₁ = some u → u.stored = es₁.foldl (remember env) s.stored) ↔
      Meets (step env) Fresh s es := by
  refine follows_iff_meets (P := fun s memory => s.stored = memory) ?_ es rfl hrun
  rintro s memory e s' rfl hstep
  rcases step_cases hstep with ⟨hitem, -, hremember, hfresh⟩ | ⟨access, rfl, hitem, -⟩ |
    ⟨i, peerId, listenAddrs, access, discovery, websocketMultiaddr, rfl, -, hws, -, hitem⟩ |
    ⟨i, access, discovery, rfl, hlive, hstarted, -, hitem⟩ | ⟨rfl, hitem, -⟩
  · rw [State.stored, hitem, hremember]
    exact iff_of_true rfl hfresh
  · rw [State.stored, hitem]
    exact iff_of_true rfl trivial
  · refine iff_of_true ?_ trivial
    cases access with
    | granted =>
      rw [remember, hws, State.stored, hitem, Access.write, getPeers_stringify, lookup_upsert]
      rfl
    | full | denied =>
      rw [State.stored, hitem]
      rfl
  · cases access with
    | granted =>
      rw [State.stored, hitem, Access.write, getPeers_stringify]
      refine ⟨fun heq discovery' hlive' _ => ?_, fun hfresh => hfresh discovery hlive hstarted⟩
      cases hlive.symm.trans hlive'
      exact heq
    | full | denied =>
      rw [State.stored, hitem]
      exact iff_of_true rfl trivial
  · rw [State.stored, hitem]
    exact iff_of_true rfl trivial

/-- Two pages; the second identifies a peer, then the first is stopped. -/
def twoPages : List (Event String) :=
  [.constructed .granted, .constructed .granted, .start 0, .start 1, .identified 1 "b" ["/dns4/b/tcp/443/wss"] .granted,
    .stop 0 .granted]

/-- The peer is lost. -/
theorem stored_iff_meets_twoPages : ∃ t, run (step plainEnv) (init none) twoPages = some t ∧ t.stored "b" = none ∧
    ¬Meets (step plainEnv) Fresh (init none) twoPages := by
  have hrun : (run (step plainEnv) (init none) twoPages).isSome = true := by decide +kernel
  obtain ⟨t, ht⟩ := Option.isSome_iff_exists.1 hrun
  have hlost : ∀ t ∈ run (step plainEnv) (init none) twoPages, t.stored "b" = none := by decide +kernel
  refine ⟨t, ht, hlost t ht, fun hfresh => ?_⟩
  have hstored := (stored_iff_meets ht).2 hfresh twoPages [] t (List.append_nil _).symm ht
  have hsome : twoPages.foldl (remember plainEnv) (init none : State String).stored "b" = some "/dns4/b/tcp/443/wss" := by
    decide +kernel
  rw [← hstored, hlost t ht] at hsome
  cases hsome

/-- An instance is constructed when the pages of all others are closed, and no access to the storage fails. -/
def Solo (s : State Multiaddr) : Event Multiaddr → Prop
  | .constructed access => access = .granted ∧ ∀ discovery ∈ s.discoveries, discovery.closed = true
  | .stop _ access | .identified _ _ _ access => access = .granted
  | .cleared => False
  | _ => True

instance (s : State Multiaddr) : ∀ e : Event Multiaddr, Decidable (Solo s e)
  | .constructed access => inferInstanceAs (Decidable (access = .granted ∧ _))
  | .stop _ access | .identified _ _ _ access => inferInstanceAs (Decidable (access = .granted))
  | .cleared => isFalse id
  | .start _ | .has _ _ _ | .saved _ _ | .closed _ => isTrue trivial

/-- Only the last instance is live, and it has the addresses that are stored. -/
def State.Alone (s : State Multiaddr) : Prop :=
  ∀ i, ∀ discovery ∈ s.live i, i + 1 = s.discoveries.length ∧ lookup discovery.peers = s.stored

theorem State.Alone.step (h : s.Alone) (hsolo : Solo s e) (hstep : step env s e = some s') : s'.Alone := by
  intro k discovery' hlive'
  rcases step_cases hstep with ⟨hitem, hkeeps, -⟩ | ⟨access, rfl, hitem, hdiscoveries⟩ |
    ⟨i, peerId, listenAddrs, access, discovery, websocketMultiaddr, rfl, hlive, -, hdiscoveries, hitem⟩ |
    ⟨i, access, discovery, rfl, hlive, -, hkeeps, hitem⟩ | ⟨rfl, -⟩
  · obtain ⟨discovery, hlive, hpeers⟩ := hkeeps.live k discovery' hlive'
    obtain ⟨hlast, hstored⟩ := h k discovery hlive
    rw [hkeeps.length, hpeers, State.stored, hitem]
    exact ⟨hlast, hstored⟩
  · obtain ⟨rfl, hclosed⟩ := hsolo
    obtain ⟨hget, hopen⟩ := live_eq_some.1 hlive'
    rw [hdiscoveries, List.length_append, State.stored, hitem]
    rw [hdiscoveries] at hget
    rcases Nat.lt_or_ge k s.discoveries.length with hk | hk
    · rw [List.getElem?_append_left hk] at hget
      rw [hclosed _ (List.mem_of_getElem? hget)] at hopen
      cases hopen
    · rw [List.getElem?_append_right hk, List.getElem?_singleton] at hget
      split at hget
      · cases hget
        exact ⟨by simp only [List.length_singleton]; omega, rfl⟩
      · cases hget
  · obtain rfl : access = .granted := hsolo
    obtain ⟨hlast, -⟩ := h i discovery hlive
    obtain ⟨hget, hopen⟩ := live_eq_some.1 hlive'
    rw [hdiscoveries, List.length_set, State.stored, hitem, Access.write, getPeers_stringify]
    rw [hdiscoveries] at hget
    by_cases hk : i = k
    · subst hk
      obtain ⟨hi, -⟩ := List.getElem?_eq_some_iff.1 (live_eq_some.1 hlive).1
      rw [List.getElem?_set_self hi] at hget
      cases hget
      exact ⟨hlast, rfl⟩
    · rw [List.getElem?_set_ne hk] at hget
      obtain ⟨hlast', -⟩ := h k discovery' (live_eq_some.2 ⟨hget, hopen⟩)
      omega
  · obtain rfl : access = .granted := hsolo
    obtain ⟨hlast, -⟩ := h i discovery hlive
    obtain ⟨discovery₀, hlive₀, hpeers⟩ := hkeeps.live k discovery' hlive'
    obtain ⟨hlast₀, -⟩ := h k discovery₀ hlive₀
    obtain rfl : i = k := by omega
    cases hlive.symm.trans hlive₀
    rw [hkeeps.length, hpeers, State.stored, hitem, Access.write, getPeers_stringify]
    exact ⟨hlast, rfl⟩
  · exact hsolo.elim

/-- While pages follow one another, the storage and the live instance have of each peer the address of its latest
identification. -/
theorem stored_of_solo {item : Item} {es : List (Event Multiaddr)} {t : State Multiaddr}
    (hrun : run (step env) (init item) es = some t) (hsolo : Meets (step env) Solo (init item) es) :
    t.stored = es.foldl (remember env) (lookup (getPeers item)) ∧
      ∀ i, ∀ discovery ∈ t.live i, lookup discovery.peers = es.foldl (remember env) (lookup (getPeers item)) := by
  have hstart : (init item : State Multiaddr).Alone := nofun
  have hfresh : Meets (step env) Fresh (init item) es := by
    refine Meets.imp (K := State.Alone) (fun s e s' h hsolo hstep => h.step hsolo hstep) (fun s e h _ => ?_) hstart hsolo
    unfold Fresh
    split
    · exact fun discovery hlive _ => (h _ discovery hlive).2
    · trivial
  have hstored := (stored_iff_meets hrun).2 hfresh es [] t (List.append_nil es).symm hrun
  have halone : t.Alone :=
    run_invariant_of_meets (P := State.Alone) (fun s e s' h hsolo hstep => h.step hsolo hstep) es hstart hsolo hrun
  exact ⟨hstored, fun i discovery hlive => ((halone i discovery hlive).2).trans hstored⟩

/-- A page that is left without a stop, and the next one. -/
def nextPage : List (Event String) :=
  [.constructed .granted, .start 0, .identified 0 "b" ["/ip4/127.0.0.1/tcp/1", "/dns4/b/tcp/443/wss"] .granted, .closed 0,
    .constructed .granted]

/-- The next page knows the peer. -/
theorem stored_of_solo_nextPage : ∃ t, run (step plainEnv) (init none) nextPage = some t ∧
    ∀ discovery ∈ t.live 1, lookup discovery.peers "b" = some "/dns4/b/tcp/443/wss" := by
  have hrun : (run (step plainEnv) (init none) nextPage).isSome = true := by decide +kernel
  obtain ⟨t, ht⟩ := Option.isSome_iff_exists.1 hrun
  obtain ⟨-, hlive⟩ := stored_of_solo ht (by decide +kernel)
  refine ⟨t, ht, fun discovery hdiscovery => ?_⟩
  rw [hlive 1 discovery hdiscovery]
  decide +kernel

end

end JsWaku.LocalPeerCache.Shared
