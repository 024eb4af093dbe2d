import JsWaku.Runtime.Libp2p
import JsWaku.Runtime.TypedArray

/-!
# The local peer cache

The construction and the start of `LocalPeerCacheDiscovery`, `packages/discovery/src/local-peer-cache/index.ts`. What
`JSON.parse` and the parsers of peer ids and multiaddrs make of a text is arbitrary; the calls of the peer store succeed.
Peers that are identified meanwhile replace the list of peers, not the one that the loop runs through.

The construction takes whatever is stored (`getPeersFromLocalStorage`). The start ends at the first entry that one of the
parsers rejects, except for an address of a peer that the store has by then (`restore_ok_iff`), and leaves the listener
behind (`start_error`). What it has saved is told by `mem_restore`.
-/

namespace JsWaku.LocalPeerCache

/-! ## Data -/

/-- A value that `JSON.parse` returns. -/
inductive Json
  | null
  | boolean (value : Bool)
  | number (text : String)
  | string (value : String)
  | array (values : List Json)
  | object (properties : List (String × Json))

/-- A property of a value; arrays and the objects of strings, numbers and booleans have none with the names used here. -/
def Json.get (name : String) : Json → Option Json
  | .object properties => (properties.find? (·.1 == name)).map (·.2)
  | _ => none

/-- `LocalStoragePeerInfo`. -/
structure LocalStoragePeerInfo where
  id : String
  address : String
  deriving DecidableEq, Repr

/-- `LocalPeerCacheDiscoveryOptions`. -/
structure LocalPeerCacheDiscoveryOptions where
  tagName : Option String := none
  tagValue : Option ℕ := none
  tagTTL : Option ℕ := none

/-- `Tags.LOCAL`. -/
def DEFAULT_LOCAL_TAG_NAME : String := "local-peer-cache"

def DEFAULT_LOCAL_TAG_VALUE : ℕ := 50

def DEFAULT_LOCAL_TAG_TTL : ℕ := 100000000

/-- What is saved of a peer: its multiaddrs and a tag. -/
structure PeerData (Multiaddr : Type) where
  multiaddrs : List Multiaddr
  tag : String
  value : ℕ
  ttl : ℕ
  deriving DecidableEq

/-- The parsers that the code uses. -/
structure Parsers (Multiaddr : Type) where
  json : String → Except JsError Json
  peerIdFromString : String → Except JsError PeerId
  multiaddr : String → Except JsError Multiaddr

/-- The discovery, with the peer store and the peers that it has announced. -/
structure State (Multiaddr : Type) where
  isStarted : Bool
  peers : List LocalStoragePeerInfo
  listening : Bool
  peerStore : List (PeerId × PeerData Multiaddr)
  dispatched : List (PeerId × List Multiaddr)

/-! ## The code -/

section

variable {Multiaddr : Type} (parsers : Parsers Multiaddr) (options : Option LocalPeerCacheDiscoveryOptions)

/-- `isValidStoredPeer`, with the fields that it checks. -/
def isValidStoredPeer (peer : Json) : Option LocalStoragePeerInfo :=
  match peer.get "id", peer.get "address" with
  | some (.string id), some (.string address) => some { id, address }
  | _, _ => none

/-- The `try` block of `getPeersFromLocalStorage`. Values that are no arrays have no `filter`. -/
def tryGetPeers (getItem : Except JsError (Option String)) : Except JsError (List LocalStoragePeerInfo) := do
  match ← getItem with
  | none | some "" => return []
  | some storedPeersData =>
    match ← parsers.json storedPeersData with
    | .array peers => return peers.filterMap isValidStoredPeer
    | _ => throw .typeError

/-- `getPeersFromLocalStorage`. -/
def getPeersFromLocalStorage (getItem : Except JsError (Option String)) : List LocalStoragePeerInfo :=
  match tryGetPeers parsers getItem with
  | .error _ => []
  | .ok peers => peers

/-- The constructor. -/
def construct (getItem : Except JsError (Option String)) (peerStore : List (PeerId × PeerData Multiaddr)) :
    State Multiaddr where
  isStarted := false
  peers := getPeersFromLocalStorage parsers getItem
  listening := false
  peerStore
  dispatched := []

/-- What is saved with an address. -/
def peerData (address : Multiaddr) : PeerData Multiaddr where
  multiaddrs := [address]
  tag := (options.bind (·.tagName)).getD DEFAULT_LOCAL_TAG_NAME
  value := (options.bind (·.tagValue)).getD DEFAULT_LOCAL_TAG_VALUE
  ttl := (options.bind (·.tagTTL)).getD DEFAULT_LOCAL_TAG_TTL

/-- `peerStore.has`. -/
def State.has (s : State Multiaddr) (peerId : PeerId) : Bool := s.peerStore.any (·.1 == peerId)

/-- A peer is saved and announced. -/
def State.save (s : State Multiaddr) (peerId : PeerId) (address : Multiaddr) : State Multiaddr :=
  { s with
    peerStore := s.peerStore ++ [(peerId, peerData options address)]
    dispatched := s.dispatched ++ [(peerId, [address])] }

/-- The loop of `start`. -/
def restore (s : State Multiaddr) : List LocalStoragePeerInfo → State Multiaddr × Except JsError Unit
  | [] => (s, .ok ())
  | peer :: peers =>
    match parsers.peerIdFromString peer.id with
    | .error e => (s, .error e)
    | .ok peerId =>
      if s.has peerId then restore s peers
      else
        match parsers.multiaddr peer.address with
        | .error e => (s, .error e)
        | .ok address => restore (s.save options peerId address) peers

/-- `start`: the state after it, and whether it resolves. -/
def start (s : State Multiaddr) : State Multiaddr × Except JsError Unit :=
  if s.isStarted then (s, .ok ())
  else
    match restore parsers options { s with listening := true } s.peers with
    | (s, .error e) => (s, .error e)
    | (s, .ok _) => ({ s with isStarted := true }, .ok ())

end

/-! ## The loop -/

section

variable {Multiaddr : Type} {parsers : Parsers Multiaddr} {options : Option LocalPeerCacheDiscoveryOptions}
  {s : State Multiaddr} {peers : List LocalStoragePeerInfo} {peer entry : LocalStoragePeerInfo} {peerId : PeerId}
  {address : Multiaddr}

/-- The first of the entries with this peer id. -/
def IsFirst (parsers : Parsers Multiaddr) (peers : List LocalStoragePeerInfo) (entry : LocalStoragePeerInfo)
    (peerId : PeerId) : Prop :=
  ∃ before after, peers = before ++ entry :: after ∧ parsers.peerIdFromString entry.id = .ok peerId ∧
    ∀ earlier ∈ before, parsers.peerIdFromString earlier.id ≠ .ok peerId

theorem not_isFirst_nil : ¬IsFirst parsers [] entry peerId := by
  rintro ⟨before, after, h, -⟩
  exact List.append_ne_nil_of_right_ne_nil before (List.cons_ne_nil _ _) h.symm

theorem isFirst_cons : IsFirst parsers (peer :: peers) entry peerId ↔
    (parsers.peerIdFromString peer.id = .ok peerId ∧ entry = peer) ∨
      (parsers.peerIdFromString peer.id ≠ .ok peerId ∧ IsFirst parsers peers entry peerId) := by
  constructor
  · rintro ⟨before, after, h, hid, hearlier⟩
    cases before with
    | nil =>
      obtain ⟨rfl, rfl⟩ := List.cons.inj h
      exact .inl ⟨hid, rfl⟩
    | cons x before =>
      obtain ⟨rfl, rfl⟩ := List.cons.inj h
      exact .inr ⟨hearlier peer List.mem_cons_self, before, after, rfl, hid,
        fun e he => hearlier e (List.mem_cons_of_mem _ he)⟩
  · rintro (⟨hid, rfl⟩ | ⟨hne, before, after, rfl, hid, hearlier⟩)
    · exact ⟨[], peers, rfl, hid, by simp⟩
    · exact ⟨peer :: before, after, rfl, hid, List.forall_mem_cons.2 ⟨hne, hearlier⟩⟩

/-- A first entry of another peer comes later. -/
theorem isFirst_cons_of_ne {other : PeerId} (hid : parsers.peerIdFromString peer.id = .ok peerId) (hne : other ≠ peerId) :
    IsFirst parsers (peer :: peers) entry other ↔ IsFirst parsers peers entry other := by
  rw [isFirst_cons, hid, Except.ok.injEq]
  simp [Ne.symm hne]

theorem isFirst_unique {entry' : LocalStoragePeerInfo} (h : IsFirst parsers peers entry peerId)
    (h' : IsFirst parsers peers entry' peerId) : entry = entry' := by
  induction peers with
  | nil => exact absurd h not_isFirst_nil
  | cons peer peers ih =>
    rcases isFirst_cons.1 h with ⟨hid, rfl⟩ | ⟨hne, h⟩
    · rcases isFirst_cons.1 h' with ⟨-, rfl⟩ | ⟨hne, -⟩
      · rfl
      · exact absurd hid hne
    · rcases isFirst_cons.1 h' with ⟨hid, -⟩ | ⟨-, h'⟩
      · exact absurd hid hne
      · exact ih h h'

theorem exists_isFirst (hmem : entry ∈ peers) (hid : parsers.peerIdFromString entry.id = .ok peerId) :
    ∃ first, IsFirst parsers peers first peerId := by
  induction peers with
  | nil => cases hmem
  | cons peer peers ih =>
    by_cases h : parsers.peerIdFromString peer.id = .ok peerId
    · exact ⟨peer, isFirst_cons.2 (.inl ⟨h, rfl⟩)⟩
    · rcases List.mem_cons.1 hmem with rfl | hmem
      · exact absurd hid h
      · obtain ⟨first, hfirst⟩ := ih hmem
        exact ⟨first, isFirst_cons.2 (.inr ⟨h, hfirst⟩)⟩

theorem has_save {saved : PeerId} :
    (s.save options saved address).has peerId = true ↔ s.has peerId = true ∨ saved = peerId := by
  simp [State.has, State.save]

/-- The loop ends if every peer id is parsed, and so is the address of the first entry of every new peer. -/
theorem restore_ok_iff : (restore parsers options s peers).2 = .ok () ↔
    (∀ entry ∈ peers, ∃ peerId, parsers.peerIdFromString entry.id = .ok peerId) ∧
      ∀ entry peerId, IsFirst parsers peers entry peerId → ¬s.has peerId = true →
        ∃ address, parsers.multiaddr entry.address = .ok address := by
  induction peers generalizing s with
  | nil => simp [restore, not_isFirst_nil]
  | cons peer peers ih =>
    rw [restore, List.forall_mem_cons]
    cases hid : parsers.peerIdFromString peer.id with
    | error e => simp
    | ok peerId =>
      have hfirst : IsFirst parsers (peer :: peers) peer peerId := isFirst_cons.2 (.inl ⟨hid, rfl⟩)
      dsimp only
      split
      next hhas =>
        rw [ih]
        refine and_congr (by simp) (forall₂_congr fun entry other => ?_)
        by_cases hother : other = peerId
        · subst hother
          simp [hhas]
        · rw [isFirst_cons_of_ne hid hother]
      next hnew =>
        cases haddress : parsers.multiaddr peer.address with
        | error e =>
          refine iff_of_false nofun ?_
          rintro ⟨-, hall⟩
          obtain ⟨address, h⟩ := hall peer peerId hfirst hnew
          rw [haddress] at h
          cases h
        | ok address =>
          dsimp only
          rw [ih]
          refine and_congr (by simp) (forall₂_congr fun entry other => ?_)
          rw [has_save]
          by_cases hother : other = peerId
          · subst hother
            refine iff_of_true (fun _ h => absurd (.inr rfl) h) fun h _ => ?_
            rw [isFirst_unique h hfirst]
            exact ⟨address, haddress⟩
          · rw [isFirst_cons_of_ne hid hother]
            simp [Ne.symm hother]

/-- What the peer store holds after a loop that ends: what it held, and the first entry of every new peer. -/
theorem mem_restore {data : PeerData Multiaddr} (hok : (restore parsers options s peers).2 = .ok ()) :
    (peerId, data) ∈ (restore parsers options s peers).1.peerStore ↔ (peerId, data) ∈ s.peerStore ∨
      ∃ entry address, IsFirst parsers peers entry peerId ∧ ¬s.has peerId = true ∧
        parsers.multiaddr entry.address = .ok address ∧ data = peerData options address := by
  induction peers generalizing s with
  | nil => simp [restore, not_isFirst_nil]
  | cons peer peers ih =>
    rw [restore] at hok ⊢
    cases hid : parsers.peerIdFromString peer.id with
    | error e =>
      rw [hid] at hok
      cases hok
    | ok known =>
      have hfirst : IsFirst parsers (peer :: peers) peer known := isFirst_cons.2 (.inl ⟨hid, rfl⟩)
      rw [hid] at hok
      dsimp only at hok ⊢
      split
      next hhas =>
        rw [if_pos hhas] at hok
        rw [ih hok]
        by_cases hother : peerId = known
        · subst hother
          simp [hhas]
        · simp only [isFirst_cons_of_ne hid hother]
      next hnew =>
        rw [if_neg hnew] at hok
        cases haddress : parsers.multiaddr peer.address with
        | error e =>
          rw [haddress] at hok
          cases hok
        | ok address =>
          rw [haddress] at hok
          dsimp only at hok ⊢
          have hsaved : (peerId, data) ∈ (s.save options known address).peerStore ↔
              (peerId, data) ∈ s.peerStore ∨ (peerId = known ∧ data = peerData options address) := by
            simp [State.save]
          rw [ih hok, hsaved, has_save]
          by_cases hother : peerId = known
          · subst hother
            constructor
            · rintro ((hold | ⟨-, rfl⟩) | ⟨entry, found, -, hhas, -⟩)
              · exact .inl hold
              · exact .inr ⟨peer, address, hfirst, hnew, haddress, rfl⟩
              · exact absurd (.inr rfl) hhas
            · rintro (hold | ⟨entry, found, hentry, -, hfound, rfl⟩)
              · exact .inl (.inl hold)
              · rw [isFirst_unique hentry hfirst, haddress] at hfound
                cases hfound
                exact .inl (.inr ⟨rfl, rfl⟩)
          · simp only [isFirst_cons_of_ne hid hother]
            simp [hother, Ne.symm hother]

theorem restore_keeps (s : State Multiaddr) (peers : List LocalStoragePeerInfo) :
    (restore parsers options s peers).1.isStarted = s.isStarted ∧
      (restore parsers options s peers).1.listening = s.listening := by
  induction peers generalizing s with
  | nil => exact ⟨rfl, rfl⟩
  | cons peer peers ih =>
    rw [restore]
    split
    · exact ⟨rfl, rfl⟩
    · split
      · exact ih s
      · split
        · exact ⟨rfl, rfl⟩
        · exact ih (s.save options _ _)

/-! ## The start -/

/-- A start that rejects leaves the service half started: its listener is there, and it counts as stopped. -/
theorem start_error {e : JsError} (h : (start parsers options s).2 = .error e) :
    (start parsers options s).1.isStarted = false ∧ (start parsers options s).1.listening = true := by
  unfold start at h ⊢
  split at h
  · cases h
  · next hstopped =>
    rw [if_neg hstopped]
    have hkeeps : (restore parsers options { s with listening := true } s.peers).1.isStarted = s.isStarted ∧
        (restore parsers options { s with listening := true } s.peers).1.listening = true := restore_keeps _ s.peers
    obtain ⟨hstarted, hlistening⟩ := hkeeps
    cases hrestore : restore parsers options { s with listening := true } s.peers with
    | mk after outcome =>
      rw [hrestore] at h hstarted hlistening
      cases outcome with
      | ok _ => cases h
      | error e' => exact ⟨hstarted.trans (Bool.eq_false_of_not_eq_true hstopped), hlistening⟩

/-- A start resolves if its loop ends, and then the service is started. -/
theorem start_eq (hstopped : s.isStarted = false)
    (hok : (restore parsers options { s with listening := true } s.peers).2 = .ok ()) :
    start parsers options s =
      ({ (restore parsers options { s with listening := true } s.peers).1 with isStarted := true }, .ok ()) := by
  rw [start, if_neg (by simp [hstopped])]
  cases hrestore : restore parsers options { s with listening := true } s.peers with
  | mk after outcome =>
    rw [hrestore] at hok
    cases hok
    rfl

theorem start_ok_iff (hstopped : s.isStarted = false) : (start parsers options s).2 = .ok () ↔
    (restore parsers options { s with listening := true } s.peers).2 = .ok () := by
  rw [start, if_neg (by simp [hstopped])]
  cases restore parsers options { s with listening := true } s.peers with
  | mk after outcome => cases outcome <;> simp

end

section

variable {Multiaddr : Type} (parsers : Parsers Multiaddr) (options : Option LocalPeerCacheDiscoveryOptions)

/-- The entry is stored, and its peer id is parsed. -/
def IsStored (s : State Multiaddr) (entry : LocalStoragePeerInfo) (peerId : PeerId) : Prop :=
  entry ∈ s.peers ∧ parsers.peerIdFromString entry.id = .ok peerId

/-- The start resolves, leaves the service started, and has saved the entries in question, those with an address that is
parsed and a peer that the store did not have. -/
def Restores (s : State Multiaddr) (Entry : LocalStoragePeerInfo → PeerId → Prop) : Prop :=
  (start parsers options s).2 = .ok () ∧ (start parsers options s).1.isStarted = true ∧
    ∀ entry peerId address, Entry entry peerId → parsers.multiaddr entry.address = .ok address → ¬s.has peerId = true →
      (peerId, peerData options address) ∈ (start parsers options s).1.peerStore

/-- Every stored peer id is parsed, and so is the first address that is stored for a peer which the store does not have. -/
def Intact (s : State Multiaddr) : Prop :=
  (∀ entry ∈ s.peers, ∃ peerId, parsers.peerIdFromString entry.id = .ok peerId) ∧
    ∀ entry peerId, IsFirst parsers s.peers entry peerId → ¬s.has peerId = true →
      ∃ address, parsers.multiaddr entry.address = .ok address

/-- For a peer that the store does not have, every stored address that is parsed is the first one. -/
def SingleAddress (s : State Multiaddr) : Prop :=
  ∀ entry first peerId address, IsStored parsers s entry peerId → IsFirst parsers s.peers first peerId →
    ¬s.has peerId = true → parsers.multiaddr entry.address = .ok address → parsers.multiaddr first.address = .ok address

variable {parsers options}

theorem not_mem_of_not_has {s : State Multiaddr} {peerId : PeerId} {data : PeerData Multiaddr} (h : ¬s.has peerId = true) :
    (peerId, data) ∉ s.peerStore := fun hmem => h (List.any_eq_true.2 ⟨_, hmem, beq_self_eq_true _⟩)

/-- What a start restores: the addresses of first entries, if the stored entries are intact. -/
theorem restores_iff {s : State Multiaddr} (hstopped : s.isStarted = false)
    {Entry : LocalStoragePeerInfo → PeerId → Prop} :
    Restores parsers options s Entry ↔ Intact parsers s ∧
      ∀ entry peerId address, Entry entry peerId → parsers.multiaddr entry.address = .ok address → ¬s.has peerId = true →
        ∃ first, IsFirst parsers s.peers first peerId ∧ parsers.multiaddr first.address = .ok address := by
  have hintact : (restore parsers options { s with listening := true } s.peers).2 = .ok () ↔ Intact parsers s :=
    restore_ok_iff
  rw [Restores, start_ok_iff hstopped, hintact]
  refine and_congr_right fun h => ?_
  have hok := hintact.2 h
  rw [start_eq hstopped hok, and_iff_right rfl]
  refine forall₃_congr fun entry peerId address => forall₃_congr fun _ _ hnew => ?_
  dsimp only
  rw [mem_restore hok, or_iff_right (not_mem_of_not_has hnew)]
  constructor
  · rintro ⟨first, found, hfirst, -, hfound, hdata⟩
    obtain rfl : address = found := List.head_eq_of_cons_eq (congrArg PeerData.multiaddrs hdata)
    exact ⟨first, hfirst, hfound⟩
  · rintro ⟨first, hfirst, hfound⟩
    exact ⟨first, address, hfirst, hnew, hfound, rfl⟩

variable (parsers options)

/-- **The start after whatever is stored.** It restores what is stored, an entry counting unless its peer is in the store
or that of an earlier entry, exactly if the stored entries are intact; and with every entry of a new peer exactly if
these also have one address. -/
theorem start_restores_iff (getItem : Except JsError (Option String)) (peerStore : List (PeerId × PeerData Multiaddr)) :
    (Restores parsers options (construct parsers getItem peerStore)
        (IsFirst parsers (construct parsers getItem peerStore).peers) ↔
      Intact parsers (construct parsers getItem peerStore)) ∧
    (Restores parsers options (construct parsers getItem peerStore)
        (IsStored parsers (construct parsers getItem peerStore)) ↔
      Intact parsers (construct parsers getItem peerStore) ∧
        SingleAddress parsers (construct parsers getItem peerStore)) := by
  constructor
  · rw [restores_iff rfl]
    exact and_iff_left fun entry peerId address hfirst haddress _ => ⟨entry, hfirst, haddress⟩
  · rw [restores_iff rfl]
    refine and_congr_right fun _ => ⟨fun h => ?_, fun h => ?_⟩
    · intro entry first peerId address hstored hfirst hnew haddress
      obtain ⟨first', hfirst', h'⟩ := h entry peerId address hstored haddress hnew
      rwa [isFirst_unique hfirst hfirst']
    · intro entry peerId address hstored haddress hnew
      obtain ⟨first, hfirst⟩ := exists_isFirst hstored.1 hstored.2
      exact ⟨first, hfirst, h entry first peerId address hstored hfirst hnew haddress⟩

/-- An entry whose peer id is none, before one in order: the start rejects. -/
theorem not_restores :
    let parsers : Parsers String := {
      json := fun _ => .ok (.array [.object [("id", .string "peer"), ("address", .string "/ip4/127.0.0.1")],
        .object [("id", .string "16Uiu2HAm4v86W3bmT1BiH6oSPzcsSr24iDQpSN5Qa992BCjjwgrE"),
          ("address", .string "/ip4/127.0.0.1")]])
      peerIdFromString := fun id =>
        if id.front = '1' ∨ id.front = 'Q' then .ok id else .error (.error "Please pass a multibase decoder")
      multiaddr := .ok }
    let discovery := construct parsers (.ok (some ("[\x7b\"id\":\"peer\",\"address\":\"/ip4/127.0.0.1\"\x7d," ++
      "\x7b\"id\":\"16Uiu2HAm4v86W3bmT1BiH6oSPzcsSr24iDQpSN5Qa992BCjjwgrE\",\"address\":\"/ip4/127.0.0.1\"\x7d]"))) []
    ¬Restores parsers none discovery (IsFirst parsers discovery.peers) := by
  rintro parsers discovery ⟨hresolved, -⟩
  exact absurd hresolved (by decide +kernel)

end

end JsWaku.LocalPeerCache
