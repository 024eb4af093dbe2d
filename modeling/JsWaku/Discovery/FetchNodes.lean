import JsWaku.Enr.Setters
import JsWaku.Lib.Polling

/-!
# Fetching nodes until capabilities are fulfilled

`packages/discovery/src/dns/fetch_nodes.ts`: `fetchNodesUntilCapabilitiesFulfilled` returns a list,
`yieldNodesUntilCapabilitiesFulfilled` yields the same nodes one by one. Both call `getNode` while capabilities are
missing, and both take no node twice; the first goes by the nodes it has taken, the second by all node ids it has seen.
The getters `nodeId` and `ip` of an ENR may throw, and nothing catches that.

They agree if and only if the getters return where they are read, and no ENR would help whose node id came before in one
that was not taken (`fetch_eq_yield_iff`).
-/

namespace JsWaku.Discovery

open Enr Polling

/-! ## The code -/

/-- What is read of an `IEnr`; `ip` only for a log. -/
structure IEnr where
  nodeId : Except JsError (Option String)
  ip : Except JsError (Option String)
  waku2 : Option Waku2
  deriving DecidableEq, Repr

/-- `NodeCapabilityCount`. -/
structure NodeCapabilityCount where
  relay : ℤ
  store : ℤ
  filter : ℤ
  lightPush : ℤ
  deriving DecidableEq, Repr

/-- `Partial<NodeCapabilityCount>`. -/
structure PartialNodeCapabilityCount where
  relay : Option ℤ := none
  store : Option ℤ := none
  filter : Option ℤ := none
  lightPush : Option ℤ := none
  deriving DecidableEq, Repr

/-- `wanted`: zero where nothing is given. -/
def PartialNodeCapabilityCount.wanted (count : PartialNodeCapabilityCount) : NodeCapabilityCount where
  relay := count.relay.getD 0
  store := count.store.getD 0
  filter := count.filter.getD 0
  lightPush := count.lightPush.getD 0

/-- `actual`, at the start. -/
def NodeCapabilityCount.zero : NodeCapabilityCount := ⟨0, 0, 0, 0⟩

/-- `maxSearches`. -/
def maxSearches (wanted : NodeCapabilityCount) : ℤ := wanted.relay + wanted.store + wanted.filter + wanted.lightPush

/-- `isSatisfied`. -/
def isSatisfied (wanted actual : NodeCapabilityCount) : Bool :=
  actual.relay ≥ wanted.relay && actual.store ≥ wanted.store && actual.filter ≥ wanted.filter &&
    actual.lightPush ≥ wanted.lightPush

/-- Whether a `nodeId` is truthy. -/
def isTruthyId (nodeId : Option String) : Bool := nodeId.any (· ≠ "")

/-- `isNewPeer`. The node ids of `peers` could be read when these were taken. -/
def isNewPeer (peer : IEnr) (peers : List IEnr) : Except JsError Bool := do
  let nodeId ← peer.nodeId
  if !isTruthyId nodeId then return false
  else return peers.all fun existingPeer => existingPeer.nodeId ≠ .ok nodeId

/-- `addCapabilities`. -/
def addCapabilities (node : Waku2) (total : NodeCapabilityCount) : NodeCapabilityCount where
  relay := if node.relay then total.relay + 1 else total.relay
  store := if node.store then total.store + 1 else total.store
  filter := if node.filter then total.filter + 1 else total.filter
  lightPush := if node.lightPush then total.lightPush + 1 else total.lightPush

/-- `missingCapabilities`. -/
def missingCapabilities (wanted actual : NodeCapabilityCount) : Waku2 where
  relay := actual.relay < wanted.relay
  store := actual.store < wanted.store
  filter := actual.filter < wanted.filter
  lightPush := actual.lightPush < wanted.lightPush

/-- `helpsSatisfyCapabilities`. -/
def helpsSatisfyCapabilities (node : Waku2) (wanted actual : NodeCapabilityCount) : Except JsError Bool :=
  if isSatisfied wanted actual then
    throw (.error "Internal Error: Waku2 wanted capabilities are already fulfilled")
  else
    let missing := missingCapabilities wanted actual
    return (missing.relay && node.relay) || (missing.store && node.store) || (missing.filter && node.filter) ||
      (missing.lightPush && node.lightPush)

/-- The variables of `fetchNodesUntilCapabilitiesFulfilled`. -/
structure Fetch where
  actual : NodeCapabilityCount
  totalSearches : ℕ
  peers : List IEnr
  deriving DecidableEq, Repr

/-- The variables of `yieldNodesUntilCapabilitiesFulfilled`, and what it has yielded. -/
structure Yield where
  actual : NodeCapabilityCount
  totalSearches : ℕ
  peerNodeIds : List String
  yielded : List IEnr
  deriving DecidableEq, Repr

section

variable (wanted : NodeCapabilityCount) (errorTolerance : ℤ)

/-- The condition of both loops. -/
def searching (actual : NodeCapabilityCount) (totalSearches : ℕ) : Bool :=
  !isSatisfied wanted actual && totalSearches < maxSearches wanted + errorTolerance

/-- A new peer of the list: taken if it has a `waku2` field and helps. -/
def Fetch.consider (s : Fetch) (peer : IEnr) : Except JsError Fetch := do
  match peer.waku2 with
  | some waku2 =>
    if ← helpsSatisfyCapabilities waku2 wanted s.actual then
      return { s with actual := addCapabilities waku2 s.actual, peers := s.peers ++ [peer] }
    else return s
  | none => return s

/-- A round of `fetchNodesUntilCapabilitiesFulfilled`. The log of a new peer reads its ip, after the peer was taken. -/
def Fetch.round (s : Fetch) (node : Option IEnr) : Except JsError Fetch := do
  let s ← match node with
    | some peer => do
      if ← isNewPeer peer s.peers then do
        let s ← s.consider wanted peer
        let _ ← peer.ip
        pure s
      else pure s
    | none => pure s
  return { s with totalSearches := s.totalSearches + 1 }

/-- How a generator ends that throws: the error, and what it has yielded before. -/
structure Thrown where
  error : JsError
  yielded : List IEnr
  deriving DecidableEq, Repr

/-- What the generator throws ends it. -/
def Yield.throwing {α : Type} (s : Yield) : Except JsError α → Except Thrown α
  | .ok a => .ok a
  | .error error => .error ⟨error, s.yielded⟩

/-- A new peer of the generator. -/
def Yield.consider (s : Yield) (peer : IEnr) (nodeId : Option String) : Except JsError Yield := do
  let s := { s with peerNodeIds := s.peerNodeIds ++ nodeId.toList }
  match peer.waku2 with
  | some waku2 =>
    if ← helpsSatisfyCapabilities waku2 wanted s.actual then
      return { s with actual := addCapabilities waku2 s.actual, yielded := s.yielded ++ [peer] }
    else return s
  | none => return s

/-- A round of `yieldNodesUntilCapabilitiesFulfilled`. The log reads the ip of a new peer after the peer was yielded. -/
def Yield.round (s : Yield) (node : Option IEnr) : Except Thrown Yield := do
  let s ← match node with
    | some peer => do
      let nodeId ← s.throwing peer.nodeId
      if isTruthyId nodeId && !s.peerNodeIds.any (nodeId = some ·) then do
        let s ← s.throwing (s.consider wanted peer nodeId)
        let _ ← s.throwing peer.ip
        pure s
      else pure s
    | none => pure s
  return { s with totalSearches := s.totalSearches + 1 }

/-- The variables of the list before the loop. -/
def Fetch.start : Fetch := ⟨.zero, 0, []⟩

/-- The variables of the generator before the loop. -/
def Yield.start : Yield := ⟨.zero, 0, [], []⟩

/-- The condition of the list. -/
def Fetch.searching (s : Fetch) : Bool := Discovery.searching wanted errorTolerance s.actual s.totalSearches

/-- The condition of the generator. -/
def Yield.searching (s : Yield) : Bool := Discovery.searching wanted errorTolerance s.actual s.totalSearches

/-- As many rounds as the condition of the loops lets pass at most. -/
def rounds : ℕ := (maxSearches wanted + errorTolerance).toNat

end

/-- `fetchNodesUntilCapabilitiesFulfilled`: what it returns, and how often it has called `getNode`. -/
def fetchNodesUntilCapabilitiesFulfilled (wantedNodeCapabilityCount : PartialNodeCapabilityCount) (errorTolerance : ℤ)
    (getNode : ℕ → Option IEnr) : Except JsError (List IEnr × ℕ) := do
  let wanted := wantedNodeCapabilityCount.wanted
  let (s, calls) ← poll (Fetch.searching wanted errorTolerance) (Fetch.round wanted) getNode
    (rounds wanted errorTolerance) 0 Fetch.start
  return (s.peers, calls)

/-- `yieldNodesUntilCapabilitiesFulfilled`, fully consumed: what it has yielded, and how often it has called `getNode`. -/
def yieldNodesUntilCapabilitiesFulfilled (wantedNodeCapabilityCount : PartialNodeCapabilityCount) (errorTolerance : ℤ)
    (getNode : ℕ → Option IEnr) : Except Thrown (List IEnr × ℕ) := do
  let wanted := wantedNodeCapabilityCount.wanted
  let (s, calls) ← poll (Yield.searching wanted errorTolerance) (Yield.round wanted) getNode
    (rounds wanted errorTolerance) 0 Yield.start
  return (s.yielded, calls)

/-! ## Rounds -/

/-- A peer would be taken, if it is new. -/
def helps (wanted actual : NodeCapabilityCount) (peer : IEnr) : Bool :=
  peer.waku2.any fun waku2 =>
    match helpsSatisfyCapabilities waku2 wanted actual with
    | .ok answer => answer
    | .error _ => false

section

variable {wanted actual : NodeCapabilityCount} {errorTolerance : ℤ}

theorem isSatisfied_of_searching {totalSearches : ℕ} (h : searching wanted errorTolerance actual totalSearches = true) :
    isSatisfied wanted actual = false := by
  rw [searching, Bool.and_eq_true, Bool.not_eq_true'] at h
  exact h.1

/-- While capabilities are missing, the internal error is not thrown. -/
theorem exists_helpsSatisfyCapabilities (h : isSatisfied wanted actual = false) (waku2 : Waku2) :
    ∃ answer, helpsSatisfyCapabilities waku2 wanted actual = .ok answer := by
  rw [helpsSatisfyCapabilities, if_neg (by simp [h])]
  exact ⟨_, rfl⟩

/-- A peer of the list that is taken. -/
def Fetch.take (s : Fetch) (peer : IEnr) (waku2 : Waku2) : Fetch :=
  { s with actual := addCapabilities waku2 s.actual, peers := s.peers ++ [peer] }

/-- A peer of the generator that is taken. -/
def Yield.take (s : Yield) (peer : IEnr) (waku2 : Waku2) : Yield :=
  { s with actual := addCapabilities waku2 s.actual, yielded := s.yielded ++ [peer] }

/-- A new peer is taken if it helps. -/
theorem helps_cases {α : Type} (h : isSatisfied wanted actual = false) (peer : IEnr) (take : Waku2 → α) (skip : α) :
    let considered : Except JsError α := do
      match peer.waku2 with
      | some waku2 => if ← helpsSatisfyCapabilities waku2 wanted actual then return take waku2 else return skip
      | none => return skip
    (helps wanted actual peer = false ∧ considered = .ok skip) ∨
      ∃ waku2, helps wanted actual peer = true ∧ peer.waku2 = some waku2 ∧ considered = .ok (take waku2) := by
  unfold helps
  cases hwaku2 : peer.waku2 with
  | none => exact Or.inl ⟨rfl, rfl⟩
  | some waku2 =>
    obtain ⟨answer, hanswer⟩ := exists_helpsSatisfyCapabilities h waku2
    simp only [Option.any_some, hanswer, ok_bind]
    cases answer with
    | false => exact Or.inl ⟨rfl, rfl⟩
    | true => exact Or.inr ⟨waku2, rfl, rfl, rfl⟩

/-- The list takes a new peer if it helps. -/
theorem Fetch.consider_cases {s : Fetch} (h : isSatisfied wanted s.actual = false) (peer : IEnr) :
    (helps wanted s.actual peer = false ∧ s.consider wanted peer = .ok s) ∨
      ∃ waku2, helps wanted s.actual peer = true ∧ peer.waku2 = some waku2 ∧
        s.consider wanted peer = .ok (s.take peer waku2) :=
  helps_cases h peer (s.take peer) s

/-- The generator takes a new peer if it helps; its node id is kept in any case. -/
theorem Yield.consider_cases {s : Yield} (h : isSatisfied wanted s.actual = false) (peer : IEnr)
    (nodeId : Option String) :
    let seen : Yield := { s with peerNodeIds := s.peerNodeIds ++ nodeId.toList }
    (helps wanted s.actual peer = false ∧ s.consider wanted peer nodeId = .ok seen) ∨
      ∃ waku2, helps wanted s.actual peer = true ∧ peer.waku2 = some waku2 ∧
        s.consider wanted peer nodeId = .ok (seen.take peer waku2) :=
  let seen : Yield := { s with peerNodeIds := s.peerNodeIds ++ nodeId.toList }
  helps_cases (h : isSatisfied wanted seen.actual = false) peer (seen.take peer) seen

/-- What a round reads of a peer can be read: its node id, and the ip of a new one. -/
structure IEnr.Readable (peer : IEnr) (peers : List IEnr) : Prop where
  nodeId : peer.nodeId.toBool = true
  ip : isNewPeer peer peers = .ok true → peer.ip.toBool = true

theorem exists_isNewPeer {peer : IEnr} (h : peer.nodeId.toBool = true) (peers : List IEnr) :
    ∃ answer, isNewPeer peer peers = .ok answer := by
  obtain ⟨nodeId, hid⟩ := exists_of_toBool h
  rw [isNewPeer, hid, ok_bind]
  split <;> exact ⟨_, rfl⟩

theorem isNewPeer_iff {peer : IEnr} {peers : List IEnr} : isNewPeer peer peers = .ok true ↔
    ∃ id, peer.nodeId = .ok (some id) ∧ id ≠ "" ∧ ∀ other ∈ peers, other.nodeId ≠ .ok (some id) := by
  unfold isNewPeer
  cases peer.nodeId with
  | error e => simp
  | ok nodeId =>
    cases nodeId with
    | none => simp [isTruthyId, pure, Except.pure]
    | some id => by_cases hid : id = "" <;> simp [isTruthyId, pure, Except.pure, hid]

/-- A round of the list takes nothing, -/
theorem Fetch.round_skip {s : Fetch} {node : Option IEnr} (h : isSatisfied wanted s.actual = false)
    (hread : ∀ peer ∈ node, peer.Readable s.peers)
    (hskip : ∀ peer ∈ node, isNewPeer peer s.peers = .ok true → helps wanted s.actual peer = false) :
    s.round wanted node = .ok { s with totalSearches := s.totalSearches + 1 } := by
  unfold Fetch.round
  cases node with
  | none => rfl
  | some peer =>
    obtain ⟨answer, hnew⟩ := exists_isNewPeer (hread peer rfl).nodeId s.peers
    cases answer with
    | false =>
      simp only [hnew, ok_bind]
      rfl
    | true =>
      obtain ⟨ip, hip⟩ := exists_of_toBool ((hread peer rfl).ip hnew)
      rcases Fetch.consider_cases h peer with ⟨-, hconsider⟩ | ⟨waku2, hhelps, -⟩
      · simp only [hnew, ok_bind, if_true, hconsider, hip]
        rfl
      · rw [hskip peer rfl hnew] at hhelps
        cases hhelps

/-- or the new peer that helps, -/
theorem Fetch.round_take {s : Fetch} {peer : IEnr} (h : isSatisfied wanted s.actual = false)
    (hip : peer.ip.toBool = true) (hnew : isNewPeer peer s.peers = .ok true)
    (hhelps : helps wanted s.actual peer = true) :
    ∃ waku2, peer.waku2 = some waku2 ∧
      s.round wanted (some peer) = .ok { s.take peer waku2 with totalSearches := s.totalSearches + 1 } := by
  obtain ⟨ip, hip⟩ := exists_of_toBool hip
  rcases Fetch.consider_cases h peer with ⟨hno, -⟩ | ⟨waku2, -, hwaku2, hconsider⟩
  · rw [hno] at hhelps
    cases hhelps
  · exact ⟨waku2, hwaku2, by simp [Fetch.round, hnew, hconsider, hip, Fetch.take]⟩

/-- or throws what a getter of the peer throws. -/
theorem Fetch.round_throws {s : Fetch} {peer : IEnr} (h : isSatisfied wanted s.actual = false)
    (hread : ¬peer.Readable s.peers) :
    ∃ e, s.round wanted (some peer) = .error e ∧ (peer.nodeId = .error e ∨ peer.ip = .error e) := by
  cases hid : peer.nodeId with
  | error e => exact ⟨e, by simp [Fetch.round, isNewPeer, hid], Or.inl rfl⟩
  | ok nodeId =>
    have hreadId : peer.nodeId.toBool = true := by rw [hid]; rfl
    obtain ⟨answer, hnew⟩ := exists_isNewPeer hreadId s.peers
    cases hip : peer.ip with
    | ok ip => exact absurd ⟨hreadId, fun _ => by rw [hip]; rfl⟩ hread
    | error e =>
      cases answer with
      | false => exact absurd ⟨hreadId, fun hyes => by rw [hnew] at hyes; cases hyes⟩ hread
      | true =>
        refine ⟨e, ?_, Or.inr rfl⟩
        rcases Fetch.consider_cases h peer with ⟨-, hconsider⟩ | ⟨waku2, -, -, hconsider⟩ <;>
          simp [Fetch.round, hnew, hconsider, hip]

/-- A node id that the generator has seen, if there is one. -/
def Yield.Seen (s : Yield) (peer : IEnr) : Prop :=
  ∃ nodeId, peer.nodeId = .ok nodeId ∧ (isTruthyId nodeId = true → ∃ id ∈ s.peerNodeIds, nodeId = some id)

/-- A round of the generator passes over a node that it has seen, -/
theorem Yield.round_seen {s : Yield} {node : Option IEnr} (hseen : ∀ peer ∈ node, s.Seen peer) :
    s.round wanted node = .ok { s with totalSearches := s.totalSearches + 1 } := by
  unfold Yield.round
  cases node with
  | none => rfl
  | some peer =>
    obtain ⟨nodeId, hid, hold⟩ := hseen peer rfl
    have hpass : (isTruthyId nodeId && !s.peerNodeIds.any (nodeId = some ·)) = false := by
      cases htruthy : isTruthyId nodeId with
      | false => rfl
      | true =>
        obtain ⟨id, hmem, rfl⟩ := hold htruthy
        simpa using hmem
    simp only [hid, Yield.throwing, ok_bind, hpass]
    rfl

/-- and treats a new one as the list does. -/
theorem Yield.round_new {s : Yield} {peer : IEnr} {id : String} (h : isSatisfied wanted s.actual = false)
    (hid : peer.nodeId = .ok (some id)) (hne : id ≠ "") (hnew : id ∉ s.peerNodeIds) (hip : peer.ip.toBool = true) :
    let seen : Yield := { s with peerNodeIds := s.peerNodeIds ++ [id] }
    (helps wanted s.actual peer = false ∧
        s.round wanted (some peer) = .ok { seen with totalSearches := s.totalSearches + 1 }) ∨
      ∃ waku2, helps wanted s.actual peer = true ∧ peer.waku2 = some waku2 ∧
        s.round wanted (some peer) = .ok { seen.take peer waku2 with totalSearches := s.totalSearches + 1 } := by
  obtain ⟨ip, hip⟩ := exists_of_toBool hip
  have hcond : (isTruthyId (some id) && !s.peerNodeIds.any (some id = some ·)) = true := by
    simpa [isTruthyId, hne] using fun x hx (heq : id = x) => hnew (heq ▸ hx)
  have hround : s.round wanted (some peer) = (do
      let s ← s.throwing (s.consider wanted peer (some id))
      return { s with totalSearches := s.totalSearches + 1 }) := by
    simp only [Yield.round, hid, Yield.throwing, ok_bind, hcond, if_true, hip]
    rfl
  rw [hround]
  rcases Yield.consider_cases h peer (some id) with ⟨hno, hconsider⟩ | ⟨waku2, hhelps, hwaku2, hconsider⟩
  · rw [hconsider]
    exact Or.inl ⟨hno, rfl⟩
  · rw [hconsider]
    exact Or.inr ⟨waku2, hhelps, hwaku2, rfl⟩

end

/-! ## Both loops -/

/-- A node id that came before input `i`. -/
def CameBefore (getNode : ℕ → Option IEnr) (i : ℕ) (id : String) : Prop :=
  id ≠ "" ∧ ∃ j < i, ∃ peer, getNode j = some peer ∧ peer.nodeId = .ok (some id)

/-- Before input `i` the variables of both loops agree. -/
structure Agree (getNode : ℕ → Option IEnr) (i : ℕ) (s : Fetch) (t : Yield) : Prop where
  actual : t.actual = s.actual
  totalSearches : t.totalSearches = s.totalSearches
  peers : t.yielded = s.peers
  seen : ∀ id, id ∈ t.peerNodeIds ↔ CameBefore getNode i id
  listed : ∀ peer ∈ s.peers, ∃ id ∈ t.peerNodeIds, peer.nodeId = .ok (some id)

/-- Input `i` is not a node that would help and whose id came before in an ENR that was not taken. -/
def NoLateHelp (wanted : NodeCapabilityCount) (getNode : ℕ → Option IEnr) (i : ℕ) (s : Fetch) : Prop :=
  ∀ peer id, getNode i = some peer → peer.nodeId = .ok (some id) → CameBefore getNode i id →
    isNewPeer peer s.peers = .ok true → helps wanted s.actual peer = false

section

variable {wanted : NodeCapabilityCount} {errorTolerance : ℤ} {getNode : ℕ → Option IEnr} {i : ℕ} {s : Fetch} {t : Yield}

theorem cameBefore_succ {id : String} : CameBefore getNode (i + 1) id ↔
    CameBefore getNode i id ∨ (id ≠ "" ∧ ∃ peer, getNode i = some peer ∧ peer.nodeId = .ok (some id)) := by
  constructor
  · rintro ⟨hne, j, hj, peer, hpeer, hid⟩
    rcases Nat.lt_succ_iff_lt_or_eq.1 hj with hj | rfl
    · exact Or.inl ⟨hne, j, hj, peer, hpeer, hid⟩
    · exact Or.inr ⟨hne, peer, hpeer, hid⟩
  · rintro (⟨hne, j, hj, h⟩ | ⟨hne, h⟩)
    · exact ⟨hne, j, Nat.lt_succ_of_lt hj, h⟩
    · exact ⟨hne, i, Nat.lt_succ_self i, h⟩

theorem agree_start : Agree getNode 0 Fetch.start Yield.start where
  actual := rfl
  totalSearches := rfl
  peers := rfl
  seen id := by
    constructor
    · intro hmem
      cases hmem
    · rintro ⟨-, j, hj, -⟩
      cases hj
  listed peer hmem := by cases hmem

/-- A round in which neither takes a node, nor sees a new node id. -/
theorem Agree.skip (h : Agree getNode i s t) (hseen : ∀ id, CameBefore getNode (i + 1) id → CameBefore getNode i id) :
    Agree getNode (i + 1) { s with totalSearches := s.totalSearches + 1 }
      { t with totalSearches := t.totalSearches + 1 } where
  actual := h.actual
  totalSearches := congrArg (· + 1) h.totalSearches
  peers := h.peers
  seen id := (h.seen id).trans ⟨fun hbefore => cameBefore_succ.2 (Or.inl hbefore), hseen id⟩
  listed := h.listed

/-- A round in which both see a new node id, before they take the node or not. -/
theorem Agree.see {peer : IEnr} {id : String} (h : Agree getNode i s t) (hpeer : getNode i = some peer)
    (hid : peer.nodeId = .ok (some id)) (hne : id ≠ "") :
    Agree getNode (i + 1) { s with totalSearches := s.totalSearches + 1 }
      { t with peerNodeIds := t.peerNodeIds ++ [id], totalSearches := t.totalSearches + 1 } where
  actual := h.actual
  totalSearches := congrArg (· + 1) h.totalSearches
  peers := h.peers
  seen id' := by
    rw [List.mem_append, List.mem_singleton, h.seen, cameBefore_succ]
    refine or_congr Iff.rfl ⟨?_, ?_⟩
    · rintro rfl
      exact ⟨hne, peer, hpeer, hid⟩
    · rintro ⟨-, peer', hpeer', hid'⟩
      cases hpeer.symm.trans hpeer'
      exact Option.some.inj (Except.ok.inj (hid'.symm.trans hid))
  listed q hq := by
    obtain ⟨id', hmem, hq⟩ := h.listed q hq
    exact ⟨id', List.mem_append_left _ hmem, hq⟩

/-- Both take the node that they have just seen. -/
theorem Agree.take {peer : IEnr} {id : String} (h : Agree getNode i s t) (hid : peer.nodeId = .ok (some id))
    (hmem : id ∈ t.peerNodeIds) (waku2 : Waku2) : Agree getNode i (s.take peer waku2) (t.take peer waku2) where
  actual := congrArg (addCapabilities waku2) h.actual
  totalSearches := h.totalSearches
  peers := congrArg (· ++ [peer]) h.peers
  seen := h.seen
  listed q hq := by
    rcases List.mem_append.1 hq with hq | hq
    · exact h.listed q hq
    · rw [List.mem_singleton.1 hq]
      exact ⟨id, hmem, hid⟩

/-- What the generator has not seen is new to the list. -/
theorem Agree.isNewPeer {peer : IEnr} {id : String} (h : Agree getNode i s t) (hid : peer.nodeId = .ok (some id))
    (hne : id ≠ "") (hnew : id ∉ t.peerNodeIds) : isNewPeer peer s.peers = .ok true := by
  refine isNewPeer_iff.2 ⟨id, hid, hne, fun other hother heq => ?_⟩
  obtain ⟨id', hmem, hid'⟩ := h.listed other hother
  cases heq.symm.trans hid'
  exact hnew hmem

/-- A round keeps the agreement, unless a getter throws or it comes late to a node that helps. -/
theorem agree_round (h : Agree getNode i s t) (hmissing : isSatisfied wanted s.actual = false)
    (hread : ∀ peer ∈ getNode i, peer.Readable s.peers) (hlate : NoLateHelp wanted getNode i s) :
    ∃ s' t', s.round wanted (getNode i) = .ok s' ∧ t.round wanted (getNode i) = .ok t' ∧ Agree getNode (i + 1) s' t' := by
  have hmissing' : isSatisfied wanted t.actual = false := by rw [h.actual, hmissing]
  -- a node without an id is passed over by both
  by_cases hnode : ∃ peer id, getNode i = some peer ∧ peer.nodeId = .ok (some id) ∧ id ≠ ""
  · obtain ⟨peer, id, hpeer, hid, hne⟩ := hnode
    rw [hpeer] at hread ⊢
    by_cases hold : id ∈ t.peerNodeIds
    · have hskip : ∀ q ∈ some peer, isNewPeer q s.peers = .ok true → helps wanted s.actual q = false := by
        rintro q ⟨rfl⟩
        exact hlate peer id hpeer hid ((h.seen id).1 hold)
      have hseen : ∀ q ∈ some peer, t.Seen q := by
        rintro q ⟨rfl⟩
        exact ⟨some id, hid, fun _ => ⟨id, hold, rfl⟩⟩
      refine ⟨_, _, Fetch.round_skip hmissing hread hskip, Yield.round_seen hseen, h.skip ?_⟩
      intro id' hbefore
      rcases cameBefore_succ.1 hbefore with hbefore | ⟨-, q, hq, hid'⟩
      · exact hbefore
      · cases hpeer.symm.trans hq
        cases hid.symm.trans hid'
        exact (h.seen id).1 hold
    · have hnew := h.isNewPeer hid hne hold
      have hip := (hread peer rfl).ip hnew
      have hsee := h.see hpeer hid hne
      rcases Yield.round_new hmissing' hid hne hold hip with ⟨hno, hyield⟩ | ⟨waku2, hhelps, hwaku2, hyield⟩
      · have hskip : ∀ q ∈ some peer, isNewPeer q s.peers = .ok true → helps wanted s.actual q = false := by
          rintro q ⟨rfl⟩ -
          rw [← h.actual, hno]
        exact ⟨_, _, Fetch.round_skip hmissing hread hskip, hyield, hsee⟩
      · obtain ⟨waku2', hwaku2', hfetch⟩ := Fetch.round_take hmissing hip hnew (h.actual ▸ hhelps)
        cases hwaku2.symm.trans hwaku2'
        exact ⟨_, _, hfetch, hyield, hsee.take hid (List.mem_append_right _ (List.mem_singleton_self id)) waku2⟩
  · have hskip : ∀ q ∈ getNode i, isNewPeer q s.peers = .ok true → helps wanted s.actual q = false := by
      intro q hq hnew
      obtain ⟨id, hid, hne, -⟩ := isNewPeer_iff.1 hnew
      exact absurd ⟨q, id, hq, hid, hne⟩ hnode
    have hseen : ∀ q ∈ getNode i, t.Seen q := by
      intro q hq
      obtain ⟨nodeId, hid⟩ := exists_of_toBool (hread q hq).nodeId
      refine ⟨nodeId, hid, fun htruthy => ?_⟩
      cases nodeId with
      | none => cases htruthy
      | some id => exact absurd ⟨q, id, hq, hid, by simpa [isTruthyId] using htruthy⟩ hnode
    refine ⟨_, _, Fetch.round_skip hmissing hread hskip, Yield.round_seen hseen, h.skip ?_⟩
    intro id hbefore
    rcases cameBefore_succ.1 hbefore with hbefore | ⟨hne, q, hq, hid⟩
    · exact hbefore
    · exact absurd ⟨q, id, hq, hid, hne⟩ hnode

/-! ## After a late node -/

/-- A round of the list that returns has read the node, and takes nothing or the node. -/
theorem Fetch.round_cases {node : Option IEnr} {s' : Fetch} (hmissing : isSatisfied wanted s.actual = false)
    (h : s.round wanted node = .ok s') :
    (∀ peer ∈ node, peer.Readable s.peers) ∧
      ((s' = { s with totalSearches := s.totalSearches + 1 } ∧
          ∀ peer ∈ node, isNewPeer peer s.peers = .ok true → helps wanted s.actual peer = false) ∨
        ∃ peer waku2, node = some peer ∧ isNewPeer peer s.peers = .ok true ∧ helps wanted s.actual peer = true ∧
          peer.waku2 = some waku2 ∧ s' = { s.take peer waku2 with totalSearches := s.totalSearches + 1 }) := by
  have hread : ∀ peer ∈ node, peer.Readable s.peers := by
    rintro peer ⟨rfl⟩
    by_contra hno
    obtain ⟨e, he, -⟩ := Fetch.round_throws hmissing hno
    cases h.symm.trans he
  refine ⟨hread, ?_⟩
  by_cases htake : ∃ peer, node = some peer ∧ isNewPeer peer s.peers = .ok true ∧ helps wanted s.actual peer = true
  · obtain ⟨peer, rfl, hnew, hhelps⟩ := htake
    obtain ⟨waku2, hwaku2, hround⟩ := Fetch.round_take hmissing ((hread peer rfl).ip hnew) hnew hhelps
    cases hround.symm.trans h
    exact Or.inr ⟨peer, waku2, rfl, hnew, hhelps, hwaku2, rfl⟩
  · have hskip : ∀ peer ∈ node, isNewPeer peer s.peers = .ok true → helps wanted s.actual peer = false := by
      intro peer hpeer hnew
      by_contra hhelps
      exact htake ⟨peer, hpeer, hnew, Bool.not_eq_false _ ▸ hhelps⟩
    cases (Fetch.round_skip hmissing hread hskip).symm.trans h
    exact Or.inl ⟨rfl, hskip⟩

/-- A round of the generator that returns passes over the node, or its id is new. -/
theorem Yield.round_cases {node : Option IEnr} {t' : Yield} (h : t.round wanted node = .ok t') :
    t' = { t with totalSearches := t.totalSearches + 1 } ∨
      ∃ peer id, node = some peer ∧ peer.nodeId = .ok (some id) ∧ id ≠ "" ∧ id ∉ t.peerNodeIds := by
  by_cases hnode : ∃ peer id, node = some peer ∧ peer.nodeId = .ok (some id) ∧ id ≠ "" ∧ id ∉ t.peerNodeIds
  · exact Or.inr hnode
  · have hseen : ∀ peer ∈ node, t.Seen peer := by
      rintro peer ⟨rfl⟩
      cases hid : peer.nodeId with
      | error e =>
        rw [Yield.round] at h
        simp only [hid] at h
        cases h
      | ok nodeId =>
        refine ⟨nodeId, hid, fun htruthy => ?_⟩
        cases nodeId with
        | none => cases htruthy
        | some id =>
          have hne : id ≠ "" := by simpa [isTruthyId] using htruthy
          refine ⟨id, ?_, rfl⟩
          by_contra hnew
          exact hnode ⟨peer, id, rfl, hid, hne, hnew⟩
    cases (Yield.round_seen hseen).symm.trans h
    exact Or.inl rfl

/-- A round of the generator that returns has read the ip of a node whose id is new. -/
theorem Yield.ip_of_round {peer : IEnr} {id : String} {t' : Yield} (hmissing : isSatisfied wanted t.actual = false)
    (hid : peer.nodeId = .ok (some id)) (hne : id ≠ "") (hnew : id ∉ t.peerNodeIds)
    (h : t.round wanted (some peer) = .ok t') : peer.ip.toBool = true := by
  cases hip : peer.ip with
  | ok ip => rfl
  | error e =>
    have hcond : (isTruthyId (some id) && !t.peerNodeIds.any (some id = some ·)) = true := by
      simpa [isTruthyId, hne] using fun x hx (heq : id = x) => hnew (heq ▸ hx)
    rcases Yield.consider_cases hmissing peer (some id) with ⟨-, hconsider⟩ | ⟨waku2, -, -, hconsider⟩ <;>
    · simp only [Yield.round, hid, Yield.throwing, ok_bind, hcond, if_true, hconsider, hip] at h
      cases h

/-- What the list has taken it keeps. -/
theorem Fetch.mem_peers_round {node : Option IEnr} {s' : Fetch} {q : IEnr}
    (hmissing : isSatisfied wanted s.actual = false) (hq : q ∈ s.peers) (h : s.round wanted node = .ok s') :
    q ∈ s'.peers := by
  obtain ⟨-, ⟨rfl, -⟩ | ⟨peer, waku2, -, -, -, -, rfl⟩⟩ := Fetch.round_cases hmissing h
  · exact hq
  · exact List.mem_append_left _ hq

/-- What the generator has seen and not yielded it does not yield. -/
theorem Yield.not_mem_round {node : Option IEnr} {t' : Yield} {id : String}
    (hmissing : isSatisfied wanted t.actual = false)
    (hid : id ∈ t.peerNodeIds ∧ ∀ q ∈ t.yielded, q.nodeId ≠ .ok (some id)) (h : t.round wanted node = .ok t') :
    id ∈ t'.peerNodeIds ∧ ∀ q ∈ t'.yielded, q.nodeId ≠ .ok (some id) := by
  rcases Yield.round_cases h with rfl | ⟨peer, id', rfl, hpeer, hne, hnew⟩
  · exact hid
  · have hip := Yield.ip_of_round hmissing hpeer hne hnew h
    rcases Yield.round_new hmissing hpeer hne hnew hip with ⟨-, hround⟩ | ⟨waku2, -, -, hround⟩
    · cases hround.symm.trans h
      exact ⟨List.mem_append_left _ hid.1, hid.2⟩
    · cases hround.symm.trans h
      refine ⟨List.mem_append_left _ hid.1, ?_⟩
      intro q hq heq
      rcases List.mem_append.1 hq with hq | hq
      · exact hid.2 q hq heq
      · rw [List.mem_singleton.1 hq, hpeer] at heq
        cases heq
        exact hnew hid.1

/-- The searches that are left to the list. -/
def Fetch.left (wanted : NodeCapabilityCount) (errorTolerance : ℤ) (s : Fetch) : ℕ :=
  (maxSearches wanted + errorTolerance - s.totalSearches).toNat

theorem Fetch.left_pos (h : s.searching wanted errorTolerance = true) : 0 < s.left wanted errorTolerance := by
  rw [Fetch.searching, Discovery.searching, Bool.and_eq_true] at h
  have hlt : s.totalSearches < maxSearches wanted + errorTolerance := of_decide_eq_true h.2
  rw [Fetch.left]
  omega

/-- A round is a search. -/
theorem Fetch.left_round {node : Option IEnr} {s' : Fetch} (h : s.searching wanted errorTolerance = true)
    (hround : s.round wanted node = .ok s') : s'.left wanted errorTolerance < s.left wanted errorTolerance := by
  have hpos := Fetch.left_pos h
  rw [Fetch.left] at hpos
  obtain ⟨-, ⟨rfl, -⟩ | ⟨peer, waku2, -, -, -, -, rfl⟩⟩ := Fetch.round_cases (isSatisfied_of_searching h) hround
  · simp only [Fetch.left]
    omega
  · simp only [Fetch.left]
    omega

/-- From a late node that helps on, the list has a node that the generator does not yield. -/
theorem ne_of_late {fuel : ℕ} {s' : Fetch} {t' : Yield} {j k : ℕ} (h : Agree getNode i s t)
    (hsearching : s.searching wanted errorTolerance = true) (hlate : ¬NoLateHelp wanted getNode i s)
    (hs' : poll (Fetch.searching wanted errorTolerance) (Fetch.round wanted) getNode (fuel + 1) i s = .ok (s', j))
    (ht' : poll (Yield.searching wanted errorTolerance) (Yield.round wanted) getNode (fuel + 1) i t = .ok (t', k)) :
    s'.peers ≠ t'.yielded := by
  have hmissing := isSatisfied_of_searching hsearching
  simp only [NoLateHelp, not_forall] at hlate
  obtain ⟨peer, id, hpeer, hid, hbefore, hnew, hhelps⟩ := hlate
  have hmem : peer ∈ s'.peers := by
    rcases poll_cases hs' with ⟨hstop, -⟩ | ⟨s₁, -, hround, hrest⟩
    · rw [hsearching] at hstop
      cases hstop
    · rw [hpeer] at hround
      refine poll_invariant (P := fun s => peer ∈ s.peers) ?_ ?_ hrest
      · intro s node s' hmem hsearching hround
        exact Fetch.mem_peers_round (isSatisfied_of_searching hsearching) hmem hround
      · obtain ⟨-, ⟨-, hskip⟩ | ⟨q, waku2, hq, -, -, -, rfl⟩⟩ := Fetch.round_cases hmissing hround
        · exact absurd (hskip peer rfl hnew) hhelps
        · cases hq
          exact List.mem_append_right _ (List.mem_singleton_self peer)
  have hnot : id ∈ t'.peerNodeIds ∧ ∀ q ∈ t'.yielded, q.nodeId ≠ .ok (some id) := by
    apply poll_invariant (P := fun t => id ∈ t.peerNodeIds ∧ ∀ q ∈ t.yielded, q.nodeId ≠ .ok (some id)) _ _ ht'
    · intro t node t' hnot hsearching hround
      exact Yield.not_mem_round (isSatisfied_of_searching hsearching) hnot hround
    · refine ⟨(h.seen id).2 hbefore, fun q hq => ?_⟩
      obtain ⟨id', hid', -, hothers⟩ := isNewPeer_iff.1 hnew
      cases hid.symm.trans hid'
      exact hothers q (h.peers ▸ hq)
  intro heq
  exact hnot.2 peer (heq ▸ hmem) hid

end

/-! ## Results -/

section

variable (count : PartialNodeCapabilityCount) (errorTolerance : ℤ) (getNode : ℕ → Option IEnr)

/-- The list returns the nodes that the generator, which ends, has yielded, after as many calls of `getNode`. -/
def FetchersAgree : Prop := ∃ peers calls,
  fetchNodesUntilCapabilitiesFulfilled count errorTolerance getNode = .ok (peers, calls) ∧
    yieldNodesUntilCapabilitiesFulfilled count errorTolerance getNode = .ok (peers, calls)

/-- What the list reads of input `i` can be read, and the input is not a late node that would help. -/
def NoBreak (wanted : NodeCapabilityCount) (getNode : ℕ → Option IEnr) (i : ℕ) (s : Fetch) : Prop :=
  (∀ peer ∈ getNode i, peer.Readable s.peers) ∧ NoLateHelp wanted getNode i s

/-- **The two fetchers agree**, on the nodes and on how often they call `getNode`, if and only if no call of the list
comes to an ENR of which it cannot read the node id or, if it is new, the ip, or to a node that would help and whose id
came before in an ENR that was not taken. -/
theorem fetch_eq_yield_iff :
    FetchersAgree count errorTolerance getNode ↔
      Meets (Fetch.searching count.wanted errorTolerance) (Fetch.round count.wanted) getNode
        (NoBreak count.wanted getNode) (rounds count.wanted errorTolerance) 0 Fetch.start := by
  have hcond : ∀ i s t, Agree getNode i s t →
      s.searching count.wanted errorTolerance = t.searching count.wanted errorTolerance := by
    intro i s t h
    rw [Fetch.searching, Yield.searching, h.actual, h.totalSearches]
  have hbody : ∀ i s t, Agree getNode i s t → s.searching count.wanted errorTolerance = true →
      NoBreak count.wanted getNode i s → ∃ s' t', s.round count.wanted (getNode i) = .ok s' ∧
        t.round count.wanted (getNode i) = .ok t' ∧ Agree getNode (i + 1) s' t' :=
    fun i s t h hsearching hno => agree_round h (isSatisfied_of_searching hsearching) hno.1 hno.2
  constructor
  · rintro ⟨peers, calls, hfetch, hyield⟩
    obtain ⟨⟨s', j⟩, hs', hpeers⟩ := bind_eq_ok.1 hfetch
    obtain ⟨⟨t', k⟩, ht', hyielded⟩ := bind_eq_ok.1 hyield
    by_contra hbroken
    obtain ⟨fuel, i, s, t, hs, ht, hagree, hsearching, hbreak⟩ := exists_break hcond hbody agree_start hbroken
    rw [hs] at hs'
    rw [ht] at ht'
    have hread : ∀ peer ∈ getNode i, peer.Readable s.peers := by
      rcases poll_cases hs' with ⟨hstop, -⟩ | ⟨s₁, -, hround, -⟩
      · rw [hsearching] at hstop
        cases hstop
      · exact (Fetch.round_cases (isSatisfied_of_searching hsearching) hround).1
    refine ne_of_late hagree hsearching (fun hlate => hbreak ⟨hread, hlate⟩) hs' ht' ?_
    have hleft : s'.peers = peers := congrArg Prod.fst (Except.ok.inj hpeers)
    have hright : t'.yielded = peers := congrArg Prod.fst (Except.ok.inj hyielded)
    exact hleft.trans hright.symm
  · intro hmeets
    obtain ⟨s, t, j, hs, ht, hagree⟩ := poll_simulates hcond hbody agree_start hmeets
    refine ⟨s.peers, j, ?_, ?_⟩
    · simp only [fetchNodesUntilCapabilitiesFulfilled, hs, ok_bind]
      rfl
    · simp only [yieldNodesUntilCapabilitiesFulfilled, ht, ok_bind, hagree.peers]
      rfl

/-- The list stops searching only where its condition says so. -/
theorem searching_of_fetch {s : Fetch} {calls : ℕ}
    (h : poll (Fetch.searching count.wanted errorTolerance) (Fetch.round count.wanted) getNode
      (rounds count.wanted errorTolerance) 0 Fetch.start = .ok (s, calls)) :
    s.searching count.wanted errorTolerance = false := by
  apply poll_finished (μ := Fetch.left count.wanted errorTolerance) _ _ _ h
  · exact fun s hsearching => Fetch.left_pos hsearching
  · exact fun s node s' hsearching hround => Fetch.left_round hsearching hround
  · simp [rounds, Fetch.left, Fetch.start]

end

/-- An ENR of a node without a `waku2` field, then one of the same node that has it. -/
def laterEnr : ℕ → Option IEnr
  | 0 => some ⟨.ok (some "a"), .ok none, none⟩
  | 1 => some ⟨.ok (some "a"), .ok none, some ⟨true, false, false, false⟩⟩
  | _ => none

/-- The list has the second ENR, which the generator passes over. -/
theorem fetch_ne_yield : ¬∀ (count : PartialNodeCapabilityCount) (errorTolerance : ℤ) (getNode : ℕ → Option IEnr),
    FetchersAgree count errorTolerance getNode := by
  intro h
  obtain ⟨peers, calls, hpeers, hyielded⟩ := h { relay := some 1 } 1 laterEnr
  have hfetch : fetchNodesUntilCapabilitiesFulfilled { relay := some 1 } 1 laterEnr =
      .ok ([⟨.ok (some "a"), .ok none, some ⟨true, false, false, false⟩⟩], 2) := rfl
  have hyield : yieldNodesUntilCapabilitiesFulfilled { relay := some 1 } 1 laterEnr = .ok ([], 2) := rfl
  cases hfetch.symm.trans hpeers
  cases hyield.symm.trans hyielded

end JsWaku.Discovery
