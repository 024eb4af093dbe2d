import JsWaku.Discovery.FetchNodes
import JsWaku.Lib.Quota

/-!
# The contract of the node fetcher

What `fetchNodesUntilCapabilitiesFulfilled` of `packages/discovery/src/dns/fetch_nodes.ts` returns: few enough peers, each
of which helped when it was taken, and no fewer than the calls of `getNode` allowed. It returns that exactly if the getters
of the ENRs it comes to return where they are read, and throws only what such a getter throws (`fetch_meets_contract`).
-/

namespace JsWaku.Discovery

open Enr Polling Quota

/-! ## Capabilities -/

/-- The capabilities that are counted. -/
inductive Capability
  | relay
  | store
  | filter
  | lightPush
  deriving DecidableEq, Repr

instance : Fintype Capability :=
  ⟨{.relay, .store, .filter, .lightPush}, fun capability => by cases capability <;> decide⟩

theorem sum_capability (f : Capability → ℤ) : ∑ c, f c = f .relay + f .store + f .filter + f .lightPush := by
  show ∑ c ∈ {.relay, .store, .filter, .lightPush}, f c = _
  simp [Finset.sum_insert, add_assoc]

theorem forall_capability {P : Capability → Prop} : (∀ c, P c) ↔ P .relay ∧ P .store ∧ P .filter ∧ P .lightPush := by
  constructor
  · intro h
    exact ⟨h _, h _, h _, h _⟩
  · rintro ⟨hrelay, hstore, hfilter, hlightPush⟩ capability
    cases capability <;> assumption

theorem exists_capability {P : Capability → Prop} : (∃ c, P c) ↔ P .relay ∨ P .store ∨ P .filter ∨ P .lightPush := by
  constructor
  · rintro ⟨capability, h⟩
    cases capability <;> simp [h]
  · rintro (h | h | h | h) <;> exact ⟨_, h⟩

/-- How many are counted of a capability. -/
def NodeCapabilityCount.of (count : NodeCapabilityCount) : Capability → ℤ
  | .relay => count.relay
  | .store => count.store
  | .filter => count.filter
  | .lightPush => count.lightPush

/-- Whether the node has the capability. -/
def nodeHas (node : Waku2) : Capability → Bool
  | .relay => node.relay
  | .store => node.store
  | .filter => node.filter
  | .lightPush => node.lightPush

/-- Whether the peer's `waku2` field has the capability. -/
def IEnr.has (peer : IEnr) (capability : Capability) : Bool := peer.waku2.any (nodeHas · capability)

/-- How many peers are wanted for a capability. -/
def quota (wanted : NodeCapabilityCount) (capability : Capability) : ℕ := (wanted.of capability).toNat

/-- The counts are natural numbers. -/
def NodeCapabilityCount.Natural (count : NodeCapabilityCount) : Prop := ∀ capability, 0 ≤ count.of capability

/-- The peers have every capability as often as wanted. -/
def Fulfilled (wanted : NodeCapabilityCount) (peers : List IEnr) : Prop :=
  ∀ capability, wanted.of capability ≤ provided IEnr.has peers capability

/-- The peer has a capability that the peers do not have as often as wanted. -/
def Helps (wanted : NodeCapabilityCount) (peers : List IEnr) (peer : IEnr) : Prop :=
  ∃ capability, (provided IEnr.has peers capability : ℤ) < wanted.of capability ∧ peer.has capability = true

/-- What the caller of the fetcher relies on. -/
structure Contract (wanted : NodeCapabilityCount) (errorTolerance : ℤ) (getNode : ℕ → Option IEnr) (peers : List IEnr)
    (calls : ℕ) : Prop where
  /-- A call is made while the budget, if there is any, is not used up. -/
  budget : (calls : ℤ) ≤ max 0 (maxSearches wanted + errorTolerance)
  identified : ∀ peer ∈ peers, ∃ id, peer.nodeId = .ok (some id) ∧ id ≠ ""
  distinct : peers.Pairwise fun peer other => peer.nodeId ≠ other.nodeId
  few : (peers.length : ℤ) ≤ maxSearches wanted
  /-- Every peer had a capability that was still missing when it was accepted. -/
  useful : ∀ before peer after, peers = before ++ peer :: after → Helps wanted before peer
  /-- Nothing is left unused: the budget is used up, and no node that was left out would help. -/
  exhausted : ¬Fulfilled wanted peers → (calls : ℤ) = max 0 (maxSearches wanted + errorTolerance) ∧
    ∀ i < calls, ∀ node id, getNode i = some node → node.nodeId = .ok (some id) → id ≠ "" →
      (∀ peer ∈ peers, peer.nodeId ≠ node.nodeId) → ¬Helps wanted peers node

/-- Before input `i`, as long as the fetcher searches. -/
structure Fetched (wanted : NodeCapabilityCount) (errorTolerance : ℤ) (getNode : ℕ → Option IEnr) (i : ℕ) (s : Fetch) :
    Prop where
  actual : ∀ capability, s.actual.of capability = provided IEnr.has s.peers capability
  searches : s.totalSearches = i
  budget : (i : ℤ) ≤ max 0 (maxSearches wanted + errorTolerance)
  identified : ∀ peer ∈ s.peers, ∃ id, peer.nodeId = .ok (some id) ∧ id ≠ ""
  distinct : s.peers.Pairwise fun peer other => peer.nodeId ≠ other.nodeId
  greedy : Greedy IEnr.has (quota wanted) s.peers
  leftOut : ∀ j < i, ∀ node id, getNode j = some node → node.nodeId = .ok (some id) → id ≠ "" →
    (∀ peer ∈ s.peers, peer.nodeId ≠ node.nodeId) → ¬Useful IEnr.has (quota wanted) s.peers node

/-! ## Counts -/

section

variable {wanted : NodeCapabilityCount} {errorTolerance : ℤ} {getNode : ℕ → Option IEnr} {i : ℕ} {s s' : Fetch}

theorem missing_iff {peers : List IEnr} {capability : Capability} :
    Missing IEnr.has (quota wanted) peers capability ↔
      (provided IEnr.has peers capability : ℤ) < wanted.of capability :=
  Int.lt_toNat

theorem useful_iff {peers : List IEnr} {peer : IEnr} :
    Useful IEnr.has (quota wanted) peers peer ↔ Helps wanted peers peer := by
  simp only [Useful, Helps, missing_iff]

/-- What is wanted of all capabilities. -/
theorem sum_quota (h : wanted.Natural) : ((∑ capability, quota wanted capability : ℕ) : ℤ) = maxSearches wanted := by
  have hquota : ∀ capability, (quota wanted capability : ℤ) = wanted.of capability :=
    fun capability => Int.toNat_of_nonneg (h capability)
  rw [Nat.cast_sum, Finset.sum_congr rfl fun capability _ => hquota capability, sum_capability]
  rfl

theorem isSatisfied_iff {actual : NodeCapabilityCount} :
    isSatisfied wanted actual = true ↔ ∀ capability, wanted.of capability ≤ actual.of capability := by
  simp only [isSatisfied, Bool.and_eq_true, decide_eq_true_eq, forall_capability, and_assoc]
  rfl

theorem helps_iff {actual : NodeCapabilityCount} (h : isSatisfied wanted actual = false) {peer : IEnr} :
    helps wanted actual peer = true ↔
      ∃ capability, actual.of capability < wanted.of capability ∧ peer.has capability = true := by
  unfold helps
  cases hwaku2 : peer.waku2 with
  | none => simp [IEnr.has, hwaku2]
  | some waku2 =>
    have hneg : ¬isSatisfied wanted actual = true := by rw [h]; decide
    simp [helpsSatisfyCapabilities, hneg, exists_capability, IEnr.has, hwaku2, missingCapabilities, nodeHas,
      NodeCapabilityCount.of, or_assoc, pure, Except.pure]

theorem addCapabilities_of (node : Waku2) (total : NodeCapabilityCount) (capability : Capability) :
    (addCapabilities node total).of capability = total.of capability + if nodeHas node capability then 1 else 0 := by
  cases capability <;> simp only [addCapabilities, NodeCapabilityCount.of, nodeHas] <;> split <;> simp_all

/-! ## Invariant -/

/-- The counter is the number of the peers that have the capability. -/
theorem Fetched.isSatisfied_iff (h : Fetched wanted errorTolerance getNode i s) :
    isSatisfied wanted s.actual = true ↔ Fulfilled wanted s.peers := by
  simp only [Discovery.isSatisfied_iff, Fulfilled, h.actual]

/-- A peer helps the loop if it is useful. -/
theorem Fetched.helps_iff (h : Fetched wanted errorTolerance getNode i s) (hmissing : isSatisfied wanted s.actual = false)
    {peer : IEnr} : helps wanted s.actual peer = true ↔ Useful IEnr.has (quota wanted) s.peers peer := by
  rw [useful_iff, Discovery.helps_iff hmissing]
  simp only [Helps, h.actual]

theorem fetched_start : Fetched wanted errorTolerance getNode 0 Fetch.start where
  actual capability := by cases capability <;> rfl
  searches := rfl
  budget := le_max_left _ _
  identified peer hmem := by cases hmem
  distinct := List.Pairwise.nil
  greedy := greedy_nil
  leftOut j hj := absurd hj (Nat.not_lt_zero j)

/-- The number of a call that is made. -/
theorem Fetched.succ_le_budget (h : Fetched wanted errorTolerance getNode i s)
    (hsearching : s.searching wanted errorTolerance = true) :
    ((i + 1 : ℕ) : ℤ) ≤ max 0 (maxSearches wanted + errorTolerance) := by
  rw [Fetch.searching, searching, Bool.and_eq_true, decide_eq_true_eq, h.searches] at hsearching
  omega

/-- A round that takes nothing. -/
theorem Fetched.skip (h : Fetched wanted errorTolerance getNode i s)
    (hsearching : s.searching wanted errorTolerance = true)
    (hskip : ∀ peer ∈ getNode i, isNewPeer peer s.peers = .ok true → helps wanted s.actual peer = false) :
    Fetched wanted errorTolerance getNode (i + 1) { s with totalSearches := s.totalSearches + 1 } where
  actual := h.actual
  searches := congrArg (· + 1) h.searches
  budget := h.succ_le_budget hsearching
  identified := h.identified
  distinct := h.distinct
  greedy := h.greedy
  leftOut j hj node id hnode hid hne hout := by
    rcases Nat.lt_succ_iff_lt_or_eq.1 hj with hj | rfl
    · exact h.leftOut j hj node id hnode hid hne hout
    · have hno := hskip node hnode (isNewPeer_iff.2 ⟨id, hid, hne, hid ▸ hout⟩)
      rw [← h.helps_iff (isSatisfied_of_searching hsearching), hno]
      exact Bool.false_ne_true

/-- A round that takes the new peer. -/
theorem Fetched.take {peer : IEnr} {waku2 : Waku2} (h : Fetched wanted errorTolerance getNode i s)
    (hsearching : s.searching wanted errorTolerance = true) (hpeer : getNode i = some peer)
    (hnew : isNewPeer peer s.peers = .ok true) (hhelps : helps wanted s.actual peer = true) (hwaku2 : peer.waku2 = some waku2) :
    Fetched wanted errorTolerance getNode (i + 1) { s.take peer waku2 with totalSearches := s.totalSearches + 1 } where
  actual capability := by
    show (addCapabilities waku2 s.actual).of capability = (provided IEnr.has (s.peers ++ [peer]) capability : ℤ)
    rw [addCapabilities_of, h.actual, provided_append, provided_singleton, IEnr.has, hwaku2, Option.any_some]
    push_cast
    rfl
  searches := congrArg (· + 1) h.searches
  budget := h.succ_le_budget hsearching
  identified q hq := by
    rcases List.mem_append.1 hq with hq | hq
    · exact h.identified q hq
    · obtain ⟨id, hid, hne, -⟩ := isNewPeer_iff.1 hnew
      rw [List.mem_singleton.1 hq]
      exact ⟨id, hid, hne⟩
  distinct := by
    refine List.pairwise_append.2 ⟨h.distinct, List.pairwise_singleton _ _, fun other hother q hq => ?_⟩
    obtain ⟨id, hid, -, hothers⟩ := isNewPeer_iff.1 hnew
    rw [List.mem_singleton.1 hq, hid]
    exact hothers other hother
  greedy := h.greedy.append_singleton ((h.helps_iff (isSatisfied_of_searching hsearching)).1 hhelps)
  leftOut j hj node id hnode hid hne hout := by
    rcases Nat.lt_succ_iff_lt_or_eq.1 hj with hj | rfl
    · intro huseful
      exact h.leftOut j hj node id hnode hid hne (fun q hq => hout q (List.mem_append_left _ hq)) huseful.of_append
    · cases hpeer.symm.trans hnode
      exact absurd rfl (hout peer (List.mem_append_right _ (List.mem_singleton_self peer)))

/-- Every round of the fetcher. -/
theorem Fetched.round (h : Fetched wanted errorTolerance getNode i s)
    (hsearching : s.searching wanted errorTolerance = true) (hround : s.round wanted (getNode i) = .ok s') :
    Fetched wanted errorTolerance getNode (i + 1) s' := by
  obtain ⟨-, ⟨rfl, hskip⟩ | ⟨peer, waku2, hpeer, hnew, hhelps, hwaku2, rfl⟩⟩ :=
    Fetch.round_cases (isSatisfied_of_searching hsearching) hround
  · exact h.skip hsearching hskip
  · exact h.take hsearching hpeer hnew hhelps hwaku2

/-- Where the fetcher stops searching, the contract is met. -/
theorem Fetched.contract (hnatural : wanted.Natural) (h : Fetched wanted errorTolerance getNode i s)
    (hstop : s.searching wanted errorTolerance = false) : Contract wanted errorTolerance getNode s.peers i where
  budget := h.budget
  identified := h.identified
  distinct := h.distinct
  few := by
    rw [← sum_quota hnatural, Nat.cast_le]
    exact (Nat.le_add_right _ _).trans h.greedy.length_le
  useful before peer after hpeers := useful_iff.1 (h.greedy before peer after hpeers)
  exhausted hmissing := by
    rw [← h.isSatisfied_iff, Bool.not_eq_true] at hmissing
    rw [Fetch.searching, searching, hmissing, Bool.not_false, Bool.true_and, decide_eq_false_iff_not, h.searches] at hstop
    have hbudget := h.budget
    refine ⟨by omega, fun j hj node id hnode hid hne hout => ?_⟩
    rw [← useful_iff]
    exact h.leftOut j hj node id hnode hid hne hout

/-- A round returns iff what it reads of the node can be read. -/
theorem Fetch.round_ok_iff (hsearching : s.searching wanted errorTolerance = true) (node : Option IEnr) :
    (∃ s', s.round wanted node = .ok s') ↔ ∀ peer ∈ node, peer.Readable s.peers := by
  have hmissing := isSatisfied_of_searching hsearching
  constructor
  · rintro ⟨s', hround⟩
    exact (Fetch.round_cases hmissing hround).1
  · intro hread
    by_cases htake : ∃ peer, node = some peer ∧ isNewPeer peer s.peers = .ok true ∧ helps wanted s.actual peer = true
    · obtain ⟨peer, rfl, hnew, hhelps⟩ := htake
      obtain ⟨waku2, -, hround⟩ := Fetch.round_take hmissing ((hread peer rfl).ip hnew) hnew hhelps
      exact ⟨_, hround⟩
    · refine ⟨_, Fetch.round_skip hmissing hread fun peer hpeer hnew => ?_⟩
      by_contra hhelps
      exact htake ⟨peer, hpeer, hnew, Bool.not_eq_false _ ▸ hhelps⟩

/-- A round throws only what a getter of the node throws. -/
theorem Fetch.round_error (hsearching : s.searching wanted errorTolerance = true) {node : Option IEnr} {e : JsError}
    (hround : s.round wanted node = .error e) : ∃ peer, node = some peer ∧ (peer.nodeId = .error e ∨ peer.ip = .error e) := by
  have hbroken : ¬∀ peer ∈ node, peer.Readable s.peers := by
    intro hread
    obtain ⟨s', hs'⟩ := (Fetch.round_ok_iff hsearching node).2 hread
    cases hround.symm.trans hs'
  simp only [Option.mem_def, not_forall] at hbroken
  obtain ⟨peer, rfl, hno⟩ := hbroken
  obtain ⟨e', he', hthrown⟩ := Fetch.round_throws (isSatisfied_of_searching hsearching) hno
  cases hround.symm.trans he'
  exact ⟨peer, rfl, hthrown⟩

end

/-! ## Result -/

/-- What the list reads of input `i` can be read. -/
def ReadableAt (getNode : ℕ → Option IEnr) (i : ℕ) (s : Fetch) : Prop := ∀ peer ∈ getNode i, peer.Readable s.peers

section

variable {count : PartialNodeCapabilityCount} {errorTolerance : ℤ} {getNode : ℕ → Option IEnr}

/-- The loop comes to its end iff what it reads can be read. -/
theorem exists_poll_iff : (∃ s calls, poll (Fetch.searching count.wanted errorTolerance) (Fetch.round count.wanted)
    getNode (rounds count.wanted errorTolerance) 0 Fetch.start = .ok (s, calls)) ↔
      Meets (Fetch.searching count.wanted errorTolerance) (Fetch.round count.wanted) getNode (ReadableAt getNode)
        (rounds count.wanted errorTolerance) 0 Fetch.start := by
  have hreturns : (∃ s calls, poll (Fetch.searching count.wanted errorTolerance) (Fetch.round count.wanted) getNode
      (rounds count.wanted errorTolerance) 0 Fetch.start = .ok (s, calls) ∧ True) ↔
        Meets (Fetch.searching count.wanted errorTolerance) (Fetch.round count.wanted) getNode (ReadableAt getNode)
          (rounds count.wanted errorTolerance) 0 Fetch.start := by
    refine exists_poll_iff_meets (G := fun _ => True) (fun i s _ hsearching => ?_) (fun _ _ _ _ _ => trivial) trivial
    simpa only [and_true, ReadableAt] using Fetch.round_ok_iff hsearching (getNode i)
  simpa only [and_true] using hreturns

/-- At its end the contract is met. -/
theorem contract_of_poll (hnatural : count.wanted.Natural) {s : Fetch} {calls : ℕ}
    (hpoll : poll (Fetch.searching count.wanted errorTolerance) (Fetch.round count.wanted) getNode
      (rounds count.wanted errorTolerance) 0 Fetch.start = .ok (s, calls)) :
    Contract count.wanted errorTolerance getNode s.peers calls := by
  have hfetched : Fetched count.wanted errorTolerance getNode calls s :=
    poll_indexed (P := Fetched count.wanted errorTolerance getNode)
      (fun i s s' h hsearching hround => h.round hsearching hround) fetched_start hpoll
  exact hfetched.contract hnatural (searching_of_fetch count errorTolerance getNode hpoll)

/-- What the fetcher throws a getter has thrown. -/
theorem thrown_of_fetch {e : JsError} (h : fetchNodesUntilCapabilitiesFulfilled count errorTolerance getNode = .error e) :
    ∃ i < rounds count.wanted errorTolerance, ∃ peer, getNode i = some peer ∧
      (peer.nodeId = .error e ∨ peer.ip = .error e) := by
  cases hpoll : poll (Fetch.searching count.wanted errorTolerance) (Fetch.round count.wanted) getNode
      (rounds count.wanted errorTolerance) 0 Fetch.start with
  | ok result =>
    rw [fetchNodesUntilCapabilitiesFulfilled, hpoll] at h
    cases h
  | error e' =>
    rw [fetchNodesUntilCapabilitiesFulfilled, hpoll] at h
    cases h
    obtain ⟨i, s, -, hlt, hsearching, hround⟩ := poll_error hpoll
    obtain ⟨peer, hpeer, hthrown⟩ := Fetch.round_error hsearching hround
    exact ⟨i, by omega, peer, hpeer, hthrown⟩

end

/-- **The fetcher returns and meets its contract** if and only if the node id of every ENR that it comes to can be read,
and the ip of every one that is new. What it throws in any case is what such a getter has thrown, of an ENR that one of
the calls in the budget has brought: never the internal error. -/
theorem fetch_meets_contract (count : PartialNodeCapabilityCount) (hnatural : count.wanted.Natural) (errorTolerance : ℤ)
    (getNode : ℕ → Option IEnr) :
    ((∃ peers calls, fetchNodesUntilCapabilitiesFulfilled count errorTolerance getNode = .ok (peers, calls) ∧
        Contract count.wanted errorTolerance getNode peers calls) ↔
      Meets (Fetch.searching count.wanted errorTolerance) (Fetch.round count.wanted) getNode (ReadableAt getNode)
        (rounds count.wanted errorTolerance) 0 Fetch.start) ∧
    ∀ e, fetchNodesUntilCapabilitiesFulfilled count errorTolerance getNode = .error e →
      ∃ i < rounds count.wanted errorTolerance, ∃ peer, getNode i = some peer ∧
        (peer.nodeId = .error e ∨ peer.ip = .error e) := by
  refine ⟨?_, fun e he => thrown_of_fetch he⟩
  rw [← exists_poll_iff]
  constructor
  · rintro ⟨peers, calls, hfetch, -⟩
    obtain ⟨⟨s, j⟩, hpoll, -⟩ := bind_eq_ok.1 hfetch
    exact ⟨s, j, hpoll⟩
  · rintro ⟨s, calls, hpoll⟩
    refine ⟨s.peers, calls, ?_, contract_of_poll hnatural hpoll⟩
    rw [fetchNodesUntilCapabilitiesFulfilled, hpoll]
    rfl

/-- Two calls, as one peer was wanted for the store and one call may fail. -/
theorem fetch_meets_contract_sample : ∃ peers calls,
    fetchNodesUntilCapabilitiesFulfilled { store := some 1 } 1 laterEnr = .ok (peers, calls) ∧
      Contract ⟨0, 1, 0, 0⟩ 1 laterEnr peers calls := by
  have hread : ∀ i s, ReadableAt laterEnr i s := by
    intro i s peer hpeer
    have henr : peer.nodeId = .ok (some "a") ∧ peer.ip = .ok none := by
      unfold laterEnr at hpeer
      split at hpeer <;> cases hpeer <;> exact ⟨rfl, rfl⟩
    exact ⟨by rw [henr.1]; rfl, fun _ => by rw [henr.2]; rfl⟩
  refine (fetch_meets_contract { store := some 1 } (by intro capability; cases capability <;> decide) 1 laterEnr).1.2 ?_
  exact meets_of_forall hread

/-- A new ENR whose ip cannot be read. -/
def malformedIp : ℕ → Option IEnr := fun _ => some ⟨.ok (some "a"), .error (.error "invalid ip"), none⟩

/-- The fetcher throws. -/
theorem fetch_breaks_contract : ¬∀ (count : PartialNodeCapabilityCount) (errorTolerance : ℤ)
    (getNode : ℕ → Option IEnr), count.wanted.Natural →
      ∃ peers calls, fetchNodesUntilCapabilitiesFulfilled count errorTolerance getNode = .ok (peers, calls) ∧
        Contract count.wanted errorTolerance getNode peers calls := by
  intro h
  obtain ⟨peers, calls, hfetch, -⟩ := h { store := some 1 } 0 malformedIp
    (by intro capability; cases capability <;> decide)
  have hthrows : fetchNodesUntilCapabilitiesFulfilled { store := some 1 } 0 malformedIp =
      .error (.error "invalid ip") := rfl
  cases hthrows.symm.trans hfetch

end JsWaku.Discovery
