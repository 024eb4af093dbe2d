import JsWaku.Discovery.FetchNodes
import JsWaku.Discovery.Lookups
import JsWaku.Discovery.Tree
import JsWaku.Enr.Getters

/-!
# Peers of a DNS tree

`DnsNodeDiscovery.getPeers` of `packages/discovery/src/dns/dns.ts`: searches follow each other with one cache and one
context, and the ENRs that they find are read by `fetchNodesUntilCapabilitiesFulfilled` and for a log. The random numbers
of each search are given (`choices`).

What a search throws it logs, but for the promise of a record at the top-level domain, which is returned and not awaited
(`settled_error_iff`). What the getters of an ENR throw is not caught at all. `getPeers` resolves iff neither happens
(`getPeers_resolves_iff`).
-/

namespace JsWaku.Discovery

open Endian Polling Transition

/-! ## The code -/

/-- Why `getPeers` has not returned: a search is not settled by its choices, or the promise is rejected. -/
inductive Halt
  | pending
  | rejected (error : JsError)
  deriving DecidableEq

/-- What a function throws rejects the promise. -/
def rejecting {α : Type} : Except JsError α → Except Halt α
  | .ok a => .ok a
  | .error e => .error (.rejected e)

/-- The variables of `getPeers`: the cache and the context of its searches, those of
`fetchNodesUntilCapabilitiesFulfilled`, and the ENRs that are its `peers`. -/
structure Peers where
  cache : Map String String
  context : SearchContext
  fetch : Fetch
  enrs : List Enr.ENR

/-- `_errorTolerance`. -/
def errorTolerance : ℤ := 10

section

variable (env : Env) (getters : Enr.Getters) (zone : Map String (List String))

/-- The client of a discovery. -/
def client : Client Enr.ENR where
  zone
  verifyRoot := verifyRoot env
  fromString := fromString env

/-- What the loop reads of an ENR, through its getters. -/
def ienr (enr : Enr.ENR) : IEnr where
  nodeId := enr.nodeId env.enr getters
  ip := enr.ip getters
  waku2 := enr.waku2

/-- What the log of `getPeers` reads of a peer. -/
def readMultiaddrs (enr : Enr.ENR) : Except JsError (List String) := do
  match ← enr.multiaddrs getters with
  | some multiaddrs => multiaddrs.mapM getters.multiaddrToString
  | none => return []

namespace Peers

variable (wanted : NodeCapabilityCount) (s : Peers)

/-- The variables before the loop. -/
def start (cache : Map String String) (tree : ENRTreeValues) : Peers where
  cache
  context := { domain := tree.domain, publicKey := tree.publicKey, visits := Map.empty }
  fetch := Fetch.start
  enrs := []

/-- The condition of the loop. -/
def searching : Bool := s.fetch.searching wanted errorTolerance

/-- `_search(domain, context)`: what it comes to, with the cache and the context after it. -/
def search (choices : List Event) :
    Option (Except JsError (Option Enr.ENR) × Map String String × SearchContext) :=
  (run (step (client env zone)) (State.start s.cache s.context s.context.domain) choices).bind fun t =>
    match t.call with
    | .settled result => some (result, t.cache, t.context)
    | _ => none

/-- A round with the node that `getNode` has found; an ENR is pushed where what is read of it is. -/
def consider (node : Option Enr.ENR) : Except JsError Peers := do
  let fetch ← s.fetch.round wanted (node.map (ienr env getters))
  return { s with fetch, enrs := if fetch.peers = s.fetch.peers then s.enrs else s.enrs ++ node.toList }

/-- A round of the loop. -/
def round (choices : List Event) : Except Halt Peers :=
  match s.search env zone choices with
  | none => .error .pending
  | some (.error e, _) => .error (.rejected e)
  | some (.ok node, cache, context) => rejecting (consider env getters wanted { s with cache, context } node)

end Peers

/-- `getPeers`, with the number of which the network index is the rest. -/
def getPeers (cache : Map String String) (enrTreeUrls : List String)
    (wantedNodeCapabilityCount : PartialNodeCapabilityCount) (random : ℕ) (choices : ℕ → List Event) :
    Except Halt (List Enr.ENR) :=
  match enrTreeUrls[random % enrTreeUrls.length]? with
  | none => .error (.rejected .typeError)
  | some url => do
    let tree ← rejecting (parseTree url)
    let wanted := wantedNodeCapabilityCount.wanted
    let (s, _) ← poll (Peers.searching wanted) (Peers.round env getters zone wanted) choices
      (rounds wanted errorTolerance) 0 (Peers.start cache tree)
    let _ ← rejecting (s.enrs.mapM (readMultiaddrs getters))
    return s.enrs

end

/-! ## Searches that reject -/

section

variable {ρ : Type} {client : Client ρ} {s t : State ρ} {es : List Event} {result : Except JsError (Option ρ)}

/-- The entry of the name is a record with a promise that is rejected. -/
def Undecodable (client : Client ρ) (s : State ρ) (name : String) : Prop :=
  ∃ entry e, s.entry client name = some entry ∧ getEntryType entry = RECORD_PREFIX ∧
    client.fromString entry = .ok (.error e)

/-- A settled search has ended. -/
theorem eq_of_settled (h : s.call = .settled result) (hrun : run (step client) s es = some t) : t = s := by
  cases es with
  | nil =>
    cases hrun
    rfl
  | cons e es =>
    obtain ⟨s', hstep, -⟩ := run_cons.1 hrun
    rcases step_eq_some hstep with ⟨name, -, hcall, -⟩ | ⟨random, branches, refs, -, hcall, -⟩
    · rw [h] at hcall
      cases hcall
    · rw [h] at hcall
      cases hcall

/-- How an entry comes to a rejection: it is a record at the top level. -/
theorem follow_rejects_iff {context : SearchContext} {nested : Bool} {entry : String} {e : JsError} :
    State.follow client context nested entry = .ok (.settled (.error e)) ↔
      nested = false ∧ getEntryType entry = RECORD_PREFIX ∧ client.fromString entry = .ok (.error e) := by
  constructor
  · intro h
    unfold State.follow at h
    simp only at h
    split at h
    · obtain ⟨next, -, h⟩ := bind_eq_ok.1 h
      cases h
    · split at h
      · obtain ⟨branches, -, h⟩ := bind_eq_ok.1 h
        split at h <;> cases h
      · split at h
        next hrecord =>
          obtain ⟨promise, hpromise, h⟩ := bind_eq_ok.1 h
          cases promise with
          | ok enr => cases h
          | error e' =>
            cases nested
            · cases h
              exact ⟨rfl, hrecord, hpromise⟩
            · cases h
        next => cases h
  · rintro ⟨rfl, hrecord, hpromise⟩
    have hroot : RECORD_PREFIX ≠ ROOT_PREFIX := by decide
    have hbranch : RECORD_PREFIX ≠ BRANCH_PREFIX := by decide
    unfold State.follow
    simp only [hrecord, hpromise, if_neg hroot, if_neg hbranch, if_true]
    rfl

/-- A lookup comes to a rejection iff it is the first and finds a record that is not decoded. -/
theorem lookup_rejects_iff {name : String} :
    (∃ e, (s.lookup client name).call = .settled (.error e)) ↔ s.lookups = [] ∧ Undecodable client s name := by
  cases hentry : s.entry client name with
  | none =>
    refine iff_of_false ?_ ?_
    · rintro ⟨e, h⟩
      rw [State.lookup_of_none hentry] at h
      cases h
    · rintro ⟨-, entry, e, h, -⟩
      rw [hentry] at h
      cases h
  | some entry =>
    have hcall := (State.lookup_of_entry hentry).2
    constructor
    · rintro ⟨e, h⟩
      rw [hcall] at h
      split at h
      · cases h
      next call hfollow =>
        obtain ⟨hnested, hrecord, hpromise⟩ := follow_rejects_iff.1 (h ▸ hfollow)
        exact ⟨by simpa using hnested, entry, e, hentry, hrecord, hpromise⟩
    · rintro ⟨hlookups, entry', e, hentry', hrecord, hpromise⟩
      cases hentry.symm.trans hentry'
      have hnested : (!s.lookups.isEmpty) = false := by simp [hlookups]
      refine ⟨e, ?_⟩
      rw [hcall, follow_rejects_iff.2 ⟨hnested, hrecord, hpromise⟩]

/-- A search that has made a lookup does not reject. -/
theorem not_rejected_of_run (hlookups : s.lookups ≠ []) (hcall : ∀ e, s.call ≠ .settled (.error e))
    (hrun : run (step client) s es = some t) (e : JsError) : t.call ≠ .settled (.error e) := by
  refine (run_invariant (P := fun s : State ρ => s.lookups ≠ [] ∧ ∀ e, s.call ≠ .settled (.error e)) ?_ es
    ⟨hlookups, hcall⟩ hrun).2 e
  rintro s event s' ⟨hlookups, hcall⟩ hstep
  rcases step_eq_some hstep with ⟨name, -, -, rfl⟩ | ⟨random, branches, refs, -, -, rfl | ⟨-, rfl⟩⟩
  · refine ⟨by simp [(State.lookup_frame client s name).1], fun e h => ?_⟩
    exact hlookups (lookup_rejects_iff.1 ⟨e, h⟩).1
  · exact ⟨hlookups, hcall⟩
  · exact ⟨hlookups, nofun⟩

/-- **Rejections of a search**: those of a record at the name where it starts. -/
theorem settled_error_iff {cache : Map String String} {context : SearchContext} {name : String}
    (hrun : run (step client) (.start cache context name) es = some t) (hcall : t.call = .settled result) :
    (∃ e, result = .error e) ↔ Undecodable client (.start cache context name) name := by
  cases es with
  | nil =>
    cases hrun
    cases hcall
  | cons event es =>
    obtain ⟨s', hstep, hrun⟩ := run_cons.1 hrun
    rcases step_eq_some hstep with ⟨name', -, hstart, rfl⟩ | ⟨random, branches, refs, -, hstart, -⟩
    · cases hstart
      have hfirst : (∃ e, ((State.start cache context name).lookup client name).call = .settled (.error e)) ↔
          Undecodable client (.start cache context name) name :=
        lookup_rejects_iff.trans (and_iff_right rfl)
      rw [← hfirst]
      constructor
      · rintro ⟨e, rfl⟩
        by_contra hnot
        have hlookups : ((State.start cache context name).lookup client name).lookups ≠ [] := by
          simp [(State.lookup_frame client _ name).1]
        exact not_rejected_of_run hlookups (fun e h => hnot ⟨e, h⟩) hrun e hcall
      · rintro ⟨e, h⟩
        rw [eq_of_settled h hrun, h] at hcall
        cases hcall
        exact ⟨e, rfl⟩
    · cases hstart

end

/-! ## What is read -/

section

variable {env : Env} {getters : Enr.Getters} {zone : Map String (List String)} {wanted : NodeCapabilityCount}
  {s : Peers} {enr : Enr.ENR}

/-- The getters that are read of an ENR in a round return: the node id; of a new node the ip; and of a node that is taken,
in the end, the multiaddrs. -/
structure Peers.Reads (env : Env) (getters : Enr.Getters) (wanted : NodeCapabilityCount) (s : Peers) (enr : Enr.ENR) :
    Prop where
  readable : (ienr env getters enr).Readable s.fetch.peers
  multiaddrs : isNewPeer (ienr env getters enr) s.fetch.peers = .ok true →
    helps wanted s.fetch.actual (ienr env getters enr) = true → ∃ texts, readMultiaddrs getters enr = .ok texts

/-- The condition of a round: at the top-level domain is no record that is not decoded, and what is read of the ENR that
the search finds can be read. -/
def Peers.Readable (env : Env) (getters : Enr.Getters) (zone : Map String (List String)) (wanted : NodeCapabilityCount)
    (choices : List Event) (s : Peers) : Prop :=
  ¬Undecodable (client env zone) (State.start s.cache s.context s.context.domain) s.context.domain ∧
    ∀ enr cache context, s.search env zone choices = some (.ok (some enr), cache, context) →
      s.Reads env getters wanted enr

/-- The log reads the peers. -/
def Peers.Logged (getters : Enr.Getters) (s : Peers) : Prop :=
  ∀ enr ∈ s.enrs, ∃ texts, readMultiaddrs getters enr = .ok texts

/-- A round with an ENR that can be read: it is kept if it is new and helps. -/
theorem consider_some (hmissing : isSatisfied wanted s.fetch.actual = false)
    (hread : (ienr env getters enr).Readable s.fetch.peers) :
    ∃ s', s.consider env getters wanted (some enr) = .ok s' ∧ s'.enrs =
      if isNewPeer (ienr env getters enr) s.fetch.peers = .ok true ∧ helps wanted s.fetch.actual (ienr env getters enr) = true
      then s.enrs ++ [enr] else s.enrs := by
  by_cases htake : isNewPeer (ienr env getters enr) s.fetch.peers = .ok true ∧
    helps wanted s.fetch.actual (ienr env getters enr) = true
  · obtain ⟨waku2, -, hround⟩ := Fetch.round_take hmissing (hread.ip htake.1) htake.1 htake.2
    refine ⟨_, by rw [Peers.consider, Option.map_some, hround]; rfl, ?_⟩
    rw [if_pos htake]
    exact if_neg (by simp [Fetch.take])
  · have hskip : ∀ q ∈ some (ienr env getters enr), isNewPeer q s.fetch.peers = .ok true →
        helps wanted s.fetch.actual q = false := by
      rintro q ⟨⟩ hnew
      by_contra hhelps
      exact htake ⟨hnew, Bool.not_eq_false _ ▸ hhelps⟩
    have hreads : ∀ q ∈ some (ienr env getters enr), q.Readable s.fetch.peers := by
      rintro q ⟨⟩
      exact hread
    refine ⟨_, by rw [Peers.consider, Option.map_some, Fetch.round_skip hmissing hreads hskip]; rfl, ?_⟩
    rw [if_neg htake]
    exact if_pos rfl

/-- A round without an ENR. -/
theorem consider_none (hmissing : isSatisfied wanted s.fetch.actual = false) :
    s.consider env getters wanted none = .ok { s with fetch := { s.fetch with
      totalSearches := s.fetch.totalSearches + 1 } } := by
  rw [Peers.consider, Option.map_none, @Fetch.round_skip _ _ none hmissing (by simp) (by simp)]
  simp [pure, Except.pure]

/-- A round with an ENR goes well iff it can be read. -/
theorem consider_iff (hsearching : s.searching wanted = true) (hlogged : s.Logged getters) :
    (∃ s', s.consider env getters wanted (some enr) = .ok s' ∧ s'.Logged getters) ↔ s.Reads env getters wanted enr := by
  have hmissing := isSatisfied_of_searching hsearching
  constructor
  · rintro ⟨s', hs', hlogged'⟩
    obtain ⟨fetch, hround, -⟩ := bind_eq_ok.1 hs'
    have hread := (Fetch.round_cases hmissing hround).1 _ rfl
    refine ⟨hread, fun hnew hhelps => hlogged' enr ?_⟩
    obtain ⟨s'', hs'', henrs⟩ := consider_some hmissing hread
    cases hs''.symm.trans hs'
    rw [henrs, if_pos ⟨hnew, hhelps⟩]
    exact List.mem_append_right _ (List.mem_singleton_self _)
  · intro hreads
    obtain ⟨s', hs', henrs⟩ := consider_some hmissing hreads.readable
    refine ⟨s', hs', fun enr' henr' => ?_⟩
    rw [henrs] at henr'
    split at henr'
    next htake =>
      rcases List.mem_append.1 henr' with henr' | henr'
      · exact hlogged enr' henr'
      · rw [List.mem_singleton.1 henr']
        exact hreads.multiaddrs htake.1 htake.2
    next => exact hlogged enr' henr'

/-- A round keeps the ENRs. -/
theorem enrs_consider {node : Option Enr.ENR} {s' : Peers} (h : s.consider env getters wanted node = .ok s') :
    ∀ enr ∈ s.enrs, enr ∈ s'.enrs := by
  intro enr henr
  obtain ⟨fetch, -, h⟩ := bind_eq_ok.1 h
  cases h
  simp only
  split
  · exact henr
  · exact List.mem_append_left _ henr

theorem rejecting_eq_ok {α : Type} {x : Except JsError α} {a : α} : rejecting x = .ok a ↔ x = .ok a := by
  cases x <;> simp [rejecting]

/-- What a search has come to. -/
theorem Peers.search_eq_some {choices : List Event} {result : Except JsError (Option Enr.ENR)} {cache : Map String String}
    {context : SearchContext} : s.search env zone choices = some (result, cache, context) ↔
      ∃ t, run (step (client env zone)) (State.start s.cache s.context s.context.domain) choices = some t ∧
        t.call = .settled result ∧ t.cache = cache ∧ t.context = context := by
  rw [Peers.search, Option.bind_eq_some_iff]
  refine exists_congr fun t => and_congr_right fun _ => ?_
  split
  next result' hcall =>
    rw [hcall]
    simp only [Option.some.injEq, Prod.mk.injEq, Call.settled.injEq]
  next hopen => exact iff_of_false nofun fun h => hopen _ h.1

/-- A round goes well iff its search is settled and what it reads is readable. -/
theorem round_iff {choices : List Event} (hsearching : s.searching wanted = true) (hlogged : s.Logged getters) :
    (∃ s', s.round env getters zone wanted choices = .ok s' ∧ s'.Logged getters) ↔
      (s.search env zone choices).isSome = true ∧ s.Readable env getters zone wanted choices := by
  rw [Peers.round, Peers.Readable]
  rcases hsearch : s.search env zone choices with - | ⟨e | node, cache, context⟩
  · refine iff_of_false ?_ ?_
    · rintro ⟨s', hs', -⟩
      cases hs'
    · rintro ⟨h, -⟩
      cases h
  · obtain ⟨t, hrun, hcall, -⟩ := Peers.search_eq_some.1 hsearch
    refine iff_of_false ?_ ?_
    · rintro ⟨s', hs', -⟩
      cases hs'
    · rintro ⟨-, hnot, -⟩
      exact hnot ((settled_error_iff hrun hcall).1 ⟨e, rfl⟩)
  · obtain ⟨t, hrun, hcall, -⟩ := Peers.search_eq_some.1 hsearch
    have hdecoded : ¬Undecodable (client env zone) (State.start s.cache s.context s.context.domain) s.context.domain := by
      intro hundecodable
      obtain ⟨e, he⟩ := (settled_error_iff hrun hcall).2 hundecodable
      cases he
    simp only [rejecting_eq_ok, Option.isSome_some, true_and, hdecoded, not_false_eq_true]
    cases node with
    | none =>
      refine iff_of_true ⟨_, consider_none (isSatisfied_of_searching hsearching), hlogged⟩ ?_
      rintro enr cache' context' ⟨⟩
    | some enr =>
      refine (consider_iff (s := { s with cache, context }) hsearching hlogged).trans ⟨?_, ?_⟩
      · rintro hreads enr' cache' context' ⟨⟩
        exact ⟨hreads.readable, hreads.multiaddrs⟩
      · intro h
        have hreads := h enr cache context rfl
        exact ⟨hreads.readable, hreads.multiaddrs⟩

/-- A round of the loop is one of `fetchNodesUntilCapabilitiesFulfilled`. -/
theorem exists_fetch_round {choices : List Event} {s' : Peers} (h : s.round env getters zone wanted choices = .ok s') :
    ∃ node, s.fetch.round wanted node = .ok s'.fetch := by
  rw [Peers.round] at h
  split at h
  · cases h
  · cases h
  next x node cache context hsearch =>
    rw [rejecting_eq_ok] at h
    obtain ⟨fetch, hfetch, h⟩ := bind_eq_ok.1 h
    cases h
    exact ⟨_, hfetch⟩

/-- A round comes from a state whose peers the log reads if it comes to one. -/
theorem logged_of_round {choices : List Event} {s' : Peers} (h : s.round env getters zone wanted choices = .ok s')
    (hlogged : s'.Logged getters) : s.Logged getters := by
  rw [Peers.round] at h
  split at h
  · cases h
  · cases h
  · exact fun enr henr => hlogged enr (enrs_consider (rejecting_eq_ok.1 h) enr henr)

end

/-! ## Results -/

section

variable (env : Env) (getters : Enr.Getters) (zone : Map String (List String)) (cache : Map String String)
  (enrTreeUrls : List String) (count : PartialNodeCapabilityCount) (random : ℕ) (choices : ℕ → List Event)

/-- **`getPeers` resolves** iff at the top-level domain no search comes to a record that is not decoded, and each ENR
that a search finds can be read as far as it is. -/
theorem getPeers_resolves_iff {url : String} {tree : ENRTreeValues}
    (hurl : enrTreeUrls[random % enrTreeUrls.length]? = some url) (htree : parseTree url = .ok tree)
    (hsettles : Meets (Peers.searching count.wanted) (Peers.round env getters zone count.wanted) choices
      (fun i s => (s.search env zone (choices i)).isSome = true) (rounds count.wanted errorTolerance) 0
      (.start cache tree)) :
    (∃ peers, getPeers env getters zone cache enrTreeUrls count random choices = .ok peers) ↔
      Meets (Peers.searching count.wanted) (Peers.round env getters zone count.wanted) choices
        (fun i s => s.Readable env getters zone count.wanted (choices i)) (rounds count.wanted errorTolerance) 0
        (.start cache tree) := by
  have hloop : (∃ t j, poll (Peers.searching count.wanted) (Peers.round env getters zone count.wanted) choices
      (rounds count.wanted errorTolerance) 0 (.start cache tree) = .ok (t, j) ∧ t.Logged getters) ↔ _ :=
    exists_poll_iff_meets (fun i s hlogged hsearching => round_iff hsearching hlogged)
      (fun i s s' hs' hlogged => logged_of_round hs' hlogged) nofun
  rw [meets_and, and_iff_right hsettles] at hloop
  rw [← hloop, getPeers, hurl]
  simp only [htree, rejecting, ok_bind]
  constructor
  · rintro ⟨peers, h⟩
    obtain ⟨⟨t, j⟩, hpoll, h⟩ := bind_eq_ok.1 h
    obtain ⟨texts, htexts, -⟩ := bind_eq_ok.1 h
    exact ⟨t, j, hpoll, exists_mapM_iff.1 ⟨texts, rejecting_eq_ok.1 htexts⟩⟩
  · rintro ⟨t, j, hpoll, hlogged⟩
    obtain ⟨texts, htexts⟩ := exists_mapM_iff.2 hlogged
    exact ⟨t.enrs, by rw [hpoll, ok_bind, htexts]; rfl⟩

/-- The loop of `getPeers` ends only where its condition says so. -/
theorem searching_of_getPeers {tree : ENRTreeValues} {s : Peers} {calls : ℕ}
    (h : poll (Peers.searching count.wanted) (Peers.round env getters zone count.wanted) choices
      (rounds count.wanted errorTolerance) 0 (.start cache tree) = .ok (s, calls)) :
    s.searching count.wanted = false := by
  apply poll_finished (μ := fun s => s.fetch.left count.wanted errorTolerance) _ _ _ h
  · exact fun s hsearching => Fetch.left_pos hsearching
  · intro s node s' hsearching hround
    obtain ⟨node, hfetch⟩ := exists_fetch_round hround
    exact Fetch.left_round hsearching hfetch
  · simp [rounds, Fetch.left, Peers.start, Fetch.start]

end

/-! ## A record at the top-level domain -/

/-- The public key of the record of a node with relay, uncompressed. -/
def sampleUncompressed : Bytes :=
  4 :: (toBE 32 0xa6a7b389bc2f945f829e2090d6d42410be1480df7396811aca71c39c4c6edd61 ++
    toBE 32 0xca00d39da949b698173a1bc83c505922e71479b05dd8d084f456623ec21107ef)

/-- The functions of other packages on it, with the hash of its key, and with a record of one element. -/
def sampleReadEnv : Env :=
  { sampleEnv with
    enr :=
      { sampleEnv.enr with
        keccak256 := fun data =>
          if data = sliceFrom sampleUncompressed 1 then
            toBE 32 0xd299cb2a451377fe78286aad09c3340f7c884aabd59698c1845d6053914a0765
          else sampleEnv.enr.keccak256 data }
    base64url := fun text => if text = "wYA" then .ok [0xc1, 0x80] else sampleEnv.base64url text }

/-- The getters on it. -/
def sampleGetters : Enr.Getters where
  uncompressPoint
    | .bytes publicKey =>
      if publicKey = sampleRelay.publicKey then .ok sampleUncompressed
      else .error (.error "Point is not on elliptic curve")
    | .list _ => .error .typeError
  convertToString
    | "ip4", .bytes [a, b, c, d] => .ok s!"{a.toNat}.{b.toNat}.{c.toNat}.{d.toNat}"
    | _, _ => .error (.error "invalid ip address")
  multiaddr bytes :=
    if bytes = [4, 192, 168, 178, 251, 6, 31, 66, 221, 3] then .ok ⟨bytes, none⟩ else .error (.error "invalid address")
  multiaddrToString _ := .ok "/ip4/192.168.178.251/tcp/8002/ws"

/-- The URL of a tree. -/
def sampleUrl : String := "enrtree://" ++ samplePublicKey ++ "@nodes.example.org"

/-- A zone with one entry. -/
def entryZone (entry : String) : Map String (List String) := ⟨[("nodes.example.org", [entry])], by simp⟩

theorem parseTree_sampleUrl : parseTree sampleUrl = .ok ⟨samplePublicKey, "nodes.example.org"⟩ := by
  decide +kernel

/-- What the record is decoded to. -/
def sampleRead : Except JsError Enr.ENR :=
  Enr.fromValues sampleReadEnv.enr ((sampleRelay.signature :: sampleRelay.values).map .bytes)

/-- The getters of the record return, and with it no capability is missing. -/
theorem reads_sampleRead : sampleRead.toOption.any fun enr =>
    (enr.nodeId sampleReadEnv.enr sampleGetters).toBool && (enr.ip sampleGetters).toBool &&
      (readMultiaddrs sampleGetters enr).toBool &&
      (Fetch.start.round (PartialNodeCapabilityCount.wanted { relay := some 1 })
        (some (ienr sampleReadEnv sampleGetters enr))).toOption.all fun fetch =>
          !fetch.searching (PartialNodeCapabilityCount.wanted { relay := some 1 }) errorTolerance := by
  decide +kernel

theorem fromString_sampleRead : fromString sampleReadEnv (RECORD_PREFIX ++ sampleRelay.text) = .ok sampleRead := by
  have hr : sampleRelay ∈ sampleRecords := List.mem_cons_self
  have hne : sampleRelay.text ≠ "wYA" := by decide +kernel
  have hfound : sampleReadEnv.base64url sampleRelay.text = sampleEnv.base64url sampleRelay.text := by
    simp only [sampleReadEnv, if_neg hne]
  have hdecode : sampleReadEnv.enr.rlpDecode = sampleEnv.enr.rlpDecode := rfl
  rw [fromString_append, hfound, base64url_sample hr, ok_bind, hdecode, rlpDecode_sample hr]
  rfl

/-- A search with the record at the top-level domain. -/
theorem search_sampleRead {enr : Enr.ENR} (henr : sampleRead = .ok enr) :
    ∃ cache context, (Peers.start Map.empty ⟨samplePublicKey, "nodes.example.org"⟩).search sampleReadEnv
      (entryZone (RECORD_PREFIX ++ sampleRelay.text)) [.lookup] = some (.ok (some enr), cache, context) := by
  have hne : RECORD_PREFIX ++ sampleRelay.text ≠ "" := by
    rw [Ne, ← String.toList_inj, String.toList_append]
    simp [RECORD_PREFIX]
  have hserved : (Tree.record "nodes.example.org" enr).Served
      (client sampleReadEnv (entryZone (RECORD_PREFIX ++ sampleRelay.text)))
      (.start Map.empty ⟨"nodes.example.org", samplePublicKey, Map.empty⟩ "nodes.example.org") :=
    ⟨RECORD_PREFIX ++ sampleRelay.text, entry_start _ _ rfl hne (by decide), getEntryType_append sampleRelay.text, by
      rw [show (client sampleReadEnv (entryZone (RECORD_PREFIX ++ sampleRelay.text))).fromString =
        fromString sampleReadEnv from rfl, fromString_sampleRead, henr]⟩
  obtain ⟨hcall, -⟩ := lookup_record hserved
  exact ⟨_, _, Peers.search_eq_some.2 ⟨_, rfl, hcall, rfl, rfl⟩⟩

/-- The record at the top-level domain is a peer. -/
theorem getPeers_resolves_iff_sample : ∃ peers, getPeers sampleReadEnv sampleGetters
    (entryZone (RECORD_PREFIX ++ sampleRelay.text)) Map.empty [sampleUrl] { relay := some 1 } 0
    (fun _ => [.lookup]) = .ok peers := by
  set zone := entryZone (RECORD_PREFIX ++ sampleRelay.text) with hzone
  set count : PartialNodeCapabilityCount := { relay := some 1 } with hcount
  set s : Peers := .start Map.empty ⟨samplePublicKey, "nodes.example.org"⟩ with hs
  have hreads := reads_sampleRead
  cases henr : sampleRead with
  | error e =>
    rw [henr] at hreads
    cases hreads
  | ok enr =>
    rw [henr, ← hcount] at hreads
    simp only [Except.toOption, Option.any_some, Bool.and_eq_true] at hreads
    obtain ⟨⟨⟨hnodeId, hip⟩, htexts⟩, hfetch⟩ := hreads
    obtain ⟨cache, context, hsearch⟩ := search_sampleRead henr
    rw [← hzone, ← hs] at hsearch
    have hstop : ∀ {s' : Peers}, s.round sampleReadEnv sampleGetters zone count.wanted [.lookup] = .ok s' →
        s'.searching count.wanted = false := by
      intro s' hs'
      rw [Peers.round, hsearch] at hs'
      obtain ⟨fetch, hround, hs'⟩ := bind_eq_ok.1 (rejecting_eq_ok.1 hs')
      cases hs'
      have hround : Fetch.start.round count.wanted (some (ienr sampleReadEnv sampleGetters enr)) = .ok fetch := hround
      simp only [hround, Option.all_some, Bool.not_eq_true'] at hfetch
      exact hfetch
    have hmeets : ∀ C : ℕ → Peers → Prop, C 0 s → Meets (Peers.searching count.wanted)
        (Peers.round sampleReadEnv sampleGetters zone count.wanted) (fun _ => [.lookup]) C
        (rounds count.wanted errorTolerance) 0 s := by
      intro C hC
      rw [show rounds count.wanted errorTolerance = 10 + 1 from rfl]
      exact fun _ => ⟨hC, fun s' hs' => meets_stop (hstop hs')⟩
    refine (getPeers_resolves_iff sampleReadEnv sampleGetters zone Map.empty [sampleUrl] count 0 (fun _ => [.lookup]) rfl
      parseTree_sampleUrl (hmeets _ (by rw [hsearch]; rfl))).2 (hmeets _ ⟨?_, ?_⟩)
    · intro hundecodable
      obtain ⟨t, hrun, hcall, -⟩ := Peers.search_eq_some.1 hsearch
      obtain ⟨e, he⟩ := (settled_error_iff hrun hcall).2 hundecodable
      cases he
    · intro enr' cache' context' h
      cases hsearch.symm.trans h
      exact ⟨⟨hnodeId, fun _ => hip⟩, fun _ _ => exists_of_toBool htexts⟩

/-- A record of one element at the top-level domain rejects the promise. -/
theorem getPeers_rejects : ¬∀ (env : Env) (getters : Enr.Getters) (zone : Map String (List String))
    (cache : Map String String) (url : String) (count : PartialNodeCapabilityCount) (choices : ℕ → List Event)
    (tree : ENRTreeValues), parseTree url = .ok tree →
      Meets (Peers.searching count.wanted) (Peers.round env getters zone count.wanted) choices
        (fun i s => (s.search env zone (choices i)).isSome = true) (rounds count.wanted errorTolerance) 0
        (.start cache tree) →
      ∃ peers, getPeers env getters zone cache [url] count 0 choices = .ok peers := by
  intro h
  have hrejected : (getPeers sampleReadEnv sampleGetters (entryZone "enr:wYA") Map.empty [sampleUrl] { relay := some 1 } 0
      fun _ => [.lookup]).toBool = false := by decide +kernel
  have hround : (Peers.round sampleReadEnv sampleGetters (entryZone "enr:wYA")
      (PartialNodeCapabilityCount.wanted { relay := some 1 })
      (.start Map.empty ⟨samplePublicKey, "nodes.example.org"⟩) [.lookup]).toBool = false := by decide +kernel
  obtain ⟨peers, hpeers⟩ := h sampleReadEnv sampleGetters (entryZone "enr:wYA") Map.empty sampleUrl { relay := some 1 }
    (fun _ => [.lookup]) _ parseTree_sampleUrl fun _ => ⟨by decide +kernel, fun s' hs' => by
      rw [hs'] at hround
      cases hround⟩
  rw [hpeers] at hrejected
  cases hrejected

end JsWaku.Discovery
