import JsWaku.Lib.Polling
import Mathlib.Data.Nat.Find

/-!
# Waiting for relay peers

`waitForPeers` of `Relay`, `packages/relay/src/relay.ts`, over the evolution of the gossipsub meshes: the peers in the
mesh of each topic at the call and at each heartbeat after it. The loops over the topics share one list of peers, which
is refreshed only while it is empty. So the call waits for the first topic, and once this has a peer every other topic is
passed over (`waitForPeers_cons`): it is served in time only if it had a peer by then (`waited_iff`).
-/

namespace JsWaku.Relay

open Polling

/-- The peers in the mesh of each topic, at the call of `waitForPeers` and at each heartbeat after it. -/
abbrev Meshes := ℕ → String → List String

/-- `getMeshPeers`, whose topic may be left out. -/
def getMeshPeers (mesh : String → List String) (topic : Option String) : List String := mesh (topic.getD "")

/-- The `while` for a topic, from the peers and the moment before it to those after it; nothing if it still waits after
`fuel` heartbeats. -/
def waitForTopic (meshes : Meshes) (fuel : ℕ) (peers : List String × ℕ) (topic : String) : Option (List String × ℕ) :=
  let waited : Except Empty (List String × ℕ) :=
    poll (·.isEmpty) (fun _ peers => .ok peers) (fun i => getMeshPeers (meshes (i + 1)) (some topic)) fuel peers.2 peers.1
  waited.toOption.filter fun peers => !peers.1.isEmpty

/-- `waitForPeers`: the moment at which it resolves. -/
def waitForPeers (meshes : Meshes) (pubsubTopics : List String) (fuel : ℕ) : Option ℕ :=
  (pubsubTopics.foldlM (waitForTopic meshes fuel) (getMeshPeers (meshes 0) none, 0)).map Prod.snd

/-! ## One topic -/

section

variable {meshes : Meshes} {fuel i j : ℕ} {peers found : List String} {topic : String}

/-- With peers at hand the `while` is passed over. -/
theorem waitForTopic_of_ne_nil (h : peers ≠ []) : waitForTopic meshes fuel (peers, i) topic = some (peers, i) := by
  have hcond : peers.isEmpty = false := by simpa using h
  simp [waitForTopic, poll_stop hcond, Except.toOption, h]

theorem foldlM_of_ne_nil (h : peers ≠ []) (topics : List String) :
    topics.foldlM (waitForTopic meshes fuel) (peers, i) = some (peers, i) := by
  induction topics with
  | nil => rfl
  | cons topic topics ih =>
    rw [List.foldlM_cons, waitForTopic_of_ne_nil h]
    exact ih

/-- A `while` that starts without peers ends at the first heartbeat with a peer in the mesh of its topic. -/
theorem waitForTopic_spec (h : waitForTopic meshes fuel ([], i) topic = some (found, j)) :
    found ≠ [] ∧ i < j ∧ found = meshes j topic ∧ ∀ k, i < k → k < j → meshes k topic = [] := by
  obtain ⟨hwaited, hfound⟩ := Option.filter_eq_some_iff.1 h
  have hne : found ≠ [] := by simpa using hfound
  cases hpoll : poll (ε := Empty) (·.isEmpty) (fun _ peers => .ok peers)
      (fun i => getMeshPeers (meshes (i + 1)) (some topic)) fuel i [] with
  | error e => cases e
  | ok result =>
    obtain rfl : result = (found, j) := by simpa [hpoll, Except.toOption] using hwaited
    have hinv := poll_indexed (P := fun m peers => i ≤ m ∧ (m = i → peers = []) ∧ (i < m → peers = meshes m topic) ∧
      ∀ k, i < k → k < m → meshes k topic = []) ?_ ⟨le_rfl, fun _ => rfl, fun hlt => absurd hlt (lt_irrefl i), ?_⟩ hpoll
    · obtain ⟨hle, hnil, heq, hbefore⟩ := hinv
      have hlt : i < j := lt_of_le_of_ne hle fun hij => hne (hnil hij.symm)
      exact ⟨hne, hlt, heq hlt, hbefore⟩
    · rintro m peers peers' ⟨hle, hnil, heq, hbefore⟩ hcond hbody
      obtain rfl : meshes (m + 1) topic = peers' := by simpa [getMeshPeers] using hbody
      refine ⟨by omega, by omega, fun _ => rfl, fun k hk hkm => ?_⟩
      rcases Nat.lt_succ_iff_lt_or_eq.1 hkm with hlt | rfl
      · exact hbefore k hk hlt
      · rw [← heq hk]
        simpa using hcond
    · intro k hk hki
      omega

/-- It does end there, with a heartbeat for each moment till then. -/
theorem waitForTopic_of_first (hij : i < j) (hfuel : j - i ≤ fuel) (hj : meshes j topic ≠ [])
    (hbefore : ∀ k, i < k → k < j → meshes k topic = []) :
    waitForTopic meshes fuel ([], i) topic = some (meshes j topic, j) := by
  induction fuel generalizing i with
  | zero => omega
  | succ fuel ih =>
    have hround : waitForTopic meshes (fuel + 1) ([], i) topic =
        waitForTopic meshes fuel (meshes (i + 1) topic, i + 1) topic := rfl
    rw [hround]
    rcases Nat.eq_or_lt_of_le hij with rfl | hlt
    · exact waitForTopic_of_ne_nil hj
    · rw [hbefore (i + 1) (by omega) hlt]
      exact ih hlt (by omega) fun k hk => hbefore k (by omega)

end

/-! ## All topics -/

/-- A call waits for its first topic only. -/
theorem waitForPeers_cons (meshes : Meshes) (first : String) (rest : List String) (fuel : ℕ) :
    waitForPeers meshes (first :: rest) fuel =
      (waitForTopic meshes fuel (getMeshPeers (meshes 0) none, 0) first).map Prod.snd := by
  rw [waitForPeers, List.foldlM_cons]
  cases hfirst : waitForTopic meshes fuel (getMeshPeers (meshes 0) none, 0) first with
  | none => rfl
  | some waited =>
    have hne : waited.1 ≠ [] := by simpa using (Option.filter_eq_some_iff.1 hfirst).2
    exact congrArg (Option.map Prod.snd) (foldlM_of_ne_nil hne rest)

/-- The topic has a peer at the call, or at a heartbeat before which the first topic had none at any. -/
def Early (meshes : Meshes) (first topic : String) : Prop :=
  ∃ k, meshes k topic ≠ [] ∧ ∀ j, 0 < j → j < k → meshes j first = []

/-- Every topic but the first is early; or, if there are peers for the topic of no name, every topic has a peer at the
call. -/
def InTime (meshes : Meshes) : List String → Prop
  | [] => True
  | first :: rest =>
    if meshes 0 "" = [] then ∀ topic ∈ rest, Early meshes first topic
    else ∀ topic ∈ first :: rest, meshes 0 topic ≠ []

/-- **A call of `waitForPeers` waits for every topic exactly if the other topics have peers by the time that the first one
has.** -/
theorem waited_iff (meshes : Meshes) (pubsubTopics : List String) (fuel n : ℕ)
    (h : waitForPeers meshes pubsubTopics fuel = some n) :
    (∀ topic ∈ pubsubTopics, ∃ k ≤ n, meshes k topic ≠ []) ↔ InTime meshes pubsubTopics := by
  cases pubsubTopics with
  | nil => simp [InTime]
  | cons first rest =>
    rw [waitForPeers_cons] at h
    obtain ⟨⟨found, m⟩, hwaited, rfl⟩ := Option.map_eq_some_iff.1 h
    by_cases hnone : meshes 0 "" = []
    · have hstart : getMeshPeers (meshes 0) none = [] := hnone
      rw [hstart] at hwaited
      obtain ⟨hne, hpos, rfl, hbefore⟩ := waitForTopic_spec hwaited
      rw [InTime, if_pos hnone, List.forall_mem_cons]
      constructor
      · rintro ⟨-, hrest⟩ topic htopic
        obtain ⟨k, hk, hpeers⟩ := hrest topic htopic
        exact ⟨k, hpeers, fun j hj hjk => hbefore j hj (lt_of_lt_of_le hjk hk)⟩
      · intro hearly
        refine ⟨⟨m, le_rfl, hne⟩, fun topic htopic => ?_⟩
        obtain ⟨k, hpeers, hfirst⟩ := hearly topic htopic
        refine ⟨k, ?_, hpeers⟩
        -- else the first topic would have had a peer before
        by_contra hmk
        exact hne (hfirst m hpos (not_le.1 hmk))
    · have hstart : getMeshPeers (meshes 0) none ≠ [] := hnone
      rw [waitForTopic_of_ne_nil hstart] at hwaited
      cases hwaited
      rw [InTime, if_neg hnone]
      simp only [Nat.le_zero, exists_eq_left]

/-- A call resolves exactly if there is no topic, there are peers for the topic of no name, or there is a heartbeat with
a peer in the mesh of the first topic. -/
theorem resolves_iff (meshes : Meshes) (pubsubTopics : List String) :
    (∃ fuel n, waitForPeers meshes pubsubTopics fuel = some n) ↔
      meshes 0 "" ≠ [] ∨ ∀ first ∈ pubsubTopics.head?, ∃ k, 0 < k ∧ meshes k first ≠ [] := by
  cases pubsubTopics with
  | nil => exact iff_of_true ⟨0, 0, rfl⟩ (Or.inr (by simp))
  | cons first rest =>
    simp only [waitForPeers_cons, List.head?_cons, Option.mem_some_iff, forall_eq']
    by_cases hnone : meshes 0 "" = []
    · have hstart : getMeshPeers (meshes 0) none = [] := hnone
      rw [hstart]
      constructor
      · rintro ⟨fuel, n, h⟩
        obtain ⟨⟨found, m⟩, hwaited, rfl⟩ := Option.map_eq_some_iff.1 h
        obtain ⟨hne, hpos, rfl, -⟩ := waitForTopic_spec hwaited
        exact Or.inr ⟨m, hpos, hne⟩
      · rintro (habsurd | hsome)
        · exact absurd hnone habsurd
        · classical
          obtain ⟨hpos, hne⟩ := Nat.find_spec hsome
          refine ⟨Nat.find hsome, Nat.find hsome, ?_⟩
          rw [waitForTopic_of_first hpos (Nat.sub_le _ _) hne]
          · rfl
          · intro k hk hlt
            by_contra hpeers
            exact Nat.find_min hsome hlt ⟨hk, hpeers⟩
    · have hstart : getMeshPeers (meshes 0) none ≠ [] := hnone
      exact iff_of_true ⟨0, 0, by rw [waitForTopic_of_ne_nil hstart]; rfl⟩ (Or.inl hnone)

/-- From the first heartbeat on there is a peer for one topic. -/
def servedOnly (served : String) : Meshes := fun k topic => if 0 < k ∧ topic = served then ["peer"] else []

/-- A call for one topic waits for it. -/
theorem waited_iff_one :
    waitForPeers (servedOnly "a") ["a"] 1 = some 1 ∧ ∀ topic ∈ ["a"], ∃ k ≤ 1, servedOnly "a" k topic ≠ [] :=
  ⟨rfl, (waited_iff (servedOnly "a") ["a"] 1 1 rfl).2 (by simp [InTime, servedOnly])⟩

/-- A call for two topics resolves when the first one has a peer. -/
theorem not_waited :
    ¬∀ (meshes : Meshes) (pubsubTopics : List String) (fuel n : ℕ), pubsubTopics.Nodup →
      waitForPeers meshes pubsubTopics fuel = some n → ∀ topic ∈ pubsubTopics, ∃ k ≤ n, meshes k topic ≠ [] := by
  intro h
  obtain ⟨k, -, hpeers⟩ := h (servedOnly "a") ["a", "b"] 1 1 (by decide) rfl "b" (by decide)
  exact hpeers (by simp [servedOnly])

end JsWaku.Relay
