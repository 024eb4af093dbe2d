import JsWaku.Core.ConnectionManager.Network

/-!
# The limit on bootstrap connections

`maxBootstrapPeersAllowed` is checked before a dial and in the `peer:connect` handler, both times by counting tags of
connections, which `dialPeer` writes when the dial has returned. The handler of a peer sees its own tag only if it was
written by then. Where no peer comes to be counted beyond the limit after its handler (`CountedInTime`), the limit holds
at rest (`bootstrap_at_rest`).
-/

namespace JsWaku.ConnectionManager

open Transition

/-- A call of the `peer:connect` handler for this peer. -/
def Task.isConnectOf (p : PeerId) : Task → Bool
  | connectLookup q | dropping q => q = p
  | _ => false

/-- The connection has the bootstrap tag. -/
def isBootstrap (c : Connection) : Bool := c.tags.contains BOOTSTRAP

namespace State

variable (s : State) (p : PeerId)

/-- How many calls of the `peer:connect` handler for the peer are in progress. -/
def connectsOf : ℕ := s.tasks.countP (Task.isConnectOf p)

/-- The bootstrap connections of the peers whose `peer:connect` handlers have ended. -/
def settled : ℕ := s.connections.countP fun c => isBootstrap c && s.connectsOf c.remotePeer = 0

/-- Those of the other peers. -/
def settledBeside : ℕ :=
  s.connections.countP fun c => c.remotePeer ≠ p && isBootstrap c && s.connectsOf c.remotePeer = 0

/-- The bootstrap connections of the peer. -/
def bootstrapOf : ℕ := (s.connectionsOf p).countP isBootstrap

end State

/-- Connections open without the bootstrap tag, and a peer comes to be counted in time: its connections get the tag
while its `peer:connect` handler is in progress, the lookup of the handler has the tag, and nothing with the tag is left
open by a hang-up; or else the limit allows for it. -/
def CountedInTime (options : Options) (s : State) : Event → Prop
  | .connectionOpened conn _ => isBootstrap conn = false
  | .tagged p _ tagNames _ => tagNames.contains BOOTSTRAP → 0 < s.connectsOf p ∨
      s.settledBeside p + (s.connectionsOf p).length ≤ options.maxBootstrapPeersAllowed
  | .connectLookedUp p tagNames => tagNames.contains BOOTSTRAP ∨
      s.settledBeside p + s.bootstrapOf p ≤ options.maxBootstrapPeersAllowed
  | .dropped p => s.settledBeside p + s.bootstrapOf p ≤ options.maxBootstrapPeersAllowed
  | _ => True

instance (options : Options) (s : State) : ∀ e : Event, Decidable (CountedInTime options s e)
  | .connectionOpened conn _ => inferInstanceAs (Decidable (isBootstrap conn = false))
  | .tagged _ _ tagNames _ => inferInstanceAs (Decidable (tagNames.contains BOOTSTRAP → _ ∨ _))
  | .connectLookedUp _ tagNames => inferInstanceAs (Decidable (tagNames.contains BOOTSTRAP ∨ _))
  | .dropped p => inferInstanceAs (Decidable (s.settledBeside p + s.bootstrapOf p ≤ options.maxBootstrapPeersAllowed))
  | .attemptDial _ | .discovered _ | .listed _ | .dispatched _ | .shardLookedUp _ _ | .shardWarned _ _
  | .bootstrapLookedUp _ _ | .answered _ _ | .dialResolved _ _ _ | .dialRejected _ _ _ _
  | .bootstrapChecked _ _ | .deleted _ _ | .dnsDiscovered _ _ | .connectionClosed _ => inferInstanceAs (Decidable True)

section

variable {options : Options} {s s' : State}

/-! ## Counting -/

theorem countP_le_add {α : Type*} {p q r : α → Bool} {l : List α} (h : ∀ a ∈ l, p a → q a ∨ r a) :
    l.countP p ≤ l.countP q + l.countP r := by
  induction l with
  | nil => exact Nat.zero_le _
  | cons a l ih =>
    have hl := ih fun b hb => h b (List.mem_cons_of_mem _ hb)
    have ha := h a List.mem_cons_self
    rw [List.countP_cons, List.countP_cons, List.countP_cons]
    split
    · rename_i hpa
      rcases ha hpa with hq | hr
      · rw [if_pos hq]
        omega
      · rw [if_pos hr]
        omega
    · omega

/-- Where the connections of one peer come to be counted only. -/
theorem settled_le {p : PeerId} (hconnections : s'.connections = s.connections)
    (hconnects : ∀ q, q ≠ p → s'.connectsOf q = s.connectsOf q) : s'.settled ≤ s.settledBeside p + s.bootstrapOf p := by
  unfold State.settled State.settledBeside State.bootstrapOf State.connectionsOf
  rw [hconnections, List.countP_filter]
  apply countP_le_add
  intro c hc hcounted
  simp only [Bool.and_eq_true, decide_eq_true_eq] at hcounted ⊢
  by_cases hp : c.remotePeer = p
  · exact Or.inr ⟨hcounted.1, hp⟩
  · rw [hconnects _ hp] at hcounted
    exact Or.inl ⟨⟨hp, hcounted.1⟩, hcounted.2⟩

/-- All settled bootstrap connections are bootstrap connections. -/
theorem settled_le_length (s : State) : s.settled ≤ s.bootstrapConnections.length := by
  unfold State.settled State.bootstrapConnections
  rw [← List.countP_eq_length_filter]
  apply List.countP_mono_left
  intro c _ hcounted
  exact (Bool.and_eq_true _ _ ▸ hcounted).1

/-- With no handler in progress all are settled. -/
theorem settled_eq_length (h : s.connects = 0) : s.settled = s.bootstrapConnections.length := by
  have hnone : ∀ p, s.connectsOf p = 0 := by
    intro p
    refine Nat.eq_zero_of_le_zero (h ▸ List.countP_mono_left fun t _ ht => ?_)
    cases t <;> first | rfl | cases ht
  unfold State.settled State.bootstrapConnections
  rw [← List.countP_eq_length_filter]
  apply List.countP_congr
  intro c _
  simp [hnone, isBootstrap]

theorem SameNetwork.connectsOf (h : SameNetwork s s') (p : PeerId) : s'.connectsOf p = s.connectsOf p := by
  apply h.tasks _
  intro t ht
  cases t <;> first | rfl | cases ht

theorem SameNetwork.settled (h : SameNetwork s s') : s'.settled = s.settled := by
  unfold State.settled
  rw [h.connections]
  simp only [h.connectsOf]

theorem connectsOf_spawn (s : State) (t : Task) (p : PeerId) :
    (s.spawn t).connectsOf p = s.connectsOf p + if t.isConnectOf p then 1 else 0 :=
  countP_spawn s t _

theorem connectsOf_resume {t : Task} (h : s.resume t = some s') (p : PeerId) :
    s.connectsOf p = s'.connectsOf p + if t.isConnectOf p then 1 else 0 :=
  countP_resume h _

/-- A handler that ends lets the connections of its peer be counted, and no others. -/
theorem settled_resume_le {t : Task} {p : PeerId} (hs₀ : s.resume t = some s')
    (ht : ∀ q, t.isConnectOf q = decide (p = q)) : s'.settled ≤ s.settledBeside p + s.bootstrapOf p := by
  apply settled_le (by rw [(resume_eq hs₀).2])
  intro q hq
  rw [connectsOf_resume hs₀ q, ht q, if_neg]
  · rfl
  · simpa using Ne.symm hq

/-- Which connections have the bootstrap tag when those of a peer were tagged. -/
theorem isBootstrap_recordDial (c : Connection) (p : PeerId) (tagNames : List String) :
    isBootstrap (if c.remotePeer = p then { c with tags := (c.tags ++ tagNames).eraseDups } else c) =
      (isBootstrap c || (c.remotePeer = p && tagNames.contains BOOTSTRAP)) := by
  split
  · rename_i hp
    rw [Bool.eq_iff_iff]
    simp [isBootstrap, hp, List.mem_eraseDups]
  · rename_i hp
    simp [hp]

/-- Tagging the connections of a peer counts no more of them than it has. -/
theorem settled_recordDial_le (s : State) (p : PeerId) (tagNames : List String) :
    (s.recordDial p tagNames).settled ≤ s.settledBeside p + (s.connectionsOf p).length := by
  unfold State.settled State.settledBeside State.connectionsOf
  rw [← List.countP_eq_length_filter]
  simp only [State.recordDial, List.countP_map]
  apply countP_le_add
  intro c _ hcounted
  by_cases hp : c.remotePeer = p
  · exact Or.inr (by simpa using hp)
  · simp only [Function.comp_apply, if_neg hp, Bool.and_eq_true, decide_eq_true_eq] at hcounted ⊢
    exact Or.inl ⟨⟨hp, hcounted.1⟩, hcounted.2⟩

/-- Tagging counts nothing new without the bootstrap tag, or while the handler of the peer is in progress. -/
theorem settled_recordDial {p : PeerId} {tagNames : List String}
    (h : tagNames.contains BOOTSTRAP = false ∨ 0 < s.connectsOf p) : (s.recordDial p tagNames).settled ≤ s.settled := by
  unfold State.settled
  simp only [State.recordDial, List.countP_map]
  apply List.countP_mono_left
  intro c _ hcounted
  have hpeer : (if c.remotePeer = p then { c with tags := (c.tags ++ tagNames).eraseDups } else c).remotePeer =
      c.remotePeer := by
    split <;> rfl
  simp only [Function.comp_apply, isBootstrap_recordDial, hpeer, Bool.and_eq_true, Bool.or_eq_true,
    decide_eq_true_eq] at hcounted ⊢
  obtain ⟨hboot | ⟨hp, hboot⟩, hnone⟩ := hcounted
  · exact ⟨hboot, hnone⟩
  · rcases h with hno | hpos
    · rw [hno] at hboot
      cases hboot
    · have hnone' : s.connectsOf c.remotePeer = 0 := hnone
      rw [hp] at hnone'
      omega

/-! ## Steps -/

/-- Every step keeps the settled bootstrap connections within the limit, if peers are counted in time. -/
theorem settled_step {e : Event} (hs : s.settled ≤ options.maxBootstrapPeersAllowed)
    (htime : CountedInTime options s e) (h : step options s e = some s') :
    s'.settled ≤ options.maxBootstrapPeersAllowed := by
  have hspec := network_spec h
  cases e with
  | attemptDial q | discovered q | listed peers | dispatched q | shardLookedUp q lookup | shardWarned q lookup
  | bootstrapLookedUp q tagNames | bootstrapChecked q isPreferred | answered q shouldDial
  | dialResolved q dialAttempt connected | dialRejected q dialAttempt connected error | deleted q outcome
  | dnsDiscovered q outcome =>
    rw [SameNetwork.settled hspec]
    exact hs
  | tagged p dialAttempt tagNames keepAlive =>
    rw [SameNetwork.settled hspec]
    cases hboot : tagNames.contains BOOTSTRAP with
    | false => exact (settled_recordDial (Or.inl hboot)).trans hs
    | true =>
      rcases htime hboot with hpos | hfits
      · exact (settled_recordDial (Or.inr hpos)).trans hs
      · exact (settled_recordDial_le s p tagNames).trans hfits
  | connectionOpened conn keepAlive =>
    have hopened : State.settled { s with connections := s.connections ++ [conn] } = s.settled := by
      have hconn : isBootstrap conn = false := htime
      simp [State.settled, State.connectsOf, hconn]
    obtain rfl := hspec
    split
    · refine le_trans (List.countP_mono_left fun c _ hcounted => ?_) (hopened.trans_le hs)
      simp only [connectsOf_spawn, Bool.and_eq_true, decide_eq_true_eq] at hcounted ⊢
      exact ⟨hcounted.1, Nat.eq_zero_of_add_eq_zero_right hcounted.2⟩
    · exact hopened.trans_le hs
  | connectionClosed conn =>
    have hclosed : State.settled { s with connections := s.connections.erase conn } ≤ s.settled :=
      (List.erase_sublist).countP_le
    obtain ⟨-, rfl⟩ := hspec
    unfold State.setP2PNetworkDisconnected
    split
    · split <;> exact hclosed.trans hs
    · exact hclosed.trans hs
  | connectLookedUp p tagNames =>
    obtain ⟨s₀, hs₀, rfl⟩ := hspec
    have hconnections : s₀.connections = s.connections := by rw [(resume_eq hs₀).2]
    unfold State.connectLookedUp
    split
    · -- the handler goes on
      have hsame : (s₀.spawn (.dropping p)).settled = s.settled := by
        unfold State.settled
        simp only [connectsOf_spawn, connectsOf_resume hs₀]
        show s₀.connections.countP _ = _
        rw [hconnections]
        rfl
      exact hsame.trans_le hs
    · rename_i hkept
      rcases htime with hboot | hfits
      · -- the handler counted the bootstrap connections
        have hfew : ¬s₀.bootstrapConnections.length > options.maxBootstrapPeersAllowed := fun hmany => hkept ⟨hboot, hmany⟩
        exact (settled_le_length s₀.setP2PNetworkConnected).trans (not_lt.1 hfew)
      · exact (settled_resume_le hs₀ fun _ => rfl).trans hfits
  | dropped p =>
    obtain ⟨s₀, hs₀, rfl⟩ := hspec
    exact (settled_resume_le hs₀ fun _ => rfl).trans htime

/-! ## Runs -/

/-- **The bootstrap limit holds at rest.** In every run from no connection in which peers are counted in time, in every
state reached with no `peer:connect` handler in progress, no more connections have the bootstrap tag than allowed. -/
theorem bootstrap_at_rest (options : Options) (es : List Event) (s : State)
    (hrun : run (step options) (init []) es = some s)
    (hmeets : Meets (step options) (CountedInTime options) (init []) es) (hrest : s.connects = 0) :
    s.bootstrapConnections.length ≤ options.maxBootstrapPeersAllowed := by
  rw [← settled_eq_length hrest]
  exact run_invariant_of_meets (P := fun s => s.settled ≤ options.maxBootstrapPeersAllowed)
    (fun s e s' => settled_step) es (Nat.zero_le _) hmeets hrun

end

/-! ## Two runs -/

/-- Two bootstrap peers are dialed, and have passed the check before either is connected. -/
def twoBootstraps : List Event :=
  [.attemptDial "a", .attemptDial "b"] ++ ["a", "b"].flatMap fun p =>
    [.shardLookedUp p (.ok none), .bootstrapLookedUp p [BOOTSTRAP], .bootstrapChecked p true, .answered p true]

/-- The handlers await their lookups until the connections are tagged: the second peer is dropped. -/
def countedRun : List Event :=
  twoBootstraps ++
    [.connectionOpened ⟨0, "a", []⟩ (.ok ()), .connectionOpened ⟨1, "b", []⟩ (.ok ()), .dialResolved "a" 0 false,
      .tagged "a" 0 [BOOTSTRAP] (.ok ()), .connectLookedUp "a" [BOOTSTRAP], .dialResolved "b" 0 false,
      .tagged "b" 0 [BOOTSTRAP] (.ok ()), .connectLookedUp "b" [BOOTSTRAP],
      .connectionClosed ⟨1, "b", [BOOTSTRAP]⟩, .dropped "b"]

/-- The handlers have ended when the connections are tagged. -/
def uncountedRun : List Event :=
  twoBootstraps ++
    [.connectionOpened ⟨0, "a", []⟩ (.ok ()), .connectionOpened ⟨1, "b", []⟩ (.ok ()),
      .connectLookedUp "a" [BOOTSTRAP], .connectLookedUp "b" [BOOTSTRAP], .dialResolved "a" 0 false,
      .dialResolved "b" 0 false, .tagged "a" 0 [BOOTSTRAP] (.ok ()), .tagged "b" 0 [BOOTSTRAP] (.ok ())]

/-- One bootstrap connection is left. -/
theorem bootstrap_at_rest_countedRun :
    ∃ s, run (step oneBootstrap) (init []) countedRun = some s ∧ s.bootstrapConnections ≠ [] ∧
      s.bootstrapConnections.length ≤ 1 := by
  have hrun : (run (step oneBootstrap) (init []) countedRun).isSome = true := by decide
  obtain ⟨s, hs⟩ := Option.isSome_iff_exists.1 hrun
  have hrest : ∀ s ∈ run (step oneBootstrap) (init []) countedRun, s.connects = 0 ∧ s.bootstrapConnections ≠ [] := by
    decide
  exact ⟨s, hs, (hrest s hs).2, bootstrap_at_rest oneBootstrap countedRun s hs (by decide) (hrest s hs).1⟩

/-- Two bootstrap connections are left, with no call in progress. -/
theorem bootstrap_not_at_rest :
    ¬∀ (es : List Event) (s : State), run (step oneBootstrap) (init []) es = some s → s.Quiescent → s.connects = 0 →
      s.bootstrapConnections.length ≤ oneBootstrap.maxBootstrapPeersAllowed := by
  intro h
  have hrun : (run (step oneBootstrap) (init []) uncountedRun).isSome = true := by decide
  obtain ⟨s, hs⟩ := Option.isSome_iff_exists.1 hrun
  have hrest : ∀ s ∈ run (step oneBootstrap) (init []) uncountedRun,
      s.Quiescent ∧ s.connects = 0 ∧ s.bootstrapConnections.length = 2 := by decide
  obtain ⟨hquiescent, hconnects, hlength⟩ := hrest s hs
  have hle := h uncountedRun s hs hquiescent hconnects
  rw [hlength] at hle
  exact absurd hle (by decide)

end JsWaku.ConnectionManager
