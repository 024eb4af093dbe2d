import JsWaku.Core.ConnectionManager.Frame

/-!
# The connection status

`isP2PNetworkConnected` is set at the end of the `peer:connect` handler, which awaits a lookup and maybe a hang-up, and
cleared by `peer:disconnect` at once, if it is set by then. Where no handler sets it with all connections closed, and
each handler comes that far (`ConnectsInTime`), it tells at rest whether a connection is open (`status_at_rest`). A step
that breaks the condition can be continued to a wrong status at rest (`wrong_status`).
-/

namespace JsWaku.ConnectionManager

open Transition

/-- How many calls of the `peer:connect` handler are in progress. -/
def State.connects (s : State) : ℕ := s.tasks.countP Task.isConnect

/-- From `s` to `s'` connections and flag stay the same, and no call of the `peer:connect` handler begins or ends. -/
structure SameNetwork (s s' : State) : Prop where
  connections : s'.connections = s.connections
  isP2PNetworkConnected : s'.isP2PNetworkConnected = s.isP2PNetworkConnected
  tasks : ∀ q : Task → Bool, (∀ t, q t → t.isConnect) → s'.tasks.countP q = s.tasks.countP q

namespace SameNetwork

variable {s s' s₀ : State} {t u : Task}

theorem trans {s₁ s₂ s₃ : State} (h : SameNetwork s₁ s₂) (h' : SameNetwork s₂ s₃) : SameNetwork s₁ s₃ where
  connections := h'.connections.trans h.connections
  isP2PNetworkConnected := h'.isP2PNetworkConnected.trans h.isP2PNetworkConnected
  tasks q hq := (h'.tasks q hq).trans (h.tasks q hq)

theorem of_quiet (h : Quiet s s') : SameNetwork s s' where
  connections := h.connections
  isP2PNetworkConnected := h.isP2PNetworkConnected
  tasks q hq := h.tasks q fun t ht => Task.isLoud_of_isConnect (hq t ht)

theorem spawn (s : State) (h : t.isConnect = false) : SameNetwork s (s.spawn t) where
  connections := rfl
  isP2PNetworkConnected := rfl
  tasks q hq := by simp [countP_spawn, eq_false_of_imp hq h]

theorem resume (hs : s.resume t = some s') (h : t.isConnect = false) : SameNetwork s s' where
  connections := by rw [(resume_eq hs).2]
  isP2PNetworkConnected := by rw [(resume_eq hs).2]
  tasks q hq := by simp [countP_resume hs, eq_false_of_imp hq h]

theorem of_dials {p : PeerId} (h : Dials p s s') : SameNetwork s s' := by
  obtain ⟨s₁, t, hquiet, ht, rfl⟩ := h
  refine (of_quiet hquiet).trans (spawn s₁ ?_)
  cases t <;> first | rfl | cases ht

theorem of_goesOn {p : PeerId} (h : GoesOn p s s') : SameNetwork s s' := h.elim of_dials of_quiet

theorem connects (h : SameNetwork s s') : s'.connects = s.connects := h.tasks _ fun _ ht => ht

end SameNetwork

section

variable {options : Options} {s s' : State}

/-- What a step does to the connections and to the flag, by its event. -/
def NetworkSpec (options : Options) (s s' : State) : Event → Prop
  | .tagged p _ tagNames _ => SameNetwork (s.recordDial p tagNames) s'
  | .connectionOpened conn keepAlive =>
    let opened := { s with connections := s.connections ++ [conn] }
    s' = if (s.connectionsOf conn.remotePeer).isEmpty ∧ keepAlive.toBool then
      opened.spawn (.connectLookup conn.remotePeer) else opened
  | .connectionClosed conn =>
    let closed := { s with connections := s.connections.erase conn }
    conn ∈ s.connections ∧
      s' = if (closed.connectionsOf conn.remotePeer).isEmpty then closed.setP2PNetworkDisconnected else closed
  | .connectLookedUp p tagNames =>
    ∃ s₀, s.resume (.connectLookup p) = some s₀ ∧ s' = s₀.connectLookedUp options p tagNames
  | .dropped p => ∃ s₀, s.resume (.dropping p) = some s₀ ∧ s' = s₀.setP2PNetworkConnected
  | _ => SameNetwork s s'

theorem network_spec {e : Event} (h : step options s e = some s') : NetworkSpec options s s' e := by
  have hspec := step_spec h
  cases e with
  | attemptDial q | discovered q | listed peers | dispatched q | shardLookedUp q lookup | shardWarned q lookup
  | bootstrapLookedUp q tagNames => exact SameNetwork.of_quiet hspec
  | bootstrapChecked q isPreferred =>
    obtain ⟨s₀, hquiet, rfl⟩ := hspec
    exact (SameNetwork.of_quiet hquiet).trans (SameNetwork.spawn s₀ rfl)
  | answered q shouldDial =>
    obtain ⟨s₀, hs₀, hspec⟩ := hspec
    refine (SameNetwork.resume hs₀ rfl).trans ?_
    split at hspec
    · rw [hspec]
      exact SameNetwork.of_goesOn (goesOn_dialPeer s₀ q)
    · exact SameNetwork.of_quiet hspec
  | dialResolved q dialAttempt connected =>
    obtain ⟨s₀, hs₀, rfl⟩ := hspec
    exact (SameNetwork.resume hs₀ rfl).trans (SameNetwork.spawn s₀ rfl)
  | dialRejected q dialAttempt connected error =>
    obtain ⟨s₀, hs₀, hspec⟩ := hspec
    have hrecord : SameNetwork s₀ { s₀ with
        dialAttemptsForPeer := s₀.dialAttemptsForPeer.set q (dialAttempt + 1 : ℕ) } := ⟨rfl, rfl, fun _ _ => rfl⟩
    split at hspec
    · exact ((SameNetwork.resume hs₀ rfl).trans hrecord).trans (SameNetwork.of_goesOn hspec)
    · rw [hspec]
      exact SameNetwork.resume hs₀ rfl
  | tagged q dialAttempt tagNames keepAlive =>
    obtain ⟨s₀, hs₀, hspec⟩ := hspec
    have hsame := SameNetwork.resume hs₀ rfl
    have hrecord : SameNetwork (s.recordDial q tagNames) (s₀.recordDial q tagNames) := by
      refine ⟨?_, hsame.isP2PNetworkConnected, hsame.tasks⟩
      simp only [State.recordDial, hsame.connections]
    refine hrecord.trans ?_
    cases keepAlive with
    | ok => exact SameNetwork.of_quiet hspec
    | error error =>
      have hagain : SameNetwork (s₀.recordDial q tagNames) { s₀.recordDial q tagNames with
          dialAttemptsForPeer := (s₀.recordDial q tagNames).dialAttemptsForPeer.set q (dialAttempt + 1 : ℕ) } :=
        ⟨rfl, rfl, fun _ _ => rfl⟩
      simp only at hspec
      split at hspec
      · exact hagain.trans (SameNetwork.of_goesOn hspec)
      · rw [hspec]
        exact SameNetwork.of_quiet (Quiet.refl _)
  | deleted q outcome =>
    obtain ⟨s₀, hs₀, rfl⟩ := hspec
    have hsame := SameNetwork.resume hs₀ rfl
    split
    · exact hsame.trans (SameNetwork.spawn s₀ rfl)
    · exact hsame
  | dnsDiscovered q outcome => exact SameNetwork.resume hspec rfl
  | connectionOpened conn keepAlive | connectionClosed conn | connectLookedUp q tagNames | dropped q => exact hspec

/-! ## The flag -/

/-- A handler that sets the flag finds a connection open, and a handler that fails at the keep-alive timer is not the
only one to set it. -/
def ConnectsInTime (s : State) : Event → Prop
  | .connectionOpened conn keepAlive =>
    (s.connectionsOf conn.remotePeer).isEmpty → keepAlive.toBool ∨ s.isP2PNetworkConnected ∨ 0 < s.connects
  | .connectLookedUp _ _ | .dropped _ => s.connections ≠ []
  | _ => True

instance (s : State) : ∀ e : Event, Decidable (ConnectsInTime s e)
  | .connectionOpened conn keepAlive =>
    inferInstanceAs (Decidable ((s.connectionsOf conn.remotePeer).isEmpty → keepAlive.toBool ∨ _ ∨ _))
  | .connectLookedUp _ _ | .dropped _ => inferInstanceAs (Decidable (s.connections ≠ []))
  | .attemptDial _ | .discovered _ | .listed _ | .dispatched _ | .shardLookedUp _ _ | .shardWarned _ _
  | .bootstrapLookedUp _ _ | .answered _ _ | .dialResolved _ _ _ | .dialRejected _ _ _ _
  | .bootstrapChecked _ _ | .tagged _ _ _ _ | .deleted _ _ | .dnsDiscovered _ _ | .connectionClosed _ =>
    inferInstanceAs (Decidable True)

/-- While the flag is set a connection is open; while one is open, the flag is set or a handler is to set it. -/
structure Linked (s : State) : Prop where
  isOpen : s.isP2PNetworkConnected = true → s.connections ≠ []
  isSet : s.connections ≠ [] → s.isP2PNetworkConnected = true ∨ 0 < s.connects

theorem linked_init : Linked (init []) where
  isOpen h := by cases h
  isSet h := absurd rfl h

theorem SameNetwork.linked (h : SameNetwork s s') (hs : Linked s) : Linked s' where
  isOpen := by
    rw [h.connections, h.isP2PNetworkConnected]
    exact hs.isOpen
  isSet := by
    rw [h.connections, h.isP2PNetworkConnected, h.connects]
    exact hs.isSet

theorem connects_spawn (s : State) (t : Task) : (s.spawn t).connects = s.connects + if t.isConnect then 1 else 0 :=
  countP_spawn s t _

/-- A handler is to set the flag of a state with a connection open. -/
theorem linked_spawn {t : Task} (h : s.connections ≠ []) (ht : t.isConnect = true) : Linked (s.spawn t) where
  isOpen _ := h
  isSet _ := by
    rw [connects_spawn, if_pos ht]
    exact Or.inr (Nat.succ_pos _)

/-- A handler sets the flag with a connection open. -/
theorem linked_setP2PNetworkConnected (h : s.connections ≠ []) : Linked s.setP2PNetworkConnected where
  isOpen _ := h
  isSet _ := Or.inl rfl

/-- Every step keeps the status linked, if handlers connect in time. -/
theorem linked_step {e : Event} (hs : Linked s) (htime : ConnectsInTime s e) (h : step options s e = some s') :
    Linked s' := by
  have hspec := network_spec h
  cases e with
  | attemptDial q | discovered q | listed peers | dispatched q | shardLookedUp q lookup | shardWarned q lookup
  | bootstrapLookedUp q tagNames | bootstrapChecked q isPreferred | answered q shouldDial
  | dialResolved q dialAttempt connected | dialRejected q dialAttempt connected error | deleted q outcome
  | dnsDiscovered q outcome => exact SameNetwork.linked hspec hs
  | tagged q dialAttempt tagNames keepAlive =>
    have hrecord : Linked (s.recordDial q tagNames) := by
      refine ⟨fun hset => ?_, fun hopen => hs.isSet ?_⟩
      · simpa [State.recordDial] using hs.isOpen hset
      · simpa [State.recordDial] using hopen
    exact SameNetwork.linked hspec hrecord
  | connectionOpened conn keepAlive =>
    obtain rfl := hspec
    split
    · exact linked_spawn (by simp) rfl
    · rename_i hno
      refine ⟨fun _ => by simp, ?_⟩
      intro _
      show s.isP2PNetworkConnected = true ∨ 0 < s.connects
      cases hfirst : (s.connectionsOf conn.remotePeer).isEmpty with
      | true =>
        rcases htime hfirst with hok | hset
        · exact absurd ⟨hfirst, hok⟩ hno
        · exact hset
      | false =>
        -- another connection of the peer is open already
        apply hs.isSet
        intro hnil
        simp [State.connectionsOf, hnil] at hfirst
  | connectionClosed conn =>
    obtain ⟨hmem, rfl⟩ := hspec
    have hset := hs.isSet (List.ne_nil_of_mem hmem)
    split
    · unfold State.setP2PNetworkDisconnected
      split
      · rename_i hcleared
        exact ⟨fun h => (by cases h), fun hopen => absurd (List.length_eq_zero_iff.1 hcleared.2) hopen⟩
      · rename_i hkept
        refine ⟨fun hconnected hnil => hkept ⟨hconnected, ?_⟩, fun _ => hset⟩
        rw [hnil]
        rfl
    · rename_i hother
      refine ⟨fun _ hnil => hother ?_, fun _ => hset⟩
      simp only at hnil
      simp [State.connectionsOf, hnil]
  | connectLookedUp q tagNames =>
    obtain ⟨s₀, hs₀, rfl⟩ := hspec
    have hopen : s₀.connections ≠ [] := by
      rw [(resume_eq hs₀).2]
      exact htime
    unfold State.connectLookedUp
    split
    · exact linked_spawn hopen rfl
    · exact linked_setP2PNetworkConnected hopen
  | dropped q =>
    obtain ⟨s₀, hs₀, rfl⟩ := hspec
    refine linked_setP2PNetworkConnected ?_
    rw [(resume_eq hs₀).2]
    exact htime

/-! ## Runs -/

/-- **The connection status is right at rest.** In every run from no connection whose handlers connect in time, in every
state reached with no `peer:connect` handler in progress, the flag is set iff a connection is open. -/
theorem status_at_rest (options : Options) (es : List Event) (s : State)
    (hrun : run (step options) (init []) es = some s)
    (hmeets : Meets (step options) ConnectsInTime (init []) es) (hrest : s.connects = 0) :
    s.isP2PNetworkConnected = true ↔ s.connections ≠ [] := by
  have hlinked : Linked s := run_invariant_of_meets (fun s e s' => linked_step) es linked_init hmeets hrun
  constructor
  · exact hlinked.isOpen
  · intro hopen
    rcases hlinked.isSet hopen with hset | hpos
    · exact hset
    · omega

/-! ## Steps that break the condition -/

/-- With the flag set and no connection open, the handlers in progress can end and change neither. -/
theorem connects_end (options : Options) (n : ℕ) {s : State} (hn : s.connects = n)
    (hset : s.isP2PNetworkConnected = true) (hclosed : s.connections = []) :
    ∃ es s', run (step options) s es = some s' ∧ s'.connects = 0 ∧ s'.isP2PNetworkConnected = true ∧
      s'.connections = [] := by
  induction n generalizing s with
  | zero => exact ⟨[], s, rfl, hn, hset, hclosed⟩
  | succ n ih =>
    obtain ⟨t, ht, hconnect⟩ := List.countP_pos_iff.1 (by rw [← State.connects, hn]; omega)
    have hresume := resume_of_mem ht
    have hcount : s.connects = State.connects { s with tasks := s.tasks.erase t } + 1 := by
      have hcount := countP_resume hresume Task.isConnect
      rw [if_pos hconnect] at hcount
      exact hcount
    have hnext : State.connects (State.setP2PNetworkConnected { s with tasks := s.tasks.erase t }) = n := by
      have hsame : State.connects (State.setP2PNetworkConnected { s with tasks := s.tasks.erase t }) =
          State.connects { s with tasks := s.tasks.erase t } := rfl
      omega
    obtain ⟨es, s', hrun, hend⟩ := ih hnext rfl hclosed
    cases t with
    | connectLookup p =>
      refine ⟨.connectLookedUp p [] :: es, s', run_cons.2 ⟨_, ?_, hrun⟩, hend⟩
      simp [step, hresume, State.connectLookedUp]
    | dropping p =>
      refine ⟨.dropped p :: es, s', run_cons.2 ⟨_, ?_, hrun⟩, hend⟩
      simp [step, hresume]
    | _ => cases hconnect

/-- A step that breaks the condition can be continued to a rest with a wrong status. -/
theorem wrong_status {e : Event} (hstep : step options s e = some s') (hbroken : ¬ConnectsInTime s e) :
    ∃ es s'', run (step options) s' es = some s'' ∧ s''.connects = 0 ∧
      ¬(s''.isP2PNetworkConnected = true ↔ s''.connections ≠ []) := by
  have hspec := network_spec hstep
  have hend : s'.isP2PNetworkConnected = true → s'.connections = [] → ∃ es s'',
      run (step options) s' es = some s'' ∧ s''.connects = 0 ∧
        ¬(s''.isP2PNetworkConnected = true ↔ s''.connections ≠ []) := by
    intro hset hclosed
    obtain ⟨es, s'', hrun, hrest, hset', hclosed'⟩ := connects_end options _ rfl hset hclosed
    exact ⟨es, s'', hrun, hrest, fun h => h.1 hset' hclosed'⟩
  cases e with
  | connectionOpened conn keepAlive =>
    obtain rfl := hspec
    simp only [ConnectsInTime, Classical.not_imp, not_or] at hbroken
    obtain ⟨hfirst, hfailed, hunset, hnone⟩ := hbroken
    rw [if_neg fun h => hfailed h.2]
    have hrest : s.connects = 0 := Nat.eq_zero_of_not_pos hnone
    exact ⟨[], _, rfl, hrest, fun h => hunset (h.2 (by simp))⟩
  | connectLookedUp p tagNames =>
    obtain ⟨s₀, hs₀, rfl⟩ := hspec
    have hclosed : s₀.connections = [] := by
      rw [(resume_eq hs₀).2]
      exact not_not.1 hbroken
    have hset : s₀.connectLookedUp options p tagNames = s₀.setP2PNetworkConnected := by
      unfold State.connectLookedUp
      rw [if_neg]
      simp [State.bootstrapConnections, hclosed]
    rw [hset] at hend ⊢
    exact hend rfl hclosed
  | dropped p =>
    obtain ⟨s₀, hs₀, rfl⟩ := hspec
    have hclosed : s₀.connections = [] := by
      rw [(resume_eq hs₀).2]
      exact not_not.1 hbroken
    exact hend rfl hclosed
  | _ => exact absurd trivial hbroken

end

/-! ## Two runs -/

/-- One bootstrap peer at most. -/
def oneBootstrap : Options :=
  { pubsubTopics := [], maxDialAttemptsForPeer := 1, maxBootstrapPeersAllowed := 1, maxParallelDials := 3 }

/-- A peer connects. -/
def connectedRun : List Event := [.connectionOpened ⟨0, "a", []⟩ (.ok ()), .connectLookedUp "a" []]

/-- A peer connects, and disconnects while the `peer:connect` handler awaits its lookup. -/
def lateRun : List Event :=
  [.connectionOpened ⟨0, "a", []⟩ (.ok ()), .connectionClosed ⟨0, "a", []⟩, .connectLookedUp "a" []]

/-- The flag is set while the peer is connected. -/
theorem status_at_rest_connectedRun :
    ∃ s, run (step oneBootstrap) (init []) connectedRun = some s ∧
      (s.isP2PNetworkConnected = true ↔ s.connections ≠ []) ∧ s.connections ≠ [] := by
  have hrun : (run (step oneBootstrap) (init []) connectedRun).isSome = true := by decide
  obtain ⟨s, hs⟩ := Option.isSome_iff_exists.1 hrun
  have hrest : ∀ s ∈ run (step oneBootstrap) (init []) connectedRun, s.connects = 0 ∧ s.connections ≠ [] := by
    decide
  exact ⟨s, hs, status_at_rest oneBootstrap connectedRun s hs (by decide) (hrest s hs).1, (hrest s hs).2⟩

/-- The flag is set at rest, with no connection open. -/
theorem status_not_at_rest :
    ¬∀ (es : List Event) (s : State), run (step oneBootstrap) (init []) es = some s → s.connects = 0 →
      (s.isP2PNetworkConnected = true ↔ s.connections ≠ []) := by
  intro h
  have hrun : (run (step oneBootstrap) (init []) lateRun).isSome = true := by decide
  obtain ⟨s, hs⟩ := Option.isSome_iff_exists.1 hrun
  have hlate : ∀ s ∈ run (step oneBootstrap) (init []) lateRun,
      s.connects = 0 ∧ s.isP2PNetworkConnected = true ∧ s.connections = [] := by decide
  obtain ⟨hrest, hset, hclosed⟩ := hlate s hs
  exact (h lateRun s hs hrest).1 hset hclosed

end JsWaku.ConnectionManager
