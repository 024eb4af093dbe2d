import JsWaku.Core.ConnectionManager.Model

/-!
# What the code of the connection manager leaves alone

Attempts and the dial queue touch neither the connections, nor the flag `isP2PNetworkConnected`, nor the record of
dials: `Quiet s s'` says so of a segment of code from `s` to `s'`, and that of the calls in progress that matter to these
(`Task.isLoud`) none has begun or ended. There is one lemma for each function; the loop of `dialPeer` also leaves one
call of `dialPeer` in progress (`Dials`), unless the call ends there (`GoesOn`). `step_spec` says what each step does beyond that.
-/

namespace JsWaku.ConnectionManager

open Transition

/-- A `dialPeer` call for this peer. -/
def Task.isDialOf (p : PeerId) : Task → Bool
  | dialing q _ _ | tagging q _ | deleting q | dnsDiscovery q => q = p
  | _ => false

/-- A call of the `peer:connect` handler. -/
def Task.isConnect : Task → Bool
  | connectLookup _ | dropping _ => true
  | _ => false

/-- An attempt that is to come to dialing, a `dialPeer` call, or a call of the `peer:connect` handler. -/
def Task.isLoud : Task → Bool
  | answered _ shouldDial => shouldDial
  | dialing _ _ _ | tagging _ _ | deleting _ | dnsDiscovery _ | connectLookup _ | dropping _ => true
  | _ => false

theorem Task.isLoud_of_isDialOf {p : PeerId} {t : Task} (h : t.isDialOf p) : t.isLoud := by
  cases t <;> first | rfl | cases h

theorem Task.isLoud_of_isConnect {t : Task} (h : t.isConnect) : t.isLoud := by
  cases t <;> first | rfl | cases h

/-- From `s` to `s'` connections, flag and record stay the same, and loud calls neither begin nor end. -/
structure Quiet (s s' : State) : Prop where
  connections : s'.connections = s.connections
  isP2PNetworkConnected : s'.isP2PNetworkConnected = s.isP2PNetworkConnected
  dialAttemptsForPeer : s'.dialAttemptsForPeer = s.dialAttemptsForPeer
  tasks : ∀ q : Task → Bool, (∀ t, q t → t.isLoud) → s'.tasks.countP q = s.tasks.countP q

namespace Quiet

theorem refl (s : State) : Quiet s s := ⟨rfl, rfl, rfl, fun _ _ => rfl⟩

theorem trans {s₁ s₂ s₃ : State} (h : Quiet s₁ s₂) (h' : Quiet s₂ s₃) : Quiet s₁ s₃ where
  connections := h'.connections.trans h.connections
  isP2PNetworkConnected := h'.isP2PNetworkConnected.trans h.isP2PNetworkConnected
  dialAttemptsForPeer := h'.dialAttemptsForPeer.trans h.dialAttemptsForPeer
  tasks q hq := (h'.tasks q hq).trans (h.tasks q hq)

section

variable {options : Options} {s s' : State} {t : Task}

theorem spawn (s : State) (h : t.isLoud = false) : Quiet s (s.spawn t) :=
  { refl s with tasks := fun q hq => by simp [State.spawn, List.countP_append, eq_false_of_imp hq h] }

theorem resume (hs : s.resume t = some s') (h : t.isLoud = false) : Quiet s s' := by
  obtain ⟨tasks, htake, rfl⟩ := Option.map_eq_some_iff.1 hs
  refine { refl s with tasks := fun q hq => ?_ }
  have hcount := countP_take htake q
  rw [eq_false_of_imp hq h] at hcount
  exact hcount.symm

/-- A call that matters is still there. -/
theorem mem_tasks (h : Quiet s s') (ht : t.isLoud = true) : t ∈ s'.tasks ↔ t ∈ s.tasks := by
  have hcount : s'.tasks.count t = s.tasks.count t := by
    apply h.tasks (· == t)
    intro u hu
    rw [eq_of_beq hu]
    exact ht
  rw [← List.count_pos_iff, ← List.count_pos_iff, hcount]

/-! ## The functions -/

theorem attemptDial (s : State) (peerId : PeerId) : Quiet s (s.attemptDial peerId) := by
  unfold State.attemptDial
  split <;> exact spawn s rfl

theorem foldl_attemptDial (peers : List PeerId) (s : State) : Quiet s (peers.foldl State.attemptDial s) :=
  rel_foldl refl (fun _ _ _ => trans) attemptDial peers s

theorem processDialQueue (s : State) : Quiet s (s.processDialQueue options) := by
  unfold State.processDialQueue
  split
  · split
    · rename_i peerId rest _
      have hrest : Quiet s { s with pendingPeerDialQueue := rest } := { refl s with }
      exact hrest.trans (attemptDial _ peerId)
    · exact refl s
  · exact refl s

theorem finishDial (s : State) : Quiet s (s.finishDial options) := by
  have hcount : Quiet s { s with currentActiveParallelDialCount := s.currentActiveParallelDialCount - 1 } :=
    { refl s with }
  exact hcount.trans (processDialQueue _)

end

end Quiet

/-- From `s` to `s'` all is quiet, but for one more `dialPeer` call for the peer. -/
def Dials (p : PeerId) (s s' : State) : Prop := ∃ s₁ t, Quiet s s₁ ∧ t.isDialOf p = true ∧ s' = s₁.spawn t

/-- From `s` to `s'` a `dialPeer` call for the peer has gone on, or ended. -/
def GoesOn (p : PeerId) (s s' : State) : Prop := Dials p s s' ∨ Quiet s s'

section

variable {options : Options} {s s' : State} {t : Task}

theorem Dials.of_quiet {p : PeerId} {s₀ : State} (h : Quiet s s₀) (h' : Dials p s₀ s') : Dials p s s' := by
  obtain ⟨s₁, t, hs₁, ht, rfl⟩ := h'
  exact ⟨s₁, t, h.trans hs₁, ht, rfl⟩

theorem GoesOn.of_quiet {p : PeerId} {s₀ : State} (h : Quiet s s₀) (h' : GoesOn p s₀ s') : GoesOn p s s' :=
  h'.imp (Dials.of_quiet h) h.trans

/-- The clean-up goes on, unless the last error cannot be described. -/
theorem goesOn_forget (s : State) (p : PeerId) (connected : Bool) : GoesOn p s (s.forget p connected) := by
  have herrors : Quiet s { s with dialErrorsForPeer := s.dialErrorsForPeer.delete p } := { Quiet.refl s with }
  have hspawned : GoesOn p s (if connected then
      State.spawn { s with dialErrorsForPeer := s.dialErrorsForPeer.delete p } (.deleting p)
      else State.spawn { s with dialErrorsForPeer := s.dialErrorsForPeer.delete p } (.dnsDiscovery p)) := by
    split
    · exact Or.inl ⟨_, _, herrors, by simp [Task.isDialOf], rfl⟩
    · exact Or.inl ⟨_, _, herrors, by simp [Task.isDialOf], rfl⟩
  unfold State.forget
  split
  · exact Or.inr (Quiet.refl s)
  · exact hspawned
  · exact hspawned

/-- The loop of `dialPeer` dials once more, or the call goes on to clean up. -/
theorem goesOn_dialLoop (s : State) (p : PeerId) (dialAttempt : ℕ) (connected : Bool) :
    GoesOn p s (s.dialLoop options p dialAttempt connected) := by
  unfold State.dialLoop
  split
  · exact Or.inl ⟨s, _, Quiet.refl s, by simp [Task.isDialOf], rfl⟩
  · exact GoesOn.of_quiet (Quiet.finishDial s) (goesOn_forget _ p connected)

/-- The `catch` of `dialPeer` records the attempt and goes on, if it can log the error. -/
theorem dialFailed_spec (s : State) (p : PeerId) (dialAttempt : ℕ) (connected : Bool) (error : Caught) :
    if error.logged.toBool then
      GoesOn p { s with dialAttemptsForPeer := s.dialAttemptsForPeer.set p (dialAttempt + 1 : ℕ) }
        (s.dialFailed options p dialAttempt connected error)
    else s.dialFailed options p dialAttempt connected error = s := by
  unfold State.dialFailed
  have hrecorded : Quiet { s with dialAttemptsForPeer := s.dialAttemptsForPeer.set p (dialAttempt + 1 : ℕ) }
      (s.recordFailure p dialAttempt error) := { Quiet.refl _ with }
  cases error.logged with
  | error _ => rfl
  | ok text =>
    have hlogged : (Except.ok text : Except JsError String).toBool = true := rfl
    rw [if_pos hlogged]
    exact GoesOn.of_quiet hrecorded (goesOn_dialLoop _ p (dialAttempt + 1) connected)

theorem goesOn_dialPeer (s : State) (p : PeerId) : GoesOn p s (s.dialPeer options p) := by
  refine GoesOn.of_quiet ?_ (goesOn_dialLoop _ p 0 false)
  exact { Quiet.refl _ with }

/-- With an attempt allowed, `dialPeer` comes to dialing. -/
theorem dials_dialPeer (hattempts : 0 < options.maxDialAttemptsForPeer) (s : State) (p : PeerId) :
    Dials p s (s.dialPeer options p) := by
  refine ⟨{ s with currentActiveParallelDialCount := s.currentActiveParallelDialCount + 1 }, .dialing p 0 false,
    { Quiet.refl s with }, by simp [Task.isDialOf], ?_⟩
  rw [State.dialPeer, State.dialLoop, if_pos hattempts]

/-! ## Steps -/

/-- The peer that a step calls `dialPeer` for: its attempt was answered with true, and there is a free slot. -/
def dialed (options : Options) (s : State) : Event → Option PeerId
  | .answered peerId true => if s.currentActiveParallelDialCount < options.maxParallelDials then some peerId else none
  | _ => none

/-- What a step does beyond what is left alone, by its event. -/
def StepSpec (options : Options) (s s' : State) : Event → Prop
  | .bootstrapChecked p isPreferred =>
    ∃ s₀, Quiet s s₀ ∧ s' = s₀.spawn (.answered p (isPreferred && !s.dialAttemptsForPeer.has p))
  | .answered p shouldDial =>
    ∃ s₀, s.resume (.answered p shouldDial) = some s₀ ∧
      if dialed options s (.answered p shouldDial) = some p then s' = s₀.dialPeer options p else Quiet s₀ s'
  | .dialResolved p dialAttempt connected =>
    ∃ s₀, s.resume (.dialing p dialAttempt connected) = some s₀ ∧ s' = s₀.spawn (.tagging p dialAttempt)
  | .dialRejected p dialAttempt connected error =>
    ∃ s₀, s.resume (.dialing p dialAttempt connected) = some s₀ ∧
      if error.logged.toBool then
        GoesOn p { s₀ with dialAttemptsForPeer := s₀.dialAttemptsForPeer.set p (dialAttempt + 1 : ℕ) } s'
      else s' = s₀
  | .tagged p dialAttempt tagNames keepAlive =>
    ∃ s₀, s.resume (.tagging p dialAttempt) = some s₀ ∧
      let recorded := s₀.recordDial p tagNames
      match keepAlive with
      | .ok () => Quiet recorded s'
      | .error error =>
        if error.logged.toBool then
          GoesOn p { recorded with dialAttemptsForPeer := recorded.dialAttemptsForPeer.set p (dialAttempt + 1 : ℕ) } s'
        else s' = recorded
  | .deleted p outcome =>
    ∃ s₀, s.resume (.deleting p) = some s₀ ∧ s' = if outcome.toBool then s₀.spawn (.dnsDiscovery p) else s₀
  | .dnsDiscovered p _ => s.resume (.dnsDiscovery p) = some s'
  | .connectionOpened conn keepAlive =>
    let opened := { s with connections := s.connections ++ [conn] }
    s' = if (s.connectionsOf conn.remotePeer).isEmpty ∧ keepAlive.toBool then
      opened.spawn (.connectLookup conn.remotePeer) else opened
  | .connectionClosed conn =>
    let closed := { s with connections := s.connections.erase conn }
    conn ∈ s.connections ∧
      s' = if (closed.connectionsOf conn.remotePeer).isEmpty then closed.setP2PNetworkDisconnected else closed
  | .connectLookedUp p tagNames =>
    ∃ s₀, s.resume (.connectLookup p) = some s₀ ∧ s' = s₀.connectLookedUp options p tagNames
  | .dropped p => ∃ s₀, s.resume (.dropping p) = some s₀ ∧ s' = s₀.setP2PNetworkConnected
  | _ => Quiet s s'

/-- An attempt that was answered comes to dialing iff it is to and a slot is free. -/
theorem attemptDialAnswered_spec (s : State) (p : PeerId) (shouldDial : Bool) :
    if dialed options s (.answered p shouldDial) = some p then
      s.attemptDialAnswered options p shouldDial = s.dialPeer options p
    else Quiet s (s.attemptDialAnswered options p shouldDial) := by
  unfold State.attemptDialAnswered
  cases shouldDial with
  | false => exact Quiet.refl s
  | true =>
    by_cases hslot : s.currentActiveParallelDialCount < options.maxParallelDials
    · have hfull : ¬s.currentActiveParallelDialCount ≥ options.maxParallelDials := not_le.2 hslot
      simp only [dialed, hslot, if_true, hfull, if_false, Bool.not_true, Bool.false_eq_true]
    · have hfull : s.currentActiveParallelDialCount ≥ options.maxParallelDials := not_lt.1 hslot
      simp only [dialed, hslot, if_false, hfull, if_true, Bool.not_true, Bool.false_eq_true, reduceCtorEq]
      exact { Quiet.refl s with }

theorem step_spec {e : Event} (h : step options s e = some s') : StepSpec options s s' e := by
  cases e with
  | attemptDial peerId =>
    cases h
    exact Quiet.attemptDial s peerId
  | discovered peerId =>
    cases h
    exact Quiet.spawn s rfl
  | listed peers =>
    obtain ⟨s₀, hs₀, rfl⟩ := Option.map_eq_some_iff.1 h
    exact (Quiet.resume hs₀ rfl).trans (Quiet.foldl_attemptDial peers s₀)
  | dispatched peerId =>
    obtain ⟨s₀, hs₀, rfl⟩ := Option.map_eq_some_iff.1 h
    exact (Quiet.resume hs₀ rfl).trans (Quiet.attemptDial s₀ peerId)
  | shardLookedUp peerId lookup =>
    obtain ⟨s₀, hs₀, rfl⟩ := Option.map_eq_some_iff.1 h
    refine (Quiet.resume hs₀ rfl).trans ?_
    split
    · exact Quiet.spawn s₀ rfl
    · exact Quiet.spawn s₀ rfl
    · exact Quiet.refl s₀
  | shardWarned peerId lookup =>
    obtain ⟨s₀, hs₀, rfl⟩ := Option.map_eq_some_iff.1 h
    refine (Quiet.resume hs₀ rfl).trans ?_
    split
    · exact Quiet.spawn s₀ rfl
    · exact Quiet.refl s₀
  | bootstrapLookedUp peerId tagNames =>
    obtain ⟨s₀, hs₀, rfl⟩ := Option.map_eq_some_iff.1 h
    exact (Quiet.resume hs₀ rfl).trans (Quiet.spawn s₀ rfl)
  | bootstrapChecked peerId isPreferred =>
    obtain ⟨s₀, hs₀, rfl⟩ := Option.map_eq_some_iff.1 h
    have hquiet := Quiet.resume hs₀ rfl
    exact ⟨s₀, hquiet, by rw [hquiet.dialAttemptsForPeer]⟩
  | answered peerId shouldDial =>
    obtain ⟨s₀, hs₀, rfl⟩ := Option.map_eq_some_iff.1 h
    refine ⟨s₀, hs₀, ?_⟩
    obtain ⟨-, heq⟩ := resume_eq hs₀
    have hcount : s₀.currentActiveParallelDialCount = s.currentActiveParallelDialCount := by rw [heq]
    have hdialed : dialed options s (.answered peerId shouldDial) = dialed options s₀ (.answered peerId shouldDial) := by
      cases shouldDial <;> simp [dialed, hcount]
    rw [hdialed]
    exact attemptDialAnswered_spec s₀ peerId shouldDial
  | dialResolved peerId dialAttempt connected =>
    obtain ⟨s₀, hs₀, rfl⟩ := Option.map_eq_some_iff.1 h
    exact ⟨s₀, hs₀, rfl⟩
  | dialRejected peerId dialAttempt connected error =>
    obtain ⟨s₀, hs₀, rfl⟩ := Option.map_eq_some_iff.1 h
    exact ⟨s₀, hs₀, dialFailed_spec s₀ peerId dialAttempt connected error⟩
  | tagged peerId dialAttempt tagNames keepAlive =>
    obtain ⟨s₀, hs₀, rfl⟩ := Option.map_eq_some_iff.1 h
    refine ⟨s₀, hs₀, ?_⟩
    cases keepAlive with
    | ok => exact Quiet.finishDial _
    | error error => exact dialFailed_spec _ peerId dialAttempt true error
  | deleted peerId outcome =>
    obtain ⟨s₀, hs₀, rfl⟩ := Option.map_eq_some_iff.1 h
    exact ⟨s₀, hs₀, by cases outcome <;> rfl⟩
  | dnsDiscovered peerId outcome => exact h
  | connectionOpened conn keepAlive =>
    rw [step] at h
    split at h
    · cases h
    · simp only [StepSpec]
      cases hfirst : (s.connectionsOf conn.remotePeer).isEmpty with
      | false =>
        rw [hfirst] at h
        cases h
        simp
      | true =>
        rw [hfirst] at h
        cases keepAlive <;> cases h <;> simp [Except.toBool]
  | connectionClosed conn =>
    rw [step] at h
    split at h
    · rename_i hmem
      refine ⟨hmem, ?_⟩
      simp only at h ⊢
      split at h
      · rename_i hlast
        cases h
        rw [if_pos hlast]
      · rename_i hlast
        cases h
        rw [if_neg hlast]
    · cases h
  | connectLookedUp peerId tagNames =>
    obtain ⟨s₀, hs₀, rfl⟩ := Option.map_eq_some_iff.1 h
    exact ⟨s₀, hs₀, rfl⟩
  | dropped peerId =>
    obtain ⟨s₀, hs₀, rfl⟩ := Option.map_eq_some_iff.1 h
    exact ⟨s₀, hs₀, rfl⟩

end

end JsWaku.ConnectionManager
