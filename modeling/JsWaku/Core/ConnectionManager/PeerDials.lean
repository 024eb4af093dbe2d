import JsWaku.Core.ConnectionManager.Dials
import JsWaku.Core.ConnectionManager.Frame

/-!
# Dials of one peer

`shouldDialPeer` is to turn down a peer that is being dialed or has been dialed. The record that it looks at is written
when the outcome of a dial is known, and nothing looks at it between the check and the dial. So two attempts for a peer
that are both checked before the first dial ends both dial the peer (`dialed_twice`). Where no peer passes the check
while a dial of it is in progress or another attempt has passed it (`ChecksAlone`), a peer is dialed once
(`dialed_once`); a step that breaks this can be continued to a second dial (`second_dial`).
-/

namespace JsWaku.ConnectionManager

open Transition

/-- How many attempts for the peer have passed the last check of `shouldDialPeer` and not gone on. -/
def State.passes (s : State) (p : PeerId) : ℕ := s.tasks.count (.answered p true)

/-- How many `dialPeer` calls for the peer are in progress. -/
def State.dials (s : State) (p : PeerId) : ℕ := s.tasks.countP (Task.isDialOf p)

/-- A peer passes the last check of `shouldDialPeer`, which looks for a record of it, only while no other attempt that
has passed and no `dialPeer` call for it is in progress. -/
def ChecksAlone (s : State) : Event → Prop
  | .bootstrapChecked p isPreferred =>
    isPreferred ∧ s.dialAttemptsForPeer.has p = false → s.passes p = 0 ∧ s.dials p = 0
  | _ => True

instance (s : State) : ∀ e : Event, Decidable (ChecksAlone s e)
  | .bootstrapChecked _ _ => inferInstanceAs (Decidable (_ ∧ _ → _ ∧ _))
  | .attemptDial _ | .discovered _ | .listed _ | .dispatched _ | .shardLookedUp _ _ | .shardWarned _ _
  | .bootstrapLookedUp _ _ | .answered _ _ | .dialResolved _ _ _ | .dialRejected _ _ _ _ | .tagged _ _ _ _
  | .deleted _ _ | .dnsDiscovered _ _ | .connectionOpened _ _ | .connectionClosed _ | .connectLookedUp _ _
  | .dropped _ => inferInstanceAs (Decidable True)

/-- At most one call is about to dial the peer or dialing it, and what is about to has no record. -/
structure Alone (p : PeerId) (s : State) : Prop where
  once : s.passes p + s.dials p ≤ 1
  unrecorded : 0 < s.passes p → s.dialAttemptsForPeer.has p = false

/-! ## The calls for a peer -/

/-- From `s` to `s'` no call for the peer begins, and whether it has a record stays the same. -/
structure Fewer (p : PeerId) (s s' : State) : Prop where
  passes : s'.passes p ≤ s.passes p
  dials : s'.dials p ≤ s.dials p
  has : s'.dialAttemptsForPeer.has p = s.dialAttemptsForPeer.has p

section

variable {options : Options} {s s' s₀ : State} {p : PeerId} {t u : Task}

theorem passes_spawn (s : State) (t : Task) (p : PeerId) :
    (s.spawn t).passes p = s.passes p + if t = .answered p true then 1 else 0 := by
  unfold State.passes
  rw [List.count, countP_spawn]
  simp

theorem dials_spawn (s : State) (t : Task) (p : PeerId) :
    (s.spawn t).dials p = s.dials p + if t.isDialOf p then 1 else 0 :=
  countP_spawn s t _

theorem passes_resume (h : s.resume t = some s') (p : PeerId) :
    s.passes p = s'.passes p + if t = .answered p true then 1 else 0 := by
  unfold State.passes
  rw [List.count, countP_resume h]
  simp

theorem dials_resume (h : s.resume t = some s') (p : PeerId) :
    s.dials p = s'.dials p + if t.isDialOf p then 1 else 0 :=
  countP_resume h _

theorem passes_congr (h : s'.tasks = s.tasks) (p : PeerId) : s'.passes p = s.passes p := by
  rw [State.passes, State.passes, h]

theorem dials_congr (h : s'.tasks = s.tasks) (p : PeerId) : s'.dials p = s.dials p := by
  rw [State.dials, State.dials, h]

theorem dialAttemptsForPeer_resume (h : s.resume t = some s') : s'.dialAttemptsForPeer = s.dialAttemptsForPeer := by
  rw [(resume_eq h).2]

namespace Fewer

theorem trans {s₁ s₂ s₃ : State} (h : Fewer p s₁ s₂) (h' : Fewer p s₂ s₃) : Fewer p s₁ s₃ where
  passes := h'.passes.trans h.passes
  dials := h'.dials.trans h.dials
  has := h'.has.trans h.has

/-- With the same calls and the same record. -/
theorem same (htasks : s'.tasks = s.tasks) (hhas : s'.dialAttemptsForPeer = s.dialAttemptsForPeer) : Fewer p s s' where
  passes := (passes_congr htasks p).le
  dials := (dials_congr htasks p).le
  has := by rw [hhas]

theorem resume (h : s.resume t = some s') : Fewer p s s' where
  passes := by
    rw [passes_resume h]
    exact Nat.le_add_right _ _
  dials := by
    rw [dials_resume h]
    exact Nat.le_add_right _ _
  has := by rw [dialAttemptsForPeer_resume h]

/-- A call that is no call for the peer begins. -/
theorem spawn (s : State) (hpass : t ≠ .answered p true) (hdial : t.isDialOf p = false) : Fewer p s (s.spawn t) where
  passes := by simp [passes_spawn, hpass]
  dials := by simp [dials_spawn, hdial]
  has := rfl

/-- A dial goes on. -/
theorem replace (h : s.resume t = some s₀) (hpass : u ≠ .answered p true) (hdial : u.isDialOf p → t.isDialOf p) :
    Fewer p s (s₀.spawn u) where
  passes := by
    rw [passes_spawn, if_neg hpass, passes_resume h]
    exact Nat.le_add_right _ _
  dials := by
    rw [dials_spawn, dials_resume h]
    split
    · rename_i hu
      rw [if_pos (hdial hu)]
    · exact Nat.le_add_right _ _
  has := by
    show s₀.dialAttemptsForPeer.has p = _
    rw [dialAttemptsForPeer_resume h]

theorem alone (h : Fewer p s s') (hs : Alone p s) : Alone p s' where
  once := (Nat.add_le_add h.passes h.dials).trans hs.once
  unrecorded hp := by
    rw [h.has]
    exact hs.unrecorded (hp.trans_le h.passes)

end Fewer

theorem Quiet.passes (h : Quiet s s') (p : PeerId) : s'.passes p = s.passes p := by
  apply h.tasks (· == .answered p true)
  intro t ht
  rw [eq_of_beq ht]
  rfl

theorem Quiet.dials (h : Quiet s s') (p : PeerId) : s'.dials p = s.dials p :=
  h.tasks _ fun _ ht => Task.isLoud_of_isDialOf ht

theorem Quiet.fewer (h : Quiet s s') : Fewer p s s' :=
  ⟨(h.passes p).le, (h.dials p).le, by rw [h.dialAttemptsForPeer]⟩

/-- A dial of a peer is a dial of that peer only. -/
theorem Task.isDialOf_eq {q : PeerId} (ht : t.isDialOf q = true) (p : PeerId) : t.isDialOf p = decide (q = p) := by
  cases t with
  | dialing r _ _ | tagging r _ | deleting r | dnsDiscovery r =>
    obtain rfl : r = q := by simpa [Task.isDialOf] using ht
    rfl
  | _ => cases ht

/-- A dial is one more call for its peer, and no attempt. -/
theorem Dials.counts {q : PeerId} (h : Dials q s s') (p : PeerId) :
    s'.passes p = s.passes p ∧ s'.dials p = s.dials p + if q = p then 1 else 0 := by
  obtain ⟨s₁, t, hquiet, ht, rfl⟩ := h
  have hpass : t ≠ .answered p true := by
    rintro rfl
    cases ht
  rw [passes_spawn, if_neg hpass, dials_spawn, Task.isDialOf_eq ht, hquiet.passes, hquiet.dials]
  simp

theorem Dials.dialAttemptsForPeer {q : PeerId} (h : Dials q s s') : s'.dialAttemptsForPeer = s.dialAttemptsForPeer := by
  obtain ⟨s₁, t, hquiet, -, rfl⟩ := h
  exact hquiet.dialAttemptsForPeer

/-- A call that goes on is at most one more call for its peer, and no attempt. -/
theorem GoesOn.counts {q : PeerId} (h : GoesOn q s s') (p : PeerId) :
    s'.passes p = s.passes p ∧ s'.dials p ≤ s.dials p + if q = p then 1 else 0 := by
  rcases h with hdials | hquiet
  · obtain ⟨hpasses, hcount⟩ := hdials.counts p
    exact ⟨hpasses, hcount.le⟩
  · exact ⟨hquiet.passes p, by rw [hquiet.dials]; exact Nat.le_add_right _ _⟩

theorem GoesOn.dialAttemptsForPeer {q : PeerId} (h : GoesOn q s s') :
    s'.dialAttemptsForPeer = s.dialAttemptsForPeer := by
  rcases h with hdials | hquiet
  · exact hdials.dialAttemptsForPeer
  · exact hquiet.dialAttemptsForPeer

/-- A dial is taken up and its outcome recorded. A peer that is dialed has no attempt that passed. -/
theorem Alone.recorded {q : PeerId} (hs : Alone p s) (hmem : t ∈ s.tasks) (ht : t.isDialOf q = true)
    (hpasses : s'.passes p ≤ s.passes p) (hdials : s'.dials p ≤ s.dials p)
    (hhas : p ≠ q → s'.dialAttemptsForPeer.has p = s.dialAttemptsForPeer.has p) : Alone p s' where
  once := (Nat.add_le_add hpasses hdials).trans hs.once
  unrecorded hp := by
    have hne : p ≠ q := by
      rintro rfl
      have hdial : 0 < s.dials p := List.countP_pos_iff.2 ⟨t, hmem, ht⟩
      have honce := hs.once
      omega
    rw [hhas hne]
    exact hs.unrecorded (hp.trans_le hpasses)

section

variable {q : PeerId} {s₁ : State}

/-- The dial ends. -/
theorem Alone.ended (hs : Alone p s) (hs₀ : s.resume t = some s₀) (ht : t.isDialOf q = true) (h : Quiet s₁ s')
    (htasks : s₁.tasks = s₀.tasks) (hhas : p ≠ q → s₁.dialAttemptsForPeer.has p = s₀.dialAttemptsForPeer.has p) :
    Alone p s' := by
  refine hs.recorded (resume_eq hs₀).1 ht ?_ ?_ fun hne => ?_
  · rw [h.passes, passes_congr htasks, passes_resume hs₀]
    exact Nat.le_add_right _ _
  · rw [h.dials, dials_congr htasks, dials_resume hs₀]
    exact Nat.le_add_right _ _
  · rw [h.dialAttemptsForPeer, hhas hne, dialAttemptsForPeer_resume hs₀]

/-- The dial goes on. -/
theorem Alone.again (hs : Alone p s) (hs₀ : s.resume t = some s₀) (ht : t.isDialOf q = true) (h : GoesOn q s₁ s')
    (htasks : s₁.tasks = s₀.tasks) (hhas : p ≠ q → s₁.dialAttemptsForPeer.has p = s₀.dialAttemptsForPeer.has p) :
    Alone p s' := by
  obtain ⟨hpasses, hdials⟩ := h.counts p
  refine hs.recorded (resume_eq hs₀).1 ht ?_ ?_ fun hne => ?_
  · rw [hpasses, passes_congr htasks, passes_resume hs₀]
    exact Nat.le_add_right _ _
  · rw [dials_resume hs₀, Task.isDialOf_eq ht, ← dials_congr htasks]
    simpa using hdials
  · rw [h.dialAttemptsForPeer, hhas hne, dialAttemptsForPeer_resume hs₀]

end

/-! ## Steps -/

/-- Every step keeps a peer alone, if peers pass the check alone. -/
theorem alone_step {e : Event} (hs : Alone p s) (halone : ChecksAlone s e) (h : step options s e = some s') :
    Alone p s' := by
  have hspec := step_spec h
  cases e with
  | attemptDial q | discovered q | listed peers | dispatched q | shardLookedUp q lookup | shardWarned q lookup
  | bootstrapLookedUp q tagNames => exact (Quiet.fewer hspec).alone hs
  | bootstrapChecked q isPreferred =>
    obtain ⟨s₀, hquiet, rfl⟩ := hspec
    by_cases hpass : isPreferred = true ∧ s.dialAttemptsForPeer.has q = false
    · obtain ⟨hpasses, hdials⟩ := halone hpass
      obtain ⟨rfl, hhas⟩ := hpass
      rw [hhas]
      by_cases hq : q = p
      · subst hq
        refine ⟨?_, fun _ => ?_⟩
        · rw [passes_spawn, dials_spawn, hquiet.passes, hquiet.dials, hpasses, hdials]
          simp [Task.isDialOf]
        · rw [← hhas, ← hquiet.dialAttemptsForPeer]
          rfl
      · refine (hquiet.fewer.trans (Fewer.spawn s₀ ?_ rfl)).alone hs
        simp [hq]
    · have hno : (isPreferred && !s.dialAttemptsForPeer.has q) = false := by
        simpa using hpass
      rw [hno]
      exact (hquiet.trans (Quiet.spawn s₀ rfl)).fewer.alone hs
  | answered q shouldDial =>
    obtain ⟨s₀, hs₀, hspec⟩ := hspec
    split at hspec
    · rename_i hdialed
      have htrue : shouldDial = true := by
        cases shouldDial with
        | true => rfl
        | false => cases hdialed
      subst htrue
      have hgoes : GoesOn q s₀ s' := hspec ▸ goesOn_dialPeer s₀ q
      obtain ⟨hpasses, hdials⟩ := hgoes.counts p
      have hpasses₀ := passes_resume hs₀ p
      have hdials₀ := dials_resume hs₀ p
      by_cases hq : q = p
      · -- the attempt that passed is the one call for the peer, and becomes its dial
        subst hq
        simp only [Task.isDialOf, Bool.false_eq_true, if_true, if_false] at hpasses₀ hdials₀ hdials
        have honce := hs.once
        exact ⟨by omega, by omega⟩
      · rw [if_neg hq] at hdials
        refine Fewer.alone ⟨by omega, by omega, ?_⟩ hs
        rw [hgoes.dialAttemptsForPeer, dialAttemptsForPeer_resume hs₀]
    · exact ((Fewer.resume hs₀).trans hspec.fewer).alone hs
  | dialResolved q dialAttempt connected =>
    obtain ⟨s₀, hs₀, rfl⟩ := hspec
    exact (Fewer.replace hs₀ (by simp) (by simp [Task.isDialOf])).alone hs
  | dialRejected q dialAttempt connected error =>
    obtain ⟨s₀, hs₀, hspec⟩ := hspec
    have hdial : (Task.dialing q dialAttempt connected).isDialOf q = true := by simp [Task.isDialOf]
    split at hspec
    · exact hs.again hs₀ hdial hspec rfl fun hne => Map.has_set_ne _ _ hne
    · -- the log has thrown: the call ends without a record
      subst hspec
      exact (Fewer.resume hs₀).alone hs
  | tagged q dialAttempt tagNames keepAlive =>
    obtain ⟨s₀, hs₀, hspec⟩ := hspec
    have hdial : (Task.tagging q dialAttempt).isDialOf q = true := by simp [Task.isDialOf]
    cases keepAlive with
    | ok =>
      have hended : Quiet (s₀.recordDial q tagNames) s' := hspec
      exact hs.ended hs₀ hdial hended rfl fun hne => Map.has_set_ne _ _ hne
    | error error =>
      simp only at hspec
      split at hspec
      · apply hs.again hs₀ hdial hspec rfl
        intro hne
        exact (Map.has_set_ne _ _ hne).trans (Map.has_set_ne _ _ hne)
      · subst hspec
        exact hs.ended hs₀ hdial (Quiet.refl _) rfl fun hne => Map.has_set_ne _ _ hne
  | deleted q outcome =>
    obtain ⟨s₀, hs₀, rfl⟩ := hspec
    split
    · exact (Fewer.replace hs₀ (by simp) (by simp [Task.isDialOf])).alone hs
    · exact (Fewer.resume hs₀).alone hs
  | dnsDiscovered q outcome => exact (Fewer.resume hspec).alone hs
  | connectionOpened conn keepAlive =>
    obtain rfl := hspec
    refine Fewer.alone (s := s) ?_ hs
    have hopened : Fewer p s { s with connections := s.connections ++ [conn] } := Fewer.same rfl rfl
    split
    · exact hopened.trans (Fewer.spawn _ (by simp) rfl)
    · exact hopened
  | connectionClosed conn =>
    obtain ⟨-, rfl⟩ := hspec
    refine Fewer.alone (s := s) ?_ hs
    unfold State.setP2PNetworkDisconnected
    split
    · split <;> exact Fewer.same rfl rfl
    · exact Fewer.same rfl rfl
  | connectLookedUp q tagNames =>
    obtain ⟨s₀, hs₀, rfl⟩ := hspec
    refine ((Fewer.resume hs₀).trans ?_).alone hs
    unfold State.connectLookedUp
    split
    · exact Fewer.spawn s₀ (by simp) rfl
    · exact Fewer.same rfl rfl
  | dropped q =>
    obtain ⟨s₀, hs₀, rfl⟩ := hspec
    refine Fewer.alone (s := s) ?_ hs
    exact (Fewer.resume hs₀).trans (Fewer.same rfl rfl)

/-! ## Runs -/

theorem alone_init (connections : List Connection) (p : PeerId) : Alone p (init connections) where
  once := Nat.zero_le _
  unrecorded h := by simp [State.passes, init] at h

/-- **A peer is dialed once.** In every run whose steps let a peer pass the last check of `shouldDialPeer` only while no
other attempt that has passed and no `dialPeer` call for it is in progress: in every state reached at most one `dialPeer`
call for a peer is in progress, and no step dials a peer that has a record. -/
theorem dialed_once (options : Options) (connections : List Connection) (es : List Event) (s : State)
    (hrun : run (step options) (init connections) es = some s)
    (hmeets : Meets (step options) ChecksAlone (init connections) es) :
    (∀ p, s.dials p ≤ 1) ∧
      ∀ e s', step options s e = some s' → ∀ p ∈ dialed options s e, s.dials p = 0 ∧
        s.dialAttemptsForPeer.has p = false := by
  have halone : ∀ p, Alone p s := fun p =>
    run_invariant_of_meets (P := Alone p) (fun s e s' => alone_step) es (alone_init connections p) hmeets hrun
  constructor
  · intro p
    have honce := (halone p).once
    omega
  · intro e s' hstep p hp
    have hpass : 0 < s.passes p := by
      cases e with
      | answered q shouldDial =>
        cases shouldDial with
        | false => cases hp
        | true =>
          obtain ⟨s₀, hs₀, -⟩ := step_spec hstep
          simp only [dialed, Option.mem_def] at hp
          split at hp
          · cases hp
            exact List.count_pos_iff.2 (resume_eq hs₀).1
          · cases hp
      | _ => cases hp
    have honce := (halone p).once
    exact ⟨by omega, (halone p).unrecorded hpass⟩

/-! ## Steps that break the condition -/

/-- A second dial of the peer is in progress, or a dial of it starts in spite of a record. -/
def DialedTwice (options : Options) (p : PeerId) (s : State) : Prop :=
  2 ≤ s.dials p ∨ ∃ e s', step options s e = some s' ∧ dialed options s e = some p ∧ s.dialAttemptsForPeer.has p = true

/-- A dial that has come to tagging can end: it frees a slot and leaves a record. -/
theorem finish_tagging (options : Options) (p : PeerId) {q : PeerId} {dialAttempt : ℕ}
    (hmem : .tagging q dialAttempt ∈ s.tasks) :
    ∃ e s', step options s e = some s' ∧ abandonsDial e = false ∧
      s'.currentActiveParallelDialCount = s.currentActiveParallelDialCount - 1 ∧ s'.passes p = s.passes p ∧
      s.dials p = s'.dials p + (if q = p then 1 else 0) ∧ s'.dialAttemptsForPeer.has q = true := by
  have hs₀ := resume_of_mem hmem
  set s₀ : State := { s with tasks := s.tasks.erase (.tagging q dialAttempt) }
  have hquiet : Quiet (s₀.recordDial q []) ((s₀.recordDial q []).finishDial options) := Quiet.finishDial _
  have hcount : ((s₀.recordDial q []).finishDial options).ledger.count = s₀.currentActiveParallelDialCount - 1 := by
    rw [ledger_finishDial, Ledger.processed]
    split <;> rfl
  refine ⟨.tagged q dialAttempt [] (.ok ()), (s₀.recordDial q []).finishDial options, by simp [step, hs₀], rfl,
    hcount, ?_, ?_, ?_⟩
  · rw [hquiet.passes, passes_resume hs₀]
    rfl
  · rw [hquiet.dials, dials_resume hs₀]
    simp [State.dials, State.recordDial, Task.isDialOf]
  · rw [hquiet.dialAttemptsForPeer]
    exact Map.has_set_self _ _ _

/-- An active dial can end: it frees a slot and leaves a record. -/
theorem finish_active (options : Options) (p : PeerId) (hmem : t ∈ s.tasks) (hactive : t.isActiveDial = true) :
    ∃ q es s', run (step options) s es = some s' ∧ es.countP abandonsDial = 0 ∧
      s'.currentActiveParallelDialCount = s.currentActiveParallelDialCount - 1 ∧ s'.passes p = s.passes p ∧
      s.dials p = s'.dials p + (if q = p then 1 else 0) ∧ s'.dialAttemptsForPeer.has q = true := by
  cases t with
  | tagging q dialAttempt =>
    obtain ⟨e, s', hstep, hkeeps, h⟩ := finish_tagging options p hmem
    exact ⟨q, [e], s', run_cons.2 ⟨s', hstep, rfl⟩, by simp [hkeeps], h⟩
  | dialing q dialAttempt connected =>
    have hs₀ := resume_of_mem hmem
    set s₀ : State := { s with tasks := s.tasks.erase (.dialing q dialAttempt connected) }
    have hresolved : step options s (.dialResolved q dialAttempt connected) =
        some (s₀.spawn (.tagging q dialAttempt)) := by
      simp [step, hs₀]
    have hquiet : abandonsDial (.dialResolved q dialAttempt connected) = false := rfl
    have htagging : .tagging q dialAttempt ∈ (s₀.spawn (.tagging q dialAttempt)).tasks := by simp [State.spawn]
    obtain ⟨e, s', hstep, hkeeps, hcount, hpasses, hdials, hhas⟩ := finish_tagging options p htagging
    refine ⟨q, [.dialResolved q dialAttempt connected, e], s',
      run_cons.2 ⟨_, hresolved, run_cons.2 ⟨s', hstep, rfl⟩⟩, by simp [hkeeps, hquiet], hcount, ?_, ?_, hhas⟩
    · rw [hpasses, passes_spawn, passes_resume hs₀]
      simp
    · rw [← hdials, dials_spawn, dials_resume hs₀]
      simp [Task.isDialOf]
  | _ => cases hactive

/-- A slot can be got while fewer dials have been abandoned than may run in parallel: with none free, some dial is active
and can end. -/
theorem exists_slot {n : ℕ} (hn : n < options.maxParallelDials) (hacc : s.ledger.Accounted options.maxParallelDials n)
    (p : PeerId) : ∃ es s', run (step options) s es = some s' ∧ s'.ledger.Accounted options.maxParallelDials n ∧
      s'.currentActiveParallelDialCount < options.maxParallelDials ∧ s'.passes p = s.passes p ∧
      (0 < s.dials p → 0 < s'.dials p ∨ s'.dialAttemptsForPeer.has p = true) := by
  obtain ⟨hcount, hle⟩ := id hacc
  simp only [State.ledger] at hcount hle
  by_cases hslot : s.currentActiveParallelDialCount < options.maxParallelDials
  · exact ⟨[], s, rfl, hacc, hslot, rfl, Or.inl⟩
  · have hpos : 0 < s.tasks.countP Task.isActiveDial := by omega
    obtain ⟨t, hmem, hactive⟩ := List.countP_pos_iff.1 hpos
    obtain ⟨q, es, s', hrun, hkeeps, hcount', hpasses, hdials, hhas⟩ := finish_active options p hmem hactive
    have hacc' := run_accounted hacc hrun
    rw [hkeeps, Nat.add_zero] at hacc'
    refine ⟨es, s', hrun, hacc', by omega, hpasses, ?_⟩
    intro hdial
    by_cases hq : q = p
    · exact Or.inr (hq ▸ hhas)
    · rw [if_neg hq] at hdials
      exact Or.inl (by omega)

/-- With a slot and an attempt to make, an attempt that has passed dials the peer. -/
theorem exists_dial (hattempts : 0 < options.maxDialAttemptsForPeer)
    (hslot : s.currentActiveParallelDialCount < options.maxParallelDials) (hpass : 0 < s.passes p) :
    ∃ s', step options s (.answered p true) = some s' ∧ dialed options s (.answered p true) = some p ∧
      s.passes p = s'.passes p + 1 ∧ s'.dials p = s.dials p + 1 := by
  have hdialed : dialed options s (.answered p true) = some p := by simp [dialed, hslot]
  have hresume := resume_of_mem (List.count_pos_iff.1 hpass)
  obtain ⟨s', hstep⟩ : ∃ s', step options s (.answered p true) = some s' := by simp [step, hresume]
  obtain ⟨s₀, hs₀, hspec⟩ := step_spec hstep
  rw [if_pos hdialed] at hspec
  obtain ⟨hpasses, hdials⟩ := (dials_dialPeer hattempts s₀ p).counts p
  rw [← hspec] at hpasses hdials
  refine ⟨s', hstep, hdialed, ?_, ?_⟩
  · rw [passes_resume hs₀, if_pos rfl, hpasses]
  · rw [hdials, if_pos rfl, dials_resume hs₀]
    rfl

/-- While a peer is dialed, an attempt for it that has passed can come to a second dial. -/
theorem dialedTwice_of_passed (hattempts : 0 < options.maxDialAttemptsForPeer) {n : ℕ} (hn : n < options.maxParallelDials)
    (hacc : s.ledger.Accounted options.maxParallelDials n) (hpass : 0 < s.passes p) (hdial : 0 < s.dials p) :
    ∃ es s', run (step options) s es = some s' ∧ DialedTwice options p s' := by
  obtain ⟨es, s₁, hrun, -, hslot, hpasses, hthen⟩ := exists_slot hn hacc p
  obtain ⟨s₂, hstep, hdialed, -, hdials⟩ := exists_dial hattempts hslot (hpasses ▸ hpass)
  rcases hthen hdial with hdial₁ | hhas
  · refine ⟨es ++ [.answered p true], s₂, ?_, Or.inl (by omega)⟩
    rw [run_append, hrun]
    exact run_cons.2 ⟨s₂, hstep, rfl⟩
  · exact ⟨es, s₁, hrun, Or.inr ⟨_, s₂, hstep, hdialed, hhas⟩⟩

/-- Of two attempts that have passed, the first to get a slot dials, and the second can dial again. -/
theorem dialedTwice_of_two (hattempts : 0 < options.maxDialAttemptsForPeer) {n : ℕ} (hn : n < options.maxParallelDials)
    (hacc : s.ledger.Accounted options.maxParallelDials n) (hpass : 2 ≤ s.passes p) :
    ∃ es s', run (step options) s es = some s' ∧ DialedTwice options p s' := by
  obtain ⟨es, s₁, hrun, hacc₁, hslot, hpasses, -⟩ := exists_slot hn hacc p
  obtain ⟨s₂, hstep, -, hpasses', hdials⟩ := exists_dial (p := p) hattempts hslot (by omega)
  have hacc₂ : s₂.ledger.Accounted options.maxParallelDials n := step_accounted hacc₁ hstep
  obtain ⟨es', s', hrun', htwice⟩ := dialedTwice_of_passed (p := p) hattempts hn hacc₂ (by omega) (by omega)
  refine ⟨es ++ .answered p true :: es', s', ?_, htwice⟩
  rw [run_append, hrun]
  exact run_cons.2 ⟨s₂, hstep, hrun'⟩

/-- A step that breaks the condition can be continued to a second dial of the peer, while fewer dials have been abandoned
than may run in parallel. -/
theorem second_dial {connections : List Connection} {es : List Event} {e : Event}
    (hattempts : 0 < options.maxDialAttemptsForPeer) (habandoned : es.countP abandonsDial < options.maxParallelDials)
    (hrun : run (step options) (init connections) es = some s) (hstep : step options s e = some s')
    (hbroken : ¬ChecksAlone s e) :
    ∃ p es' s'', run (step options) s' es' = some s'' ∧ DialedTwice options p s'' := by
  have hacc := step_accounted (run_accounted (accounted_init options connections) hrun) hstep
  rw [Nat.zero_add] at hacc
  have hspec := step_spec hstep
  cases e with
  | bootstrapChecked p isPreferred =>
    simp only [ChecksAlone, Classical.not_imp, not_and_or] at hbroken
    obtain ⟨⟨rfl, hhas⟩, hbusy⟩ := hbroken
    obtain ⟨s₀, hquiet, rfl⟩ := hspec
    rw [hhas] at hacc ⊢
    have hpasses : (s₀.spawn (.answered p true)).passes p = s.passes p + 1 := by
      rw [passes_spawn, if_pos rfl, hquiet.passes]
    have hdials : (s₀.spawn (.answered p true)).dials p = s.dials p := by
      rw [dials_spawn, hquiet.dials]
      rfl
    rcases hbusy with hpassed | hdialing
    · have htwo : 2 ≤ (s₀.spawn (.answered p true)).passes p := by omega
      exact ⟨p, dialedTwice_of_two hattempts habandoned hacc htwo⟩
    · have hpass : 0 < (s₀.spawn (.answered p true)).passes p := by omega
      have hdial : 0 < (s₀.spawn (.answered p true)).dials p := by omega
      exact ⟨p, dialedTwice_of_passed hattempts habandoned hacc hpass hdial⟩
  | _ => exact absurd trivial hbroken

end

/-! ## Two runs -/

/-- Two parallel dials. -/
def twoDials : Options :=
  { pubsubTopics := [], maxDialAttemptsForPeer := 1, maxBootstrapPeersAllowed := 1, maxParallelDials := 2 }

/-- A peer is discovered twice; the second attempt checks for a record when the first dial has left one. -/
def checkedAlone : List Event :=
  [.discovered "a", .dispatched "a"] ++ passes "a" ++
    [.dialResolved "a" 0 false, .tagged "a" 0 [] (.ok ()), .discovered "a", .dispatched "a",
      .shardLookedUp "a" (.ok none), .bootstrapLookedUp "a" [], .bootstrapChecked "a" true, .answered "a" false]

/-- A peer is discovered twice, and both attempts pass the check before either dials. -/
def checkedTwice : List Event :=
  [.discovered "a", .discovered "a", .dispatched "a", .dispatched "a", .shardLookedUp "a" (.ok none),
    .shardLookedUp "a" (.ok none), .bootstrapLookedUp "a" [], .bootstrapLookedUp "a" [], .bootstrapChecked "a" true,
    .bootstrapChecked "a" true, .answered "a" true, .answered "a" true]

/-- The second attempt of a peer that was dialed ends without a dial. -/
theorem dialed_once_checkedAlone :
    ∃ s, run (step twoDials) (init []) checkedAlone = some s ∧ s.dialAttemptsForPeer.has "a" = true ∧
      ∀ p, s.dials p ≤ 1 := by
  have hrun : (run (step twoDials) (init []) checkedAlone).isSome = true := by decide
  obtain ⟨s, hs⟩ := Option.isSome_iff_exists.1 hrun
  have hrecord : ∀ s ∈ run (step twoDials) (init []) checkedAlone, s.dialAttemptsForPeer.has "a" = true := by decide
  exact ⟨s, hs, hrecord s hs, (dialed_once twoDials [] checkedAlone s hs (by decide)).1⟩

/-- Two dials of a peer are in progress at once. -/
theorem dialed_twice :
    ¬∀ (es : List Event) (s : State), run (step twoDials) (init []) es = some s →
      (∀ p, s.dials p ≤ 1) ∧ ∀ e s', step twoDials s e = some s' → ∀ p ∈ dialed twoDials s e, s.dials p = 0 ∧
        s.dialAttemptsForPeer.has p = false := by
  intro h
  have hrun : (run (step twoDials) (init []) checkedTwice).isSome = true := by decide
  obtain ⟨s, hs⟩ := Option.isSome_iff_exists.1 hrun
  have htwo : ∀ s ∈ run (step twoDials) (init []) checkedTwice, s.dials "a" = 2 := by decide
  have hle := (h checkedTwice s hs).1 "a"
  rw [htwo s hs] at hle
  cases hle with
  | step hle => cases hle

end JsWaku.ConnectionManager
