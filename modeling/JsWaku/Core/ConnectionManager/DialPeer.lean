import JsWaku.Core.ConnectionManager.Frame

/-!
# Forgetting an undialable peer

One whole call of `dialPeer`, given what libp2p answers it: the attempts, the clean-up after the last one, and the DNS
discovery that follows. Where every `libp2p.dial` rejects, no connection is ever made, and `peerId`, which is assigned
from the connection, stays undefined. The clean-up deletes the peer from the peer store only if `peerId` is set, so what
was to forget an undialable peer deletes nothing (`forgotten_iff`). The calls between its awaits are those of the event
system (`run_dialPeer`).
-/

namespace JsWaku.ConnectionManager

open Transition

/-! ## The call -/

/-- What an attempt comes to: `libp2p.dial` rejects; or it resolves with a connection, the tags of whose peer are looked
up, and `keepAliveManager.start` returns or throws. -/
inductive DialOutcome
  | rejected (error : JsError)
  | resolved (tagNames : List String) (keepAlive : Except JsError Unit)

/-- What the calls of libp2p come to in one call of `dialPeer`, and what errors look like. Dialing and finding peers may
change the peer store: the peers in it afterwards are given. -/
structure Libp2p where
  /-- The attempts, from 0. -/
  dial : ℕ → DialOutcome
  /-- The peers in the store once the attempt has settled. -/
  dialed : ℕ → List PeerId
  /-- `peerStore.delete`. -/
  delete : Except JsError Unit
  /-- `peerStore.all`. -/
  all : Except JsError Unit
  /-- `dnsDiscovery.findPeers`, where there is a DNS discovery, and the peers in the store after it. -/
  findPeers : Option (Except JsError Unit × List PeerId)
  /-- What the code reads of an error. -/
  caught : JsError → Caught
  /-- `${error}`. -/
  toString : JsError → String

/-- The variables of a call of `dialPeer`, the manager, and the peers in the peer store. -/
structure DialCall where
  manager : State
  peerStore : List PeerId
  dialAttempt : ℕ
  /-- Whether `connection` and `peerId` are set. -/
  connected : Bool

section

variable (options : Options) (libp2p : Libp2p) (peerIdStr : PeerId)

namespace DialCall

/-- The call at its loop. -/
def start (s : State) (peerStore : List PeerId) : DialCall :=
  { manager := { s with currentActiveParallelDialCount := s.currentActiveParallelDialCount + 1 },
    peerStore, dialAttempt := 0, connected := false }

/-- The `try` of the loop. -/
def attempt (d : DialCall) : DialCall × Except JsError Unit :=
  match libp2p.dial d.dialAttempt with
  | .rejected error => ({ d with peerStore := libp2p.dialed d.dialAttempt }, .error error)
  | .resolved tagNames keepAlive =>
    ({ d with manager := d.manager.recordDial peerIdStr tagNames, peerStore := libp2p.dialed d.dialAttempt,
              connected := true }, keepAlive)

/-- The error and the attempt recorded. -/
def recorded (d : DialCall) (error : JsError) : DialCall :=
  { d with manager := d.manager.recordFailure peerIdStr d.dialAttempt (libp2p.caught error)
           dialAttempt := d.dialAttempt + 1 }

/-- The `catch` of the loop, which logs the error first. -/
def failed (d : DialCall) (error : JsError) : Except JsError DialCall :=
  (libp2p.caught error).logged.map fun _ => d.recorded libp2p peerIdStr error

/-- The loop, with the number of attempts left. -/
def dialAttempts : ℕ → DialCall → DialCall × Except JsError Unit
  | 0, d => (d, .ok ())
  | n + 1, d =>
    match d.attempt libp2p peerIdStr with
    | (d, .ok ()) => (d, .ok ())
    | (d, .error error) =>
      match d.failed libp2p peerIdStr error with
      | .ok d => dialAttempts n d
      | .error error => (d, .error error)

/-- `attemptDnsDiscovery`. -/
def attemptDnsDiscovery (d : DialCall) : DialCall × Except JsError Unit :=
  if d.manager.connections.length > 0 then (d, .ok ())
  else
    match libp2p.all with
    | .error error => (d, .error error)
    | .ok () =>
      if d.peerStore.length > 0 then (d, .ok ())
      else
        match libp2p.findPeers with
        | none => (d, .ok ())
        | some (outcome, peerStore) => ({ d with peerStore }, outcome)

/-- The `try` of the clean-up. -/
def deleteUndialable (d : DialCall) : DialCall × Except JsError Unit :=
  match (d.manager.dialErrorsForPeer.get peerIdStr).map Caught.errorMessage with
  | some (.error error) => (d, .error error)
  | some (.ok _) | none =>
    let d := { d with manager := { d.manager with
                 dialErrorsForPeer := d.manager.dialErrorsForPeer.delete peerIdStr } }
    if d.connected then
      match libp2p.delete with
      | .error error => (d, .error error)
      | .ok () => { d with peerStore := d.peerStore.filter (· ≠ peerIdStr) }.attemptDnsDiscovery libp2p
    else d.attemptDnsDiscovery libp2p

/-- The end of the call. -/
def returnConnection (d : DialCall) : DialCall × Except JsError Unit :=
  if d.connected then (d, .ok ()) else (d, .error (.error ("Failed to dial peer " ++ peerIdStr)))

end DialCall

/-- `dialPeer` of a peer id. -/
def dialPeer (s : State) (peerStore : List PeerId) : DialCall × Except JsError Unit :=
  match (DialCall.start s peerStore).dialAttempts libp2p peerIdStr options.maxDialAttemptsForPeer with
  | (d, .error error) => (d, .error error)
  | (d, .ok ()) =>
    let d := { d with manager := d.manager.finishDial options }
    if d.dialAttempt = options.maxDialAttemptsForPeer then
      match d.deleteUndialable libp2p peerIdStr with
      | (d, .error error) =>
        (d, .error (.error ("Error deleting undialable peer " ++ peerIdStr ++ " from peer store - " ++
          libp2p.toString error)))
      | (d, .ok ()) => d.returnConnection peerIdStr
    else d.returnConnection peerIdStr

end

/-! ## Calls in which every dial rejects -/

/-- The call has rejected, the peer is not in the store and has no dial error, and the count is what it was. -/
structure Forgotten (peerIdStr : PeerId) (s : State) (result : DialCall × Except JsError Unit) : Prop where
  rejected : ∃ error, result.2 = .error error
  peerStore : peerIdStr ∉ result.1.peerStore
  dialErrorsForPeer : result.1.manager.dialErrorsForPeer.has peerIdStr = false
  count : result.1.manager.currentActiveParallelDialCount = s.currentActiveParallelDialCount

/-- After `k` attempts that have rejected with these errors, in a call that began in `s`. -/
structure Rejected (libp2p : Libp2p) (errors : ℕ → JsError) (peerIdStr : PeerId) (s : State) (k : ℕ) (d : DialCall) :
    Prop where
  dialAttempt : d.dialAttempt = k
  connected : d.connected = false
  connections : d.manager.connections = s.connections
  tasks : d.manager.tasks = s.tasks
  count : d.manager.currentActiveParallelDialCount = s.currentActiveParallelDialCount + 1
  get : ∀ j, k = j + 1 → d.manager.dialErrorsForPeer.get peerIdStr = some (libp2p.caught (errors j))
  peerStore : ∀ j, k = j + 1 → d.peerStore = libp2p.dialed j

section

variable {options : Options} {libp2p : Libp2p} {errors : ℕ → JsError} {p : PeerId} {s : State} {d d' : DialCall} {k : ℕ}

theorem Rejected.attempt (hd : Rejected libp2p errors p s k d) (hk : libp2p.dial k = .rejected (errors k)) :
    d.attempt libp2p p = ({ d with peerStore := libp2p.dialed k }, .error (errors k)) := by
  rw [DialCall.attempt, hd.dialAttempt, hk]

/-- Before the first attempt. -/
theorem rejected_start (libp2p : Libp2p) (errors : ℕ → JsError) (p : PeerId) (s : State) (peerStore : List PeerId) :
    Rejected libp2p errors p s 0 (DialCall.start s peerStore) :=
  ⟨rfl, rfl, rfl, rfl, rfl, nofun, nofun⟩

/-- One more attempt, whose error is recorded. -/
theorem Rejected.recorded (hd : Rejected libp2p errors p s k d) :
    Rejected libp2p errors p s (k + 1) ({ d with peerStore := libp2p.dialed k }.recorded libp2p p (errors k)) where
  dialAttempt := congrArg (· + 1) hd.dialAttempt
  connected := hd.connected
  connections := hd.connections
  tasks := hd.tasks
  count := hd.count
  get j hj := by
    cases hj
    exact Map.get_set_self _ _ _
  peerStore j hj := by
    cases hj
    rfl

/-- An attempt that rejects is followed by the next, unless the log of its error throws. -/
theorem Rejected.dialAttempts_succ (hd : Rejected libp2p errors p s k d) (hk : libp2p.dial k = .rejected (errors k))
    (n : ℕ) : d.dialAttempts libp2p p (n + 1) =
      match (libp2p.caught (errors k)).logged with
      | .ok _ => ({ d with peerStore := libp2p.dialed k }.recorded libp2p p (errors k)).dialAttempts libp2p p n
      | .error error => ({ d with peerStore := libp2p.dialed k }, .error error) := by
  simp only [DialCall.dialAttempts, hd.attempt hk, DialCall.failed]
  cases (libp2p.caught (errors k)).logged <;> rfl

/-- The loop makes all attempts, or the log of one of their errors throws. -/
theorem Rejected.dialAttempts (n : ℕ) (hd : Rejected libp2p errors p s k d)
    (hdial : ∀ j < k + n, libp2p.dial j = .rejected (errors j)) :
    (∃ d', d.dialAttempts libp2p p n = (d', .ok ()) ∧ Rejected libp2p errors p s (k + n) d' ∧
        ∀ j, k ≤ j → j < k + n → (libp2p.caught (errors j)).logged.toBool) ∨
      ∃ d' error, d.dialAttempts libp2p p n = (d', .error error) ∧
        d'.manager.currentActiveParallelDialCount = s.currentActiveParallelDialCount + 1 ∧
        ∃ j < k + n, (libp2p.caught (errors j)).logged.toBool = false := by
  induction n generalizing d k with
  | zero => exact Or.inl ⟨d, rfl, hd, fun j hle hlt => absurd hlt (by omega)⟩
  | succ n ih =>
    rw [hd.dialAttempts_succ (hdial k (by omega)) n]
    cases hlog : (libp2p.caught (errors k)).logged with
    | error error =>
      refine Or.inr ⟨_, error, rfl, hd.count, k, by omega, ?_⟩
      rw [hlog]
      rfl
    | ok text =>
      have hk : k + 1 + n = k + (n + 1) := by omega
      rw [← hk]
      rcases ih hd.recorded (by rwa [hk]) with ⟨d', hrun, hd', hlogs⟩ | hthrows
      · refine Or.inl ⟨d', hrun, hd', fun j hle hlt => ?_⟩
        rcases Nat.eq_or_lt_of_le hle with rfl | hlt'
        · rw [hlog]
          rfl
        · exact hlogs j hlt' hlt
      · exact Or.inr hthrows

/-! ## The clean-up -/

/-- The queue is processed without a change to the dial errors and the count. -/
theorem processDialQueue_frame (s : State) :
    (s.processDialQueue options).dialErrorsForPeer = s.dialErrorsForPeer ∧
      (s.processDialQueue options).currentActiveParallelDialCount = s.currentActiveParallelDialCount := by
  unfold State.processDialQueue
  split
  · split
    · unfold State.attemptDial
      split <;> exact ⟨rfl, rfl⟩
    · exact ⟨rfl, rfl⟩
  · exact ⟨rfl, rfl⟩

/-- The DNS discovery leaves the manager alone, and runs without a connection and with an empty store. -/
theorem attemptDnsDiscovery_spec (libp2p : Libp2p) (d : DialCall) (p : PeerId) :
    (d.attemptDnsDiscovery libp2p).1.manager = d.manager ∧
      (d.attemptDnsDiscovery libp2p).1.connected = d.connected ∧
      (p ∉ (d.attemptDnsDiscovery libp2p).1.peerStore ↔
        p ∉ d.peerStore ∧ (d.manager.connections = [] → d.peerStore = [] → libp2p.all.toBool →
          ∀ found ∈ libp2p.findPeers, p ∉ found.2)) := by
  unfold DialCall.attemptDnsDiscovery
  cases hconnections : d.manager.connections with
  | cons conn rest => simp
  | nil =>
    cases hall : libp2p.all with
    | error error => simp [Except.toBool]
    | ok _ =>
      cases hstore : d.peerStore with
      | cons q rest => simp [hstore]
      | nil =>
        cases hfind : libp2p.findPeers with
        | none => simp [hstore]
        | some found => simp [Except.toBool]

/-- Whether the errors can be logged and the last one described, and the peer is not in the store anyway: neither when
the last attempt has rejected, nor because the DNS discovery, which runs without a connection and with an empty store,
has found it. -/
structure AlreadyForgotten (libp2p : Libp2p) (errors : ℕ → JsError) (max : ℕ) (p : PeerId) (s : State) : Prop where
  logged : ∀ k < max, (libp2p.caught (errors k)).logged.toBool
  described : (libp2p.caught (errors (max - 1))).errorMessage.toBool
  absent : p ∉ libp2p.dialed (max - 1)
  notFound : s.connections = [] → libp2p.dialed (max - 1) = [] → libp2p.all.toBool →
    ∀ found ∈ libp2p.findPeers, p ∉ found.2

/-- The call at its clean-up, the error of the last attempt deleted. -/
def DialCall.cleaned (options : Options) (p : PeerId) (d : DialCall) : DialCall :=
  { d with manager := { d.manager.finishDial options with
      dialErrorsForPeer := (d.manager.finishDial options).dialErrorsForPeer.delete p } }

/-- After the attempts the call rejects: with the dial error still there, if that cannot be described, and else as the
DNS discovery leaves it. -/
theorem dialPeer_of_rejected {max : ℕ} (hmax : options.maxDialAttemptsForPeer = max + 1) {peerStore : List PeerId}
    (hrun : (DialCall.start s peerStore).dialAttempts libp2p p (max + 1) = (d, .ok ()))
    (hd : Rejected libp2p errors p s (max + 1) d) :
    (∃ error, (dialPeer options libp2p p s peerStore).2 = .error error) ∧
      if (libp2p.caught (errors max)).errorMessage.toBool then
        (dialPeer options libp2p p s peerStore).1 = ((d.cleaned options p).attemptDnsDiscovery libp2p).1
      else (dialPeer options libp2p p s peerStore).1 = { d with manager := d.manager.finishDial options } := by
  have hget : (d.manager.finishDial options).dialErrorsForPeer.get p = some (libp2p.caught (errors max)) := by
    rw [State.finishDial, (processDialQueue_frame _).1]
    exact hd.get max rfl
  cases hdescribed : (libp2p.caught (errors max)).errorMessage with
  | error error =>
    simp [dialPeer, hmax, hrun, if_pos hd.dialAttempt, DialCall.deleteUndialable, hget, hdescribed, Except.toBool]
  | ok message =>
    have hdelete : { d with manager := d.manager.finishDial options }.deleteUndialable libp2p p =
        (d.cleaned options p).attemptDnsDiscovery libp2p := by
      simp [DialCall.deleteUndialable, hget, hdescribed, hd.connected, DialCall.cleaned]
    have hconnected := (attemptDnsDiscovery_spec libp2p (d.cleaned options p) p).2.1
    rcases hdns : (d.cleaned options p).attemptDnsDiscovery libp2p with ⟨d', outcome⟩
    rw [hdns] at hdelete hconnected
    cases outcome with
    | error error => simp [dialPeer, hmax, hrun, if_pos hd.dialAttempt, hdelete, Except.toBool]
    | ok _ =>
      have hreturn : d'.returnConnection p = (d', .error (.error ("Failed to dial peer " ++ p))) := by
        rw [DialCall.returnConnection, hconnected]
        simp [DialCall.cleaned, hd.connected]
      simp [dialPeer, hmax, hrun, if_pos hd.dialAttempt, hdelete, hreturn, Except.toBool]

/-! ## The call as a run -/

/-- `n` attempts, from the `k`-th on, that reject. -/
def rejections (errors : ℕ → Caught) (p : PeerId) (k n : ℕ) : List Event :=
  (List.range' k n).map fun j => .dialRejected p j false (errors j)

/-- A call that has just been suspended is taken up again. -/
theorem resume_spawn {t : Task} (ht : t ∉ s.tasks) : (s.spawn t).resume t = some s := by
  have hmem : t ∈ (s.spawn t).tasks := List.mem_append_right _ List.mem_cons_self
  rw [resume_of_mem hmem]
  simp [State.spawn, List.erase_append_right _ ht]

/-- The loop as a run of the event system, where no other call dials the peer. -/
theorem Rejected.run_dialLoop (n : ℕ) (hd : Rejected libp2p errors p s k d)
    (hdial : ∀ j < k + n, libp2p.dial j = .rejected (errors j)) (hmax : k + n = options.maxDialAttemptsForPeer)
    (halone : ∀ t ∈ s.tasks, t.isDialOf p = false) (hrun : d.dialAttempts libp2p p n = (d', .ok ())) :
    run (step options) (d.manager.dialLoop options p k false) (rejections (fun j => libp2p.caught (errors j)) p k n) =
      some (d'.manager.dialLoop options p (k + n) false) := by
  induction n generalizing d k with
  | zero =>
    cases hrun
    rfl
  | succ n ih =>
    rw [hd.dialAttempts_succ (hdial k (by omega)) n] at hrun
    cases hlog : (libp2p.caught (errors k)).logged with
    | error error =>
      rw [hlog] at hrun
      cases hrun
    | ok text =>
      rw [hlog] at hrun
      have hk : k + 1 + n = k + (n + 1) := by omega
      have hthen := ih hd.recorded (by rwa [hk]) (by rwa [hk]) hrun
      rw [← hk, ← hthen]
      have hloop : d.manager.dialLoop options p k false = d.manager.spawn (.dialing p k false) := by
        rw [State.dialLoop, if_pos (by omega)]
      have hfree : Task.dialing p k false ∉ d.manager.tasks := by
        intro hmem
        rw [hd.tasks] at hmem
        simpa [Task.isDialOf] using halone _ hmem
      have hstep : step options (d.manager.dialLoop options p k false) (.dialRejected p k false (libp2p.caught (errors k))) =
          some (({ d with peerStore := libp2p.dialed k }.recorded libp2p p (errors k)).manager.dialLoop options p (k + 1)
            false) := by
        rw [hloop, step, resume_spawn hfree]
        simp [State.dialFailed, hlog, DialCall.recorded, hd.dialAttempt]
      rw [rejections, List.range'_succ, List.map_cons, run, hstep]
      rfl

/-- The end of the call as a run. -/
theorem Rejected.run_forget {max : ℕ} (hd : Rejected libp2p errors p s (max + 1) d)
    (hmax : options.maxDialAttemptsForPeer = max + 1) (hdescribed : (libp2p.caught (errors max)).errorMessage.toBool)
    (halone : ∀ t ∈ s.tasks, t.isDialOf p = false) (outcome : Except JsError Unit) :
    run (step options) (d.manager.dialLoop options p (max + 1) false) [.dnsDiscovered p outcome] =
      some (d.cleaned options p).manager := by
  have hend : d.manager.dialLoop options p (max + 1) false =
      (d.cleaned options p).manager.spawn (.dnsDiscovery p) := by
    obtain ⟨message, hmessage⟩ := exists_of_toBool hdescribed
    have hget : (d.manager.finishDial options).dialErrorsForPeer.get p = some (libp2p.caught (errors max)) := by
      rw [State.finishDial, (processDialQueue_frame _).1]
      exact hd.get max rfl
    rw [State.dialLoop, if_neg (by omega), State.forget, hget, Option.map_some, hmessage]
    rfl
  have hfree : Task.dnsDiscovery p ∉ (d.cleaned options p).manager.tasks := by
    intro hmem
    have hmem' := ((Quiet.finishDial d.manager).mem_tasks rfl).1 hmem
    rw [hd.tasks] at hmem'
    simpa [Task.isDialOf] using halone _ hmem'
  rw [hend, run, step, resume_spawn hfree]
  rfl

/-- **A call whose dials reject runs as in the event system.** While no other call dials the peer, the rejections of all
attempts and the end of the DNS discovery leave the manager as the call does. -/
theorem run_dialPeer (peerStore : List PeerId) (outcome : Except JsError Unit)
    (hmax : 1 ≤ options.maxDialAttemptsForPeer)
    (hdial : ∀ k < options.maxDialAttemptsForPeer, libp2p.dial k = .rejected (errors k))
    (hlogged : ∀ k < options.maxDialAttemptsForPeer, (libp2p.caught (errors k)).logged.toBool)
    (hdescribed : (libp2p.caught (errors (options.maxDialAttemptsForPeer - 1))).errorMessage.toBool)
    (halone : ∀ t ∈ s.tasks, t.isDialOf p = false) :
    run (step options) (s.dialPeer options p)
        (rejections (fun j => libp2p.caught (errors j)) p 0 options.maxDialAttemptsForPeer ++
          [.dnsDiscovered p outcome]) =
      some (dialPeer options libp2p p s peerStore).1.manager := by
  obtain ⟨max, hmax⟩ : ∃ max, options.maxDialAttemptsForPeer = max + 1 := ⟨_, (Nat.sub_add_cancel hmax).symm⟩
  rw [hmax] at hdial hlogged hdescribed ⊢
  rw [Nat.add_sub_cancel] at hdescribed
  rw [← Nat.zero_add (max + 1)] at hdial
  have hstart := rejected_start libp2p errors p s peerStore
  rcases hstart.dialAttempts (max + 1) hdial with ⟨d, hrun, hd, -⟩ | ⟨d, error, -, -, j, hj, hlog⟩
  · have hleft : 0 + (max + 1) = options.maxDialAttemptsForPeer := by omega
    have hloop := hstart.run_dialLoop (max + 1) hdial hleft halone hrun
    rw [Nat.zero_add] at hd hloop
    obtain ⟨-, hthen⟩ := dialPeer_of_rejected hmax hrun hd
    have hcalled : run (step options) (s.dialPeer options p) 
        (rejections (fun j => libp2p.caught (errors j)) p 0 (max + 1)) = some (d.manager.dialLoop options p (max + 1) false) := hloop
    rw [if_pos hdescribed] at hthen
    rw [run_append, hcalled, Option.bind_some, hd.run_forget hmax hdescribed halone, hthen,
      (attemptDnsDiscovery_spec libp2p _ p).1]
  · rw [Nat.zero_add] at hj
    rw [hlogged j hj] at hlog
    cases hlog

/-! ## Forgetting -/

/-- A call that has made all its attempts. -/
theorem forgotten_iff_of_rejected {max : ℕ} (hmax : options.maxDialAttemptsForPeer = max + 1) {peerStore : List PeerId}
    (hrun : (DialCall.start s peerStore).dialAttempts libp2p p (max + 1) = (d, .ok ()))
    (hd : Rejected libp2p errors p s (max + 1) d) :
    Forgotten p s (dialPeer options libp2p p s peerStore) ↔
      (libp2p.caught (errors max)).errorMessage.toBool ∧ p ∉ libp2p.dialed max ∧
        (s.connections = [] → libp2p.dialed max = [] → libp2p.all.toBool → ∀ found ∈ libp2p.findPeers, p ∉ found.2) := by
  obtain ⟨hrejected, hthen⟩ := dialPeer_of_rejected hmax hrun hd
  split at hthen
  · rename_i hdescribed
    obtain ⟨hmanager, -, hstore⟩ := attemptDnsDiscovery_spec libp2p (d.cleaned options p) p
    have hconnections : (d.cleaned options p).manager.connections = s.connections :=
      (Quiet.finishDial d.manager).connections.trans hd.connections
    have hdialed : (d.cleaned options p).peerStore = libp2p.dialed max := hd.peerStore max rfl
    rw [hconnections, hdialed, ← hthen] at hstore
    refine ⟨fun h => ⟨hdescribed, hstore.1 h.peerStore⟩, fun h => ⟨hrejected, hstore.2 h.2, ?_, ?_⟩⟩
    · rw [hthen, hmanager]
      simp [DialCall.cleaned, Map.has]
    · rw [hthen, hmanager]
      show (d.manager.finishDial options).currentActiveParallelDialCount = s.currentActiveParallelDialCount
      rw [State.finishDial, (processDialQueue_frame _).2]
      simp [hd.count]
  · rename_i hdescribed
    -- the dial error is still there
    refine iff_of_false (fun h => ?_) fun h => hdescribed h.1
    have hgone := h.dialErrorsForPeer
    rw [hthen] at hgone
    simp [Map.has, State.finishDial, (processDialQueue_frame _).1, hd.get max rfl] at hgone

/-- **An undialable peer is forgotten exactly if the peer store does not have it anyway.** Let every attempt of a
`dialPeer` call reject. The call ends rejected, with the peer out of the store, its dial error gone and the dial count
what it was, if and only if the log of no error throws, the last error can be described, and the peer is not in the store
once the last attempt has rejected, nor found by the DNS discovery where that runs. -/
theorem forgotten_iff (options : Options) (libp2p : Libp2p) (errors : ℕ → JsError) (p : PeerId) (s : State)
    (peerStore : List PeerId) (hmax : 1 ≤ options.maxDialAttemptsForPeer)
    (hdial : ∀ k < options.maxDialAttemptsForPeer, libp2p.dial k = .rejected (errors k)) :
    Forgotten p s (dialPeer options libp2p p s peerStore) ↔
      AlreadyForgotten libp2p errors options.maxDialAttemptsForPeer p s := by
  obtain ⟨max, hmax⟩ : ∃ max, options.maxDialAttemptsForPeer = max + 1 := ⟨_, (Nat.sub_add_cancel hmax).symm⟩
  rw [hmax] at hdial ⊢
  rw [← Nat.zero_add (max + 1)] at hdial
  rcases (rejected_start libp2p errors p s peerStore).dialAttempts (max + 1) hdial with
    ⟨d, hrun, hd, hlogs⟩ | ⟨d, error, hrun, hcount, j, hj, hlog⟩
  · rw [Nat.zero_add] at hd hlogs
    rw [forgotten_iff_of_rejected hmax hrun hd]
    constructor
    · rintro ⟨hdescribed, habsent, hfound⟩
      exact ⟨fun k hk => hlogs k (Nat.zero_le k) hk, hdescribed, habsent, hfound⟩
    · rintro ⟨-, hdescribed, habsent, hfound⟩
      exact ⟨hdescribed, habsent, hfound⟩
  · refine iff_of_false (fun h => ?_) fun h => ?_
    · -- the call has thrown with the count increased
      have hback := h.count
      have hresult : dialPeer options libp2p p s peerStore = (d, .error error) := by
        rw [dialPeer, hmax, hrun]
      rw [hresult] at hback
      simp only [hcount] at hback
      omega
    · rw [Nat.zero_add] at hj
      rw [h.logged j hj] at hlog
      cases hlog

end

/-- One attempt for each peer. -/
def oneAttempt : Options :=
  { pubsubTopics := [], maxDialAttemptsForPeer := 1, maxBootstrapPeersAllowed := 1, maxParallelDials := 3 }

/-- Every dial rejects with an error, and leaves the peer store with these peers. -/
def unreachable (peers : List PeerId) : Libp2p where
  dial _ := .rejected (.error "no good addresses")
  dialed _ := peers
  delete := .ok ()
  all := .ok ()
  findPeers := none
  caught _ := .error "no good addresses"
  toString _ := "Error: no good addresses"

/-- A peer that was not in the store is forgotten. -/
theorem forgotten_iff_not_stored :
    Forgotten "a" (init []) (dialPeer oneAttempt (unreachable ["b"]) "a" (init []) ["b"]) := by
  refine (forgotten_iff oneAttempt (unreachable ["b"]) (fun _ => .error "no good addresses") "a" (init []) ["b"]
    (by decide) fun _ _ => rfl).2 ⟨fun _ _ => rfl, rfl, by simp [unreachable], ?_⟩
  intro _ hempty
  cases hempty

/-- A peer in the store stays there. -/
theorem not_forgotten :
    ¬∀ (options : Options) (libp2p : Libp2p) (errors : ℕ → JsError) (p : PeerId) (s : State) (peerStore : List PeerId),
      1 ≤ options.maxDialAttemptsForPeer →
      (∀ k < options.maxDialAttemptsForPeer, libp2p.dial k = .rejected (errors k)) →
        Forgotten p s (dialPeer options libp2p p s peerStore) := by
  intro h
  have hforgotten := h oneAttempt (unreachable ["a"]) (fun _ => .error "no good addresses") "a" (init []) ["a"]
    (by decide) fun _ _ => rfl
  have hstored : "a" ∈ (dialPeer oneAttempt (unreachable ["a"]) "a" (init []) ["a"]).1.peerStore := by decide
  exact hforgotten.peerStore hstored

end JsWaku.ConnectionManager
