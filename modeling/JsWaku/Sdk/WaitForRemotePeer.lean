import JsWaku.Core.Codecs
import JsWaku.Lib.Async
import JsWaku.Lib.Transition
import JsWaku.Runtime.Libp2p
import JsWaku.Runtime.Map
import JsWaku.Runtime.TypedArray

/-!
# Waiting for remote peers

`waitForRemotePeer` of `packages/sdk/src/waku/wait_for_remote_peer.ts`. A call waits for what settles first: the identify
events that `waitForProtocols` needs, one for each protocol, or the end of `waitForMetadata`, a program that scans the
peers that are connected at the call. Promises that are settled settle at once what waits for them.

A call resolves when each protocol was seen or `waitForMetadata` has ended (`seen_or_scanEnded`), which ends without
having confirmed anything where there is no metadata service or no peer, or where the handshakes fail. So a call for
protocols other than Relay resolves only when each of them was seen if and only if no connection is open at the call or
each of them is advertised by a peer that is connected then (`resolvesOnlySeen_iff`).
-/

namespace JsWaku.WaitForRemotePeer

open Async Transition

/-! ## Data -/

/-- `Protocols`. -/
inductive Protocols
  | Relay
  | Store
  | LightPush
  | Filter
  deriving DecidableEq, Repr

/-- The node at the call: what is mounted, the number of open connections, the connected peers with the protocols that
the peer store has for them, and whether there is a metadata service. -/
structure IWaku where
  isStarted : Bool
  mounted : Protocols → Bool
  connections : ℕ
  peers : List PeerId
  protocolsOf : PeerId → List String
  metadata : Bool

/-- What `waitForMetadata` awaits. -/
inductive Call
  | get (peerId : PeerId)
  | confirmOrAttemptHandshake (peerId : PeerId)

/-- The protocols of a peer; whether the response of a handshake has an error. -/
@[reducible] def Call.Result : Call → Type
  | get _ => List String
  | confirmOrAttemptHandshake _ => Bool

/-- A part of `waitForMetadata`. -/
abbrev Prog := Program Call Call.Result JsError

/-! ## Protocols and codecs -/

/-- The message of a protocol that is not mounted. -/
def notMounted : Protocols → String
  | .Relay => "Cannot wait for Relay peer: protocol not mounted"
  | .LightPush => "Cannot wait for LightPush peer: protocol not mounted"
  | .Store => "Cannot wait for Store peer: protocol not mounted"
  | .Filter => "Cannot wait for Filter peer: protocol not mounted"

/-- `protocolToCodec`. -/
def protocolToCodec : Protocols → Option String
  | .Relay => none
  | .Store => some StoreCodec
  | .LightPush => some LightPushCodec
  | .Filter => some FilterCodecs.SUBSCRIBE

/-- `mapProtocolsToCodecs`. -/
def mapProtocolsToCodecs (protocols : List Protocols) : Map String Bool :=
  (protocols.filterMap protocolToCodec).foldl (fun codecs codec => codecs.set codec false) Map.empty

/-- `getEnabledProtocols`. -/
def getEnabledProtocols (waku : IWaku) : List Protocols :=
  [.Relay, .Filter, .Store, .LightPush].filter waku.mounted

/-! ## `waitForMetadata` -/

/-- The `try` of the loop for a peer: the codecs that are confirmed with it, and whether all are. -/
def scanPeer (peerId : PeerId) (enabledCodes : Map String Bool) : Prog (Map String Bool × Bool) := do
  let protocols : List String ← Program.call (Call.get peerId)
  if protocols.any enabledCodes.has then do
    let error : Bool ← Program.call (Call.confirmOrAttemptHandshake peerId)
    if !error then
      let enabledCodes := protocols.foldl (fun codes c => if codes.has c then codes.set c true else codes) enabledCodes
      return (enabledCodes, enabledCodes.entries.all (·.2))
    else return (enabledCodes, false)
  else return (enabledCodes, false)

/-- The loop of `waitForMetadata`. What is thrown for a peer is only logged. -/
def scanPeers : List PeerId → Map String Bool → Prog Unit
  | [], _ => return ()
  | peerId :: peers, enabledCodes => do
    let (enabledCodes, confirmedAllCodecs) ←
      Program.tryCatch (scanPeer peerId enabledCodes) fun _ => return (enabledCodes, false)
    if confirmedAllCodecs then return () else scanPeers peers enabledCodes

/-- `waitForMetadata`. -/
def waitForMetadata (waku : IWaku) (protocols : List Protocols) : Prog Unit :=
  if waku.peers.isEmpty || !waku.metadata then return ()
  else scanPeers waku.peers (mapProtocolsToCodecs protocols)

/-! ## `waitForConnectedPeer` -/

/-- A `waitForConnectedPeer`: its codec, whether its listener is registered, the handshakes it awaits, and whether it has
resolved. -/
structure Waiting where
  codec : String
  registered : Bool
  handshakes : ℕ
  resolved : Bool
  deriving DecidableEq, Repr

/-- `waitForConnectedPeer`. -/
def waitForConnectedPeer (codec : String) : Waiting := ⟨codec, true, 0, false⟩

/-- Its listener with an identify result. -/
def Waiting.identified (waku : IWaku) (protocols : List String) (w : Waiting) : Waiting :=
  if w.registered && protocols.contains w.codec then
    if !waku.metadata then { w with registered := false, resolved := true }
    else { w with handshakes := w.handshakes + 1 }
  else w

/-- The end of a handshake of its listener; what is thrown is only logged. -/
def Waiting.handshaken (rejected : Bool) (w : Waiting) : Waiting :=
  if rejected then { w with handshakes := w.handshakes - 1 }
  else { w with handshakes := w.handshakes - 1, registered := false, resolved := true }

/-- The calls of `waitForConnectedPeer` that `waitForProtocols` makes. -/
def waitForProtocols (waku : IWaku) (protocols : List Protocols) : List Waiting :=
  ([Protocols.Store, .LightPush, .Filter].filter fun p => waku.mounted p && protocols.contains p).filterMap
    fun p => (protocolToCodec p).map waitForConnectedPeer

/-! ## The call -/

/-- A call in progress. -/
structure State where
  waiting : List Waiting
  /-- Whether `relay.waitForPeers()` has resolved, where it is awaited. -/
  relay : Option Bool
  /-- `waitForMetadata`, where it is called. -/
  scan : Option (Prog Unit)
  hasTimeout : Bool
  outcome : Option (Except JsError Unit)
  /-- The protocols in the identify events so far. -/
  seen : List (List String)

/-- `waitForMetadata` has ended. -/
def State.scanEnded (s : State) : Bool :=
  match s.scan with
  | some (.pure _) => true
  | _ => false

/-- `waitForProtocols` has resolved. -/
def State.protocolsResolved (s : State) : Bool := s.waiting.all (·.resolved) && s.relay != some false

/-- `Promise.any` of the two, against the timeout. -/
def State.settle (s : State) : State :=
  if s.outcome.isNone && (s.protocolsResolved || s.scanEnded) then { s with outcome := some (.ok ()) } else s

/-- `waitForRemotePeer`: what it throws, or the call in progress. -/
def waitForRemotePeer (waku : IWaku) (protocols : List Protocols) (timeoutMs : Option ℕ) : Except JsError State :=
  let protocols := if protocols.isEmpty then getEnabledProtocols waku else protocols
  if !waku.isStarted then .error (.error "Waku node is not started")
  else
    match protocols.find? fun p => !waku.mounted p with
    | some p => .error (.error (notMounted p))
    | none =>
      .ok (State.settle
        { waiting := waitForProtocols waku protocols
          relay := if protocols.contains .Relay then some false else none
          scan :=
            if waku.connections > 0 && !protocols.contains .Relay then some (waitForMetadata waku protocols) else none
          hasTimeout := timeoutMs.any (· ≠ 0)
          outcome := none
          seen := [] })

/-- A `peer:identify`, the end of a handshake of a listener, an answer to what `waitForMetadata` awaits, the end of
`relay.waitForPeers()`, or the timeout. -/
inductive Event
  | identify (protocols : List String)
  | handshake (codec : String) (rejected : Bool)
  /-- A rejection, or the response of a handshake with or without an error. -/
  | answered (error : Option Bool)
  | relayReady
  | timedOut

/-- What a call of `waitForMetadata` is answered: the peer store has the peers of the node. -/
def answer (waku : IWaku) (error : Option Bool) : (c : Call) → Except JsError c.Result
  | .get peerId => if error.isSome then .ok (waku.protocolsOf peerId) else .error (.error "rejected")
  | .confirmOrAttemptHandshake _ =>
    match error with
    | some error => .ok error
    | none => .error (.error "rejected")

/-- One thing happens. -/
def step (waku : IWaku) (s : State) : Event → Option State
  | .identify protocols =>
    some (State.settle
      { s with waiting := s.waiting.map (Waiting.identified waku protocols), seen := s.seen ++ [protocols] })
  | .handshake codec rejected =>
    if s.waiting.any fun w => w.codec = codec ∧ 0 < w.handshakes then
      some (State.settle
        { s with
          waiting := s.waiting.map fun w =>
            if w.codec = codec ∧ 0 < w.handshakes then w.handshaken rejected else w })
    else none
  | .answered error =>
    match s.scan with
    | some (.await c resume) => some (State.settle { s with scan := some (resume (answer waku error c)) })
    | _ => none
  | .relayReady => if s.relay = some false then some (State.settle { s with relay := some true }) else none
  | .timedOut =>
    if s.hasTimeout && s.outcome.isNone then
      some { s with outcome := some (.error (.error "Timed out waiting for a remote peer.")) }
    else none

/-! ## What a call should wait for -/

/-- A peer that is connected at the call advertises the codec of the protocol. -/
def IWaku.Advertises (waku : IWaku) (p : Protocols) : Prop :=
  ∃ codec, protocolToCodec p = some codec ∧ ∃ peer ∈ waku.peers, codec ∈ waku.protocolsOf peer

/-- A peer that advertises the codec of the protocol was seen, at the call or in an identify event. -/
def State.HasSeen (waku : IWaku) (s : State) (p : Protocols) : Prop :=
  waku.Advertises p ∨ ∃ codec, protocolToCodec p = some codec ∧ ∃ protocols ∈ s.seen, codec ∈ protocols

/-- Where the call has resolved, each of the protocols was seen, in every run. -/
def ResolvesOnlySeen (waku : IWaku) (protocols : List Protocols) (timeoutMs : Option ℕ) : Prop :=
  ∀ s₀ es s, waitForRemotePeer waku protocols timeoutMs = .ok s₀ → run (step waku) s₀ es = some s →
    s.outcome = some (.ok ()) → ∀ p ∈ protocols, s.HasSeen waku p

/-- The state in which the code is when it waits. -/
def begun (waku : IWaku) (protocols : List Protocols) (timeoutMs : Option ℕ) : State where
  waiting := waitForProtocols waku protocols
  relay := none
  scan := if waku.connections > 0 then some (waitForMetadata waku protocols) else none
  hasTimeout := timeoutMs.any (· ≠ 0)
  outcome := none
  seen := []

variable {waku : IWaku} {protocols : List Protocols}

/-- A started node with the protocols mounted waits. -/
theorem waitForRemotePeer_eq (hstarted : waku.isStarted = true) (hne : protocols ≠ [])
    (hmounted : ∀ p ∈ protocols, waku.mounted p = true) (hrelay : .Relay ∉ protocols) (timeoutMs : Option ℕ) :
    waitForRemotePeer waku protocols timeoutMs = .ok (begun waku protocols timeoutMs).settle := by
  have hempty : protocols.isEmpty = false := by simpa using hne
  have hfind : (protocols.find? fun p => !waku.mounted p) = none := by
    refine List.find?_eq_none.2 fun p hp => ?_
    simp [hmounted p hp]
  simp [waitForRemotePeer, begun, hstarted, hempty, hfind, hrelay]

/-! ## What the call has heard -/

/-- A `waitForConnectedPeer` that has resolved, or is about to, has heard of its codec. -/
def Waiting.Heard (seen : List (List String)) (w : Waiting) : Prop :=
  w.resolved = true ∨ 0 < w.handshakes → ∃ protocols ∈ seen, w.codec ∈ protocols

theorem Waiting.heard_identified {seen : List (List String)} {w : Waiting} (h : w.Heard seen)
    (protocols : List String) : (w.identified waku protocols).Heard (seen ++ [protocols]) := by
  have hmore : w.Heard (seen ++ [protocols]) := fun hor => by
    obtain ⟨heard, hheard, hcodec⟩ := h hor
    exact ⟨heard, List.mem_append_left _ hheard, hcodec⟩
  unfold identified
  split
  case isTrue hcodec =>
    have hnow : ∃ heard ∈ seen ++ [protocols], w.codec ∈ heard := by
      rw [Bool.and_eq_true, List.contains_iff_mem] at hcodec
      exact ⟨protocols, by simp, hcodec.2⟩
    split <;> exact fun _ => hnow
  case isFalse => exact hmore

theorem Waiting.heard_handshaken {seen : List (List String)} {w : Waiting} (h : w.Heard seen) (rejected : Bool)
    (hpending : 0 < w.handshakes) : (w.handshaken rejected).Heard seen := by
  have hnow := h (.inr hpending)
  cases rejected <;> exact fun _ => hnow

theorem Waiting.codec_identified (w : Waiting) (protocols : List String) :
    (w.identified waku protocols).codec = w.codec := by
  unfold identified
  split
  · split <;> rfl
  · rfl

theorem Waiting.codec_handshaken (w : Waiting) (rejected : Bool) : (w.handshaken rejected).codec = w.codec := by
  cases rejected <;> rfl

/-- What has resolved stays so. -/
theorem Waiting.resolved_identified {w : Waiting} (h : w.resolved = true) (protocols : List String) :
    (w.identified waku protocols).resolved = true := by
  unfold identified
  split
  · split
    · rfl
    · exact h
  · exact h

theorem Waiting.resolved_handshaken {w : Waiting} (h : w.resolved = true) (rejected : Bool) :
    (w.handshaken rejected).resolved = true := by
  cases rejected with
  | false => rfl
  | true => exact h

/-- Every `waitForConnectedPeer` has heard of its codec when it resolves, and the call resolves with all of them unless
`waitForMetadata` has ended. -/
structure Hearing (codecs : List String) (s : State) : Prop where
  codecs : s.waiting.map (·.codec) = codecs
  heard : ∀ w ∈ s.waiting, w.Heard s.seen
  resolved : s.outcome = some (.ok ()) → s.scanEnded = true ∨ ∀ w ∈ s.waiting, w.resolved = true

namespace Hearing

variable {codecs : List String} {s : State}

theorem settle (h : Hearing codecs s) : Hearing codecs s.settle := by
  unfold State.settle
  split
  case isTrue hsettles =>
    refine ⟨h.codecs, h.heard, fun _ => ?_⟩
    rw [Bool.and_eq_true, Bool.or_eq_true, State.protocolsResolved, Bool.and_eq_true, List.all_eq_true] at hsettles
    rcases hsettles.2 with hresolved | hended
    · exact .inr hresolved.1
    · exact .inl hended
  case isFalse => exact h

/-- Each `waitForConnectedPeer` goes its own way. -/
theorem map (h : Hearing codecs s) {f : Waiting → Waiting} (seen : List (List String))
    (hcodec : ∀ w, (f w).codec = w.codec) (hheard : ∀ w, w.Heard s.seen → (f w).Heard seen)
    (hresolved : ∀ w, w.resolved = true → (f w).resolved = true) :
    Hearing codecs { s with waiting := s.waiting.map f, seen } := by
  refine ⟨?_, fun w hw => ?_, fun houtcome => (h.resolved houtcome).imp_right fun hall w hw => ?_⟩
  · rw [List.map_map, ← h.codecs]
    exact List.map_congr_left fun w _ => hcodec w
  · obtain ⟨w', hw', rfl⟩ := List.mem_map.1 hw
    exact hheard w' (h.heard w' hw')
  · obtain ⟨w', hw', rfl⟩ := List.mem_map.1 hw
    exact hresolved w' (hall w' hw')

/-- Every step keeps it. -/
theorem step (s : State) (e : Event) (s' : State) (h : Hearing codecs s)
    (hstep : WaitForRemotePeer.step waku s e = some s') : Hearing codecs s' := by
  cases e with
  | identify protocols =>
    cases hstep
    refine settle (h.map (s.seen ++ [protocols]) (fun w => w.codec_identified protocols) ?_ ?_)
    · exact fun w hw => Waiting.heard_identified hw protocols
    · exact fun w hw => Waiting.resolved_identified hw protocols
  | handshake codec rejected =>
    dsimp only [WaitForRemotePeer.step] at hstep
    split at hstep
    case isFalse => cases hstep
    case isTrue =>
      cases hstep
      refine settle (h.map s.seen (fun w => ?_) (fun w hw => ?_) fun w hw => ?_)
      · split
        · exact w.codec_handshaken rejected
        · rfl
      · split
        case isTrue hpending => exact Waiting.heard_handshaken hw rejected hpending.2
        case isFalse => exact hw
      · split
        · exact Waiting.resolved_handshaken hw rejected
        · exact hw
  | answered error =>
    dsimp only [WaitForRemotePeer.step] at hstep
    split at hstep
    case h_1 c resume hscan =>
      -- the scan goes on, so that it has not settled the call
      have hgoes : ¬s.scanEnded = true := by simp [State.scanEnded, hscan]
      cases hstep
      exact settle ⟨h.codecs, h.heard, fun houtcome => .inr ((h.resolved houtcome).resolve_left hgoes)⟩
    case h_2 => cases hstep
  | relayReady =>
    dsimp only [WaitForRemotePeer.step] at hstep
    split at hstep
    · cases hstep
      exact settle ⟨h.codecs, h.heard, h.resolved⟩
    · cases hstep
  | timedOut =>
    dsimp only [WaitForRemotePeer.step] at hstep
    split at hstep
    · cases hstep
      exact ⟨h.codecs, h.heard, nofun⟩
    · cases hstep

end Hearing

/-- A mounted protocol other than Relay has its `waitForConnectedPeer`. -/
theorem mem_waitForProtocols {p : Protocols} (hp : p ∈ protocols) (hmounted : waku.mounted p = true) (hrelay : p ≠ .Relay) :
    ∃ codec, protocolToCodec p = some codec ∧ waitForConnectedPeer codec ∈ waitForProtocols waku protocols := by
  obtain ⟨codec, hcodec, hlisted⟩ :
      ∃ codec, protocolToCodec p = some codec ∧ p ∈ [Protocols.Store, .LightPush, .Filter] := by
    cases p with
    | Relay => exact absurd rfl hrelay
    | Store => exact ⟨_, rfl, by decide⟩
    | LightPush => exact ⟨_, rfl, by decide⟩
    | Filter => exact ⟨_, rfl, by decide⟩
  refine ⟨codec, hcodec, List.mem_filterMap.2 ⟨p, List.mem_filter.2 ⟨hlisted, ?_⟩, by rw [hcodec]; rfl⟩⟩
  simp [hmounted, hp]

/-- A new `waitForConnectedPeer` waits. -/
theorem heard_of_mem_waitForProtocols {w : Waiting} (hw : w ∈ waitForProtocols waku protocols)
    (seen : List (List String)) : w.Heard seen := by
  obtain ⟨p, -, hw⟩ := List.mem_filterMap.1 hw
  obtain ⟨codec, -, rfl⟩ := Option.map_eq_some_iff.1 hw
  rintro (hresolved | hhandshakes)
  · cases hresolved
  · cases hhandshakes

/-- A call that has resolved has seen each protocol, or `waitForMetadata` has ended. -/
theorem seen_or_scanEnded (hmounted : ∀ p ∈ protocols, waku.mounted p = true) (hrelay : .Relay ∉ protocols)
    {timeoutMs : Option ℕ} {es : List Event} {s : State}
    (hrun : run (step waku) (begun waku protocols timeoutMs).settle es = some s) (houtcome : s.outcome = some (.ok ())) :
    (∀ p ∈ protocols, s.HasSeen waku p) ∨ s.scanEnded = true := by
  have hbegun : Hearing ((waitForProtocols waku protocols).map (·.codec)) (begun waku protocols timeoutMs) :=
    ⟨rfl, fun w hw => heard_of_mem_waitForProtocols hw _, nofun⟩
  have h := run_invariant Hearing.step es hbegun.settle hrun
  rcases h.resolved houtcome with hended | hall
  · exact .inr hended
  · refine .inl fun p hp => ?_
    obtain ⟨codec, hcodec, hmem⟩ := mem_waitForProtocols hp (hmounted p hp) fun heq => hrelay (heq ▸ hp)
    have hin : codec ∈ s.waiting.map (·.codec) := by
      rw [h.codecs]
      exact List.mem_map.2 ⟨_, hmem, rfl⟩
    obtain ⟨w, hw, rfl⟩ := List.mem_map.1 hin
    exact .inr ⟨w.codec, hcodec, h.heard w hw (.inl (hall w hw))⟩

/-! ## Without a connection -/

theorem scan_settle (s : State) : s.settle.scan = s.scan := by
  unfold State.settle
  split <;> rfl

/-- Where `waitForMetadata` is not called, it is not called later. -/
theorem scan_step (s : State) (e : Event) (s' : State) (h : s.scan = none) (hstep : step waku s e = some s') :
    s'.scan = none := by
  cases e with
  | identify protocols =>
    cases hstep
    exact (scan_settle _).trans h
  | handshake codec rejected =>
    dsimp only [step] at hstep
    split at hstep
    · cases hstep
      exact (scan_settle _).trans h
    · cases hstep
  | answered error =>
    dsimp only [step] at hstep
    rw [h] at hstep
    cases hstep
  | relayReady =>
    dsimp only [step] at hstep
    split at hstep
    · cases hstep
      exact (scan_settle _).trans h
    · cases hstep
  | timedOut =>
    dsimp only [step] at hstep
    split at hstep
    · cases hstep
      exact h
    · cases hstep

/-- Without a connection a call resolves only when each protocol was seen. -/
theorem resolvesOnlySeen_of_no_connections (hstarted : waku.isStarted = true) (hne : protocols ≠ [])
    (hmounted : ∀ p ∈ protocols, waku.mounted p = true) (hrelay : .Relay ∉ protocols) (timeoutMs : Option ℕ)
    (hnone : waku.connections = 0) : ResolvesOnlySeen waku protocols timeoutMs := by
  intro s₀ es s hcall hrun houtcome
  rw [waitForRemotePeer_eq hstarted hne hmounted hrelay] at hcall
  cases hcall
  have hbegun : (begun waku protocols timeoutMs).settle.scan = none := by
    rw [scan_settle]
    simp [begun, hnone]
  have hscan := run_invariant scan_step es hbegun hrun
  refine (seen_or_scanEnded hmounted hrelay hrun houtcome).resolve_right ?_
  simp [State.scanEnded, hscan]

/-! ## With a connection -/

/-- Settling leaves what was seen, and resolves at most. -/
theorem settle_frame (s : State) (houtcome : s.outcome = none ∨ s.outcome = some (.ok ())) :
    s.settle.seen = s.seen ∧ (s.settle.outcome = none ∨ s.settle.outcome = some (.ok ())) := by
  unfold State.settle
  split
  · exact ⟨rfl, .inr rfl⟩
  · exact ⟨rfl, houtcome⟩

/-- The scan goes to its end where every call rejects, and the call resolves with nothing seen. -/
theorem exists_run_scan (peers : List PeerId) (enabledCodes : Map String Bool) (s : State)
    (hscan : s.scan = some (scanPeers peers enabledCodes)) (houtcome : s.outcome = none ∨ s.outcome = some (.ok ())) :
    ∃ es s', run (step waku) s.settle es = some s' ∧ s'.outcome = some (.ok ()) ∧ s'.seen = s.seen := by
  induction peers generalizing s with
  | nil =>
    refine ⟨[], s.settle, rfl, ?_, (settle_frame s houtcome).1⟩
    have hended : s.scanEnded = true := by
      rw [State.scanEnded, hscan]
      rfl
    unfold State.settle
    rw [hended, Bool.or_true, Bool.and_true]
    rcases houtcome with houtcome | houtcome
    · rw [houtcome]
      rfl
    · rw [houtcome]
      exact houtcome
  | cons peerId peers ih =>
    obtain ⟨hseen, houtcome'⟩ := settle_frame s houtcome
    have hscan' : s.settle.scan = some (scanPeers (peerId :: peers) enabledCodes) := (scan_settle s).trans hscan
    -- the loop logs the rejection and goes on
    have hstep : step waku s.settle (.answered none) =
        some (State.settle { s.settle with scan := some (scanPeers peers enabledCodes) }) := by
      unfold step
      rw [hscan']
      rfl
    obtain ⟨es, s', hrun, hresolved, hseen'⟩ :=
      ih { s.settle with scan := some (scanPeers peers enabledCodes) } rfl houtcome'
    exact ⟨.answered none :: es, s', run_cons.2 ⟨_, hstep, hrun⟩, hresolved, hseen'.trans hseen⟩

/-- With a connection a call can resolve with nothing seen. -/
theorem exists_run_resolved (hstarted : waku.isStarted = true) (hne : protocols ≠ [])
    (hmounted : ∀ p ∈ protocols, waku.mounted p = true) (hrelay : .Relay ∉ protocols) (timeoutMs : Option ℕ)
    (hsome : waku.connections ≠ 0) :
    ∃ s₀ es s, waitForRemotePeer waku protocols timeoutMs = .ok s₀ ∧ run (step waku) s₀ es = some s ∧
      s.outcome = some (.ok ()) ∧ s.seen = [] := by
  obtain ⟨peers, enabledCodes, hscan⟩ : ∃ peers enabledCodes, (begun waku protocols timeoutMs).scan =
      some (scanPeers peers enabledCodes) := by
    have hpos : waku.connections > 0 := Nat.pos_of_ne_zero hsome
    rw [begun, if_pos hpos]
    unfold waitForMetadata
    split
    · exact ⟨[], Map.empty, rfl⟩
    · exact ⟨_, _, rfl⟩
  obtain ⟨es, s, hrun, hresolved, hseen⟩ := exists_run_scan peers enabledCodes _ hscan (.inl rfl)
  exact ⟨_, es, s, waitForRemotePeer_eq hstarted hne hmounted hrelay timeoutMs, hrun, hresolved, hseen⟩

/-- **For a started node and protocols other than Relay that are mounted, the call resolves only when each protocol was
seen, in every run, if and only if no connection is open at the call or each protocol is advertised by a peer that is
connected then.** -/
theorem resolvesOnlySeen_iff (waku : IWaku) (protocols : List Protocols) (timeoutMs : Option ℕ)
    (hstarted : waku.isStarted = true) (hne : protocols ≠ []) (hmounted : ∀ p ∈ protocols, waku.mounted p = true)
    (hrelay : .Relay ∉ protocols) :
    ResolvesOnlySeen waku protocols timeoutMs ↔ waku.connections = 0 ∨ ∀ p ∈ protocols, waku.Advertises p := by
  constructor
  · intro honly
    by_cases hnone : waku.connections = 0
    · exact .inl hnone
    · obtain ⟨s₀, es, s, hcall, hrun, hresolved, hseen⟩ :=
        exists_run_resolved hstarted hne hmounted hrelay timeoutMs hnone
      refine .inr fun p hp => (honly s₀ es s hcall hrun hresolved p hp).resolve_right ?_
      rintro ⟨codec, -, heard, hheard, -⟩
      rw [hseen] at hheard
      cases hheard
  · rintro (hnone | hall)
    · exact resolvesOnlySeen_of_no_connections hstarted hne hmounted hrelay timeoutMs hnone
    · exact fun _ _ _ _ _ _ p hp => .inl (hall p hp)

/-- A started node with LightPush mounted, one connection and no metadata service. -/
def connectedTo (protocols : List String) : IWaku where
  isStarted := true
  mounted p := p = .LightPush
  connections := 1
  peers := ["a"]
  protocolsOf _ := protocols
  metadata := false

theorem resolvesOnlySeen_lightPush : ResolvesOnlySeen (connectedTo [LightPushCodec]) [.LightPush] none :=
  (resolvesOnlySeen_iff (connectedTo [LightPushCodec]) [.LightPush] none rfl (by decide) (by decide) (by decide)).2
    (.inr fun p hp => by
      obtain rfl := List.mem_singleton.1 hp
      exact ⟨LightPushCodec, rfl, "a", List.mem_singleton_self _, List.mem_singleton_self _⟩)

/-- Connected to a peer that advertises nothing, the call resolves at once. -/
theorem not_resolvesOnlySeen :
    ∃ s, waitForRemotePeer (connectedTo []) [.LightPush] none = .ok s ∧ s.outcome = some (.ok ()) ∧
      ¬s.HasSeen (connectedTo []) .LightPush := by
  refine ⟨_, rfl, rfl, ?_⟩
  rintro (⟨codec, -, peer, -, hmem⟩ | ⟨codec, -, heard, hheard, -⟩)
  · cases hmem
  · cases hheard

end JsWaku.WaitForRemotePeer
