import JsWaku.Discovery.SharedPeerCache

/-!
# What a local peer cache announces

What an instance announces was identified by some page, or stored before (`announced_sourced`). A start that ends has
itself announced every entry of its list whose peer was not known when it asked (`start_covers`).
-/

namespace JsWaku.LocalPeerCache.Shared

open Transition

/-! ## Where announcements come from -/

section

variable {Multiaddr : Type} (env : Env Multiaddr) (S : LocalStoragePeerInfo → Prop)

/-- The peer and the address that an entry stands for. -/
def Stands (entry : LocalStoragePeerInfo) (peerId : PeerId) (address : Multiaddr) : Prop :=
  env.peerIdFromString entry.id = .ok peerId ∧ env.multiaddr entry.address = .ok address

/-- The call goes through entries of the kind. -/
def Progress.Sourced : Progress Multiaddr → Prop
  | .checking peerId address rest =>
    (∃ entry, S entry ∧ env.peerIdFromString entry.id = .ok peerId ∧ entry.address = address) ∧ ∀ entry ∈ rest, S entry
  | .saving peerId address rest => (∃ entry, S entry ∧ Stands env entry peerId address) ∧ ∀ entry ∈ rest, S entry
  | .resolved | .rejected => True

/-- Every entry is of the kind, and every announcement comes from one. -/
structure State.Sourced (s : State Multiaddr) : Prop where
  item : ∀ entry ∈ getPeers s.item, S entry
  peers : ∀ discovery ∈ s.discoveries, ∀ entry ∈ discovery.peers, S entry
  calls : ∀ call ∈ s.calls, call.progress.Sourced env S
  announced : ∀ j peerId address, (j, peerId, address) ∈ s.announced → ∃ entry, S entry ∧ Stands env entry peerId address

variable {env S} {s s' : State Multiaddr} {e : Event Multiaddr}

theorem sourced_next {rest : List LocalStoragePeerInfo} (h : ∀ entry ∈ rest, S entry) :
    (next env rest).Sourced env S := by
  cases rest with
  | nil => trivial
  | cons entry rest =>
    obtain ⟨hentry, hrest⟩ := List.forall_mem_cons.1 h
    rw [next]
    cases hid : env.peerIdFromString entry.id with
    | error e => trivial
    | ok peerId => exact ⟨⟨entry, hentry, hid, rfl⟩, hrest⟩

theorem State.Sourced.set_call (h : s.Sourced env S) (j : ℕ) (call : Call Multiaddr)
    (hcall : call.progress.Sourced env S) : State.Sourced env S { s with calls := s.calls.set j call } := by
  refine ⟨h.item, h.peers, fun c hc => ?_, h.announced⟩
  rcases List.mem_or_eq_of_mem_set hc with hc | rfl
  · exact h.calls c hc
  · exact hcall

theorem State.Sourced.resume (h : s.Sourced env S) (j i : ℕ) {rest : List LocalStoragePeerInfo}
    (hrest : ∀ entry ∈ rest, S entry) : (s.resume env j i rest).Sourced env S := by
  obtain ⟨hitem, hpeers, hcalls, hannounced⟩ := h.set_call j ⟨i, next env rest⟩ (sourced_next hrest)
  refine ⟨hitem, fun discovery hmem => ?_, hcalls, hannounced⟩
  rw [State.resume] at hmem
  dsimp only at hmem
  split at hmem
  · obtain ⟨k, hk, rfl⟩ := List.getElem_of_mem hmem
    rw [List.length_modify] at hk
    have hold := hpeers s.discoveries[k] (List.getElem_mem hk)
    rw [List.getElem_modify]
    split <;> exact hold
  · exact hpeers discovery hmem

theorem sourced_read {item : Item} (h : ∀ entry ∈ getPeers item, S entry) (access : Access) :
    ∀ entry ∈ access.read item, S entry := by
  cases access with
  | granted | full => exact h
  | denied => nofun

theorem sourced_write {item : Item} (h : ∀ entry ∈ getPeers item, S entry) {peers : List LocalStoragePeerInfo}
    (hpeers : ∀ entry ∈ peers, S entry) (access : Access) : ∀ entry ∈ getPeers (access.write item peers), S entry := by
  cases access with
  | granted =>
    rw [Access.write, getPeers_stringify]
    exact hpeers
  | full | denied => exact h

theorem sourced_upsert {peers : List LocalStoragePeerInfo} (h : ∀ entry ∈ peers, S entry) {id : PeerId} {address : String}
    (hnew : S ⟨id, address⟩) : ∀ entry ∈ upsert peers id address, S entry := by
  intro entry hmem
  unfold upsert at hmem
  split at hmem
  · rename_i k hk
    obtain ⟨n, hn, rfl⟩ := List.getElem_of_mem hmem
    rw [List.getElem_modify]
    split
    · rename_i heq
      subst heq
      obtain ⟨hlt, hid, -⟩ := List.findIdx?_eq_some_iff_getElem.1 hk
      rw [beq_iff_eq.1 hid]
      exact hnew
    · exact h _ (List.getElem_mem _)
  · rcases List.mem_append.1 hmem with hmem | hmem
    · exact h entry hmem
    · rw [List.mem_singleton.1 hmem]
      exact hnew

theorem State.Sourced.set_discovery (h : s.Sourced env S) (i : ℕ) (discovery : Discovery)
    (hpeers : ∀ entry ∈ discovery.peers, S entry) :
    State.Sourced env S { s with discoveries := s.discoveries.set i discovery } := by
  refine ⟨h.item, fun d hd => ?_, h.calls, h.announced⟩
  rcases List.mem_or_eq_of_mem_set hd with hd | rfl
  · exact h.peers d hd
  · exact hpeers

theorem mem_of_live {i : ℕ} {discovery : Discovery} (h : s.live i = some discovery) : discovery ∈ s.discoveries :=
  List.mem_of_getElem? (live_eq_some.1 h).1

/-- A step keeps the kind, if what it identifies is of it. -/
theorem State.Sourced.step (h : s.Sourced env S)
    (hidentified : ∀ i peerId listenAddrs access websocketMultiaddr, e = .identified i peerId listenAddrs access →
      getWsMultiaddrFromMultiaddrs env listenAddrs = some websocketMultiaddr →
      S ⟨peerId, env.toString websocketMultiaddr⟩) (hstep : step env s e = some s') : s'.Sourced env S := by
  cases e with
  | constructed access =>
    cases hstep
    refine ⟨h.item, fun discovery hmem => ?_, h.calls, h.announced⟩
    rcases List.mem_append.1 hmem with hmem | hmem
    · exact h.peers discovery hmem
    · rw [List.mem_singleton.1 hmem]
      exact sourced_read h.item access
  | start i =>
    obtain ⟨discovery, hlive, hstep⟩ := Option.bind_eq_some_iff.1 hstep
    cases hstep
    have hpeers := h.peers discovery (mem_of_live hlive)
    split
    · exact h
    · refine State.Sourced.resume ?_ _ _ hpeers
      obtain ⟨hitem, hpeers', hcalls, hannounced⟩ := h.set_discovery i { discovery with listening := true } hpeers
      refine ⟨hitem, hpeers', fun call hmem => ?_, hannounced⟩
      rcases List.mem_append.1 hmem with hmem | hmem
      · exact hcalls call hmem
      · rw [List.mem_singleton.1 hmem]
        trivial
  | stop i access =>
    obtain ⟨discovery, hlive, hstep⟩ := Option.bind_eq_some_iff.1 hstep
    cases hstep
    have hpeers := h.peers discovery (mem_of_live hlive)
    split
    · exact h
    · obtain ⟨hitem, hpeers', hcalls, hannounced⟩ :=
        h.set_discovery i { discovery with listening := false, isStarted := false } hpeers
      exact ⟨sourced_write hitem hpeers access, hpeers', hcalls, hannounced⟩
  | identified i peerId listenAddrs access =>
    obtain ⟨discovery, hlive, hstep⟩ := Option.bind_eq_some_iff.1 hstep
    obtain ⟨-, -, hstep⟩ := Option.bind_eq_some_iff.1 hstep
    cases hws : getWsMultiaddrFromMultiaddrs env listenAddrs with
    | none =>
      rw [hws] at hstep
      cases hstep
      exact h
    | some websocketMultiaddr =>
      rw [hws] at hstep
      cases hstep
      have hpeers := sourced_upsert (sourced_read h.item access)
        (hidentified i peerId listenAddrs access websocketMultiaddr rfl hws)
      obtain ⟨hitem, hpeers', hcalls, hannounced⟩ := h.set_discovery i { discovery with
        peers := upsert (access.read s.item) peerId (env.toString websocketMultiaddr) } hpeers
      exact ⟨sourced_write hitem hpeers access, hpeers', hcalls, hannounced⟩
  | has j peerId known =>
    obtain ⟨call, hcall, hstep⟩ := Option.bind_eq_some_iff.1 hstep
    obtain ⟨-, -, hstep⟩ := Option.bind_eq_some_iff.1 hstep
    have hsourced := h.calls call (List.mem_of_getElem? hcall)
    cases hprogress : call.progress with
    | saving | resolved | rejected =>
      rw [hprogress] at hstep
      cases hstep
    | checking checkedId address rest =>
      rw [hprogress] at hstep hsourced
      obtain ⟨u, hid, hdone⟩ := Option.bind_eq_some_iff.1 hstep
      obtain rfl : peerId = checkedId := (Option.guard_eq_some' u).1 hid
      cases hdone
      obtain ⟨⟨entry, hentry, hpeerId, rfl⟩, hrest⟩ := hsourced
      unfold State.checked
      split
      · exact h.resume j call.discovery hrest
      · split
        · exact h.set_call j _ trivial
        · rename_i address haddress
          exact h.set_call j _ ⟨⟨entry, hentry, hpeerId, haddress⟩, hrest⟩
      · exact h.set_call j _ trivial
  | saved j ok =>
    obtain ⟨call, hcall, hstep⟩ := Option.bind_eq_some_iff.1 hstep
    obtain ⟨-, -, hstep⟩ := Option.bind_eq_some_iff.1 hstep
    have hsourced := h.calls call (List.mem_of_getElem? hcall)
    cases hprogress : call.progress with
    | checking | resolved | rejected =>
      rw [hprogress] at hstep
      cases hstep
    | saving peerId address rest =>
      rw [hprogress] at hstep hsourced
      cases hstep
      obtain ⟨hentry, hrest⟩ := hsourced
      split
      · have hannounce : State.Sourced env S { s with announced := s.announced ++ [(j, peerId, address)] } := by
          refine ⟨h.item, h.peers, h.calls, fun j' peerId' address' hmem => ?_⟩
          rcases List.mem_append.1 hmem with hmem | hmem
          · exact h.announced j' peerId' address' hmem
          · cases List.mem_singleton.1 hmem
            exact hentry
        exact hannounce.resume j call.discovery hrest
      · exact h.set_call j _ trivial
  | closed i =>
    obtain ⟨discovery, hlive, hstep⟩ := Option.bind_eq_some_iff.1 hstep
    cases hstep
    exact h.set_discovery i _ (h.peers discovery (mem_of_live hlive))
  | cleared =>
    cases hstep
    exact ⟨nofun, h.peers, h.calls, h.announced⟩

/-- Every announced peer was identified at the announced address by some page, or was stored with it before. -/
theorem announced_sourced {item : Item} {es : List (Event Multiaddr)} {t : State Multiaddr}
    (hrun : run (step env) (init item) es = some t) {j : ℕ} {peerId : PeerId}
    {address : Multiaddr} (h : (j, peerId, address) ∈ t.announced) :
    ∃ entry, Stands env entry peerId address ∧ (entry ∈ getPeers item ∨
      ∃ i listenAddrs access websocketMultiaddr, .identified i entry.id listenAddrs access ∈ es ∧
        getWsMultiaddrFromMultiaddrs env listenAddrs = some websocketMultiaddr ∧
        entry.address = env.toString websocketMultiaddr) := by
  have hstart : (init item : State Multiaddr).Sourced env fun entry => entry ∈ getPeers item ∨
      ∃ i listenAddrs access websocketMultiaddr, .identified i entry.id listenAddrs access ∈ es ∧
        getWsMultiaddrFromMultiaddrs env listenAddrs = some websocketMultiaddr ∧
        entry.address = env.toString websocketMultiaddr := ⟨fun entry hmem => .inl hmem, nofun, nofun, nofun⟩
  have hsourced := run_invariant_of_events (D := fun e => e ∈ es) (P := State.Sourced env _)
    (fun s e s' h he hstep => ?_) es hstart (fun _ he => he) hrun
  · obtain ⟨entry, hentry, hstands⟩ := hsourced.announced j peerId address h
    exact ⟨entry, hstands, hentry⟩
  · refine h.step (fun i peerId listenAddrs access websocketMultiaddr heq hws => ?_) hstep
    subst heq
    exact .inr ⟨i, listenAddrs, access, websocketMultiaddr, he, hws, rfl⟩

/-- The next page of the peer, with its start. -/
def restartedRun : List (Event String) := nextPage ++ [.start 1, .has 1 "b" (some false), .saved 1 true]

/-- It announces the peer. -/
theorem announced_sourced_restartedRun : ∃ t, run (step plainEnv) (init none) restartedRun = some t ∧
    (1, "b", "/dns4/b/tcp/443/wss") ∈ t.announced ∧
    ∃ entry, Stands plainEnv entry "b" "/dns4/b/tcp/443/wss" ∧ (entry ∈ getPeers none ∨
      ∃ i listenAddrs access websocketMultiaddr, .identified i entry.id listenAddrs access ∈ restartedRun ∧
        getWsMultiaddrFromMultiaddrs plainEnv listenAddrs = some websocketMultiaddr ∧
        entry.address = plainEnv.toString websocketMultiaddr) := by
  have hrun : (run (step plainEnv) (init none) restartedRun).isSome = true := by decide +kernel
  obtain ⟨t, ht⟩ := Option.isSome_iff_exists.1 hrun
  have hannounced : ∀ t ∈ run (step plainEnv) (init none) restartedRun,
      (1, "b", "/dns4/b/tcp/443/wss") ∈ t.announced := by decide +kernel
  exact ⟨t, ht, hannounced t ht, announced_sourced ht (hannounced t ht)⟩

end

/-! ## What a start has announced -/

section

variable {Multiaddr : Type} (env : Env Multiaddr)

/-- The peer of the entry was known when the call asked for it, or the call announced the entry. -/
def Covered (j : ℕ) (es : List (Event Multiaddr)) (announced : List (ℕ × PeerId × Multiaddr))
    (entry : LocalStoragePeerInfo) : Prop :=
  ∃ peerId, env.peerIdFromString entry.id = .ok peerId ∧ (.has j peerId (some true) ∈ es ∨
    ∃ address, env.multiaddr entry.address = .ok address ∧ (j, peerId, address) ∈ announced)

/-- The entries that the call has done with are covered. -/
def Progress.Covers (D : LocalStoragePeerInfo → Prop) (peers : List LocalStoragePeerInfo) : Progress Multiaddr → Prop
  | .checking peerId address rest => ∃ done entry, peers = done ++ entry :: rest ∧ (∀ earlier ∈ done, D earlier) ∧
      env.peerIdFromString entry.id = .ok peerId ∧ entry.address = address
  | .saving peerId address rest => ∃ done entry, peers = done ++ entry :: rest ∧ (∀ earlier ∈ done, D earlier) ∧
      Stands env entry peerId address
  | .resolved => ∀ entry ∈ peers, D entry
  | .rejected => True

variable {env} {s s' : State Multiaddr} {e : Event Multiaddr}

theorem Progress.Covers.mono {D D' : LocalStoragePeerInfo → Prop} (h : ∀ entry, D entry → D' entry)
    {peers : List LocalStoragePeerInfo} {progress : Progress Multiaddr} (hcovers : progress.Covers env D peers) :
    progress.Covers env D' peers := by
  cases progress with
  | checking | saving =>
    obtain ⟨done, entry, heq, hdone, hentry⟩ := hcovers
    exact ⟨done, entry, heq, fun earlier hmem => h earlier (hdone earlier hmem), hentry⟩
  | resolved => exact fun entry hmem => h entry (hcovers entry hmem)
  | rejected => trivial

/-- The loop goes on behind entries that are covered. -/
theorem covers_next {D : LocalStoragePeerInfo → Prop} {done rest : List LocalStoragePeerInfo}
    (hdone : ∀ entry ∈ done, D entry) : (next env rest).Covers env D (done ++ rest) := by
  cases rest with
  | nil =>
    rw [List.append_nil]
    exact hdone
  | cons entry rest =>
    rw [next]
    cases hid : env.peerIdFromString entry.id with
    | error e => trivial
    | ok peerId => exact ⟨done, entry, rfl, hdone, hid, rfl⟩

theorem covers_next_cons {D : LocalStoragePeerInfo → Prop} {done rest : List LocalStoragePeerInfo}
    {entry : LocalStoragePeerInfo} (hdone : ∀ earlier ∈ done, D earlier) (hentry : D entry) :
    (next env rest).Covers env D (done ++ entry :: rest) := by
  rw [List.append_cons]
  refine covers_next fun earlier hmem => ?_
  rcases List.mem_append.1 hmem with hmem | hmem
  · exact hdone earlier hmem
  · rw [List.mem_singleton.1 hmem]
    exact hentry

theorem Covered.append {j : ℕ} {es : List (Event Multiaddr)} {announced : List (ℕ × PeerId × Multiaddr)}
    {entry : LocalStoragePeerInfo} (h : Covered env j es announced entry) (es' : List (Event Multiaddr))
    (more : List (ℕ × PeerId × Multiaddr)) : Covered env j (es ++ es') (announced ++ more) entry := by
  obtain ⟨peerId, hid, hknown | ⟨address, haddress, hmem⟩⟩ := h
  · exact ⟨peerId, hid, .inl (List.mem_append_left _ hknown)⟩
  · exact ⟨peerId, hid, .inr ⟨address, haddress, List.mem_append_left _ hmem⟩⟩

@[simp] theorem announced_checked (s : State Multiaddr) (j i : ℕ) (peerId : PeerId) (address : String)
    (rest : List LocalStoragePeerInfo) (known : Option Bool) :
    (s.checked env j i peerId address rest known).announced = s.announced := by
  unfold State.checked
  split
  · rfl
  · split <;> rfl
  · rfl

theorem calls_checked_ne {j k i : ℕ} (hne : k ≠ j) (peerId : PeerId) (address : String)
    (rest : List LocalStoragePeerInfo) (known : Option Bool) :
    (s.checked env k i peerId address rest known).calls[j]? = s.calls[j]? := by
  unfold State.checked
  split
  · exact List.getElem?_set_ne hne
  · split <;> exact List.getElem?_set_ne hne
  · exact List.getElem?_set_ne hne

/-- A call after a step: it stands where it stood, or was answered. -/
theorem call_step (hstep : step env s e = some s') {j : ℕ} {call : Call Multiaddr} (hcall : s.calls[j]? = some call) :
    s.announced <+: s'.announced ∧ (s'.calls[j]? = some call ∨
    (∃ peerId address rest known, e = .has j peerId known ∧ call.progress = .checking peerId address rest ∧
      s' = s.checked env j call.discovery peerId address rest known) ∨
    ∃ peerId address rest ok, e = .saved j ok ∧ call.progress = .saving peerId address rest ∧
      s' = if ok then s.announce env j call.discovery peerId address rest
        else { s with calls := s.calls.set j ⟨call.discovery, .rejected⟩ }) := by
  obtain ⟨hj, -⟩ := List.getElem?_eq_some_iff.1 hcall
  cases e with
  | constructed access =>
    cases hstep
    exact ⟨List.prefix_rfl, .inl hcall⟩
  | cleared =>
    cases hstep
    exact ⟨List.prefix_rfl, .inl hcall⟩
  | start i =>
    obtain ⟨discovery, -, hdone⟩ := Option.bind_eq_some_iff.1 hstep
    cases hdone
    split
    · exact ⟨List.prefix_rfl, .inl hcall⟩
    · refine ⟨List.prefix_rfl, .inl ?_⟩
      show ((s.calls ++ [_]).set s.calls.length _)[j]? = some call
      rw [List.getElem?_set_ne (Nat.ne_of_gt hj), List.getElem?_append_left hj]
      exact hcall
  | stop i access =>
    obtain ⟨discovery, -, hdone⟩ := Option.bind_eq_some_iff.1 hstep
    cases hdone
    split <;> exact ⟨List.prefix_rfl, .inl hcall⟩
  | closed i =>
    obtain ⟨discovery, -, hdone⟩ := Option.bind_eq_some_iff.1 hstep
    cases hdone
    exact ⟨List.prefix_rfl, .inl hcall⟩
  | identified i peerId listenAddrs access =>
    obtain ⟨discovery, -, hrest⟩ := Option.bind_eq_some_iff.1 hstep
    obtain ⟨-, -, hdone⟩ := Option.bind_eq_some_iff.1 hrest
    split at hdone <;> cases hdone <;> exact ⟨List.prefix_rfl, .inl hcall⟩
  | has k peerId known =>
    obtain ⟨call', hcall', hrest⟩ := Option.bind_eq_some_iff.1 hstep
    obtain ⟨-, -, hrest⟩ := Option.bind_eq_some_iff.1 hrest
    cases hprogress : call'.progress with
    | saving | resolved | rejected =>
      rw [hprogress] at hrest
      cases hrest
    | checking checkedId address rest =>
      rw [hprogress] at hrest
      obtain ⟨u, hid, hdone⟩ := Option.bind_eq_some_iff.1 hrest
      obtain rfl : peerId = checkedId := (Option.guard_eq_some' u).1 hid
      cases hdone
      by_cases hk : k = j
      · subst hk
        cases hcall.symm.trans hcall'
        refine ⟨?_, .inr (.inl ⟨peerId, address, rest, known, rfl, hprogress, rfl⟩)⟩
        rw [announced_checked]
      · rw [announced_checked, calls_checked_ne hk]
        exact ⟨List.prefix_rfl, .inl hcall⟩
  | saved k ok =>
    obtain ⟨call', hcall', hrest⟩ := Option.bind_eq_some_iff.1 hstep
    obtain ⟨-, -, hrest⟩ := Option.bind_eq_some_iff.1 hrest
    cases hprogress : call'.progress with
    | checking | resolved | rejected =>
      rw [hprogress] at hrest
      cases hrest
    | saving peerId address rest =>
      rw [hprogress] at hrest
      cases hrest
      have hextends : s.announced <+: (if ok then s.announce env k call'.discovery peerId address rest
          else { s with calls := s.calls.set k ⟨call'.discovery, .rejected⟩ }).announced := by
        split
        · exact List.prefix_append _ _
        · exact List.prefix_rfl
      refine ⟨hextends, ?_⟩
      by_cases hk : k = j
      · subst hk
        cases hcall.symm.trans hcall'
        exact .inr (.inr ⟨peerId, address, rest, ok, rfl, hprogress, rfl⟩)
      · refine .inl ?_
        split
        · exact (List.getElem?_set_ne hk).trans hcall
        · exact (List.getElem?_set_ne hk).trans hcall

/-- The call is there, and after `before` was announced it has covered the entries that it has done with. -/
def State.CallCovers (env : Env Multiaddr) (j : ℕ) (before : List (ℕ × PeerId × Multiaddr))
    (peers : List LocalStoragePeerInfo) (s : State Multiaddr) (es : List (Event Multiaddr)) : Prop :=
  ∃ more call, s.announced = before ++ more ∧ s.calls[j]? = some call ∧
    call.progress.Covers env (Covered env j es more) peers

variable {j : ℕ} {before : List (ℕ × PeerId × Multiaddr)} {peers : List LocalStoragePeerInfo}
  {es : List (Event Multiaddr)}

theorem State.CallCovers.step (h : s.CallCovers env j before peers es) (hstep : Shared.step env s e = some s') :
    s'.CallCovers env j before peers (es ++ [e]) := by
  obtain ⟨more, call, hannounced, hcall, hcovers⟩ := h
  obtain ⟨hj, -⟩ := List.getElem?_eq_some_iff.1 hcall
  obtain ⟨⟨since, hsince⟩, hsame | ⟨peerId, address, rest, known, rfl, hprogress, rfl⟩ |
    ⟨peerId, address, rest, ok, rfl, hprogress, rfl⟩⟩ := call_step hstep hcall
  · refine ⟨more ++ since, call, ?_, hsame, hcovers.mono fun entry hentry => hentry.append [e] since⟩
    rw [← hsince, hannounced, List.append_assoc]
  · rw [hprogress] at hcovers
    obtain ⟨done, entry, rfl, hdone, hid, rfl⟩ := hcovers
    have hold : ∀ earlier ∈ done, Covered env j (es ++ [.has j peerId known]) more earlier := by
      intro earlier hmem
      have hearlier := (hdone earlier hmem).append [.has j peerId known] []
      rwa [List.append_nil] at hearlier
    refine ⟨more, ?_⟩
    rw [announced_checked]
    cases known with
    | none => exact ⟨_, hannounced, List.getElem?_set_self hj, trivial⟩
    | some known =>
      cases known with
      | true =>
        have hentry : Covered env j (es ++ [.has j peerId (some true)]) more entry := ⟨peerId, hid, .inl (by simp)⟩
        exact ⟨_, hannounced, List.getElem?_set_self hj, covers_next_cons hold hentry⟩
      | false =>
        cases haddress : env.multiaddr entry.address with
        | error e =>
          have hcheck : s.checked env j call.discovery peerId entry.address rest (some false) =
              { s with calls := s.calls.set j ⟨call.discovery, .rejected⟩ } := by rw [checked, haddress]
          rw [hcheck]
          exact ⟨_, hannounced, List.getElem?_set_self hj, trivial⟩
        | ok address =>
          have hcheck : s.checked env j call.discovery peerId entry.address rest (some false) =
              { s with calls := s.calls.set j ⟨call.discovery, .saving peerId address rest⟩ } := by rw [checked, haddress]
          rw [hcheck]
          exact ⟨_, hannounced, List.getElem?_set_self hj, done, entry, rfl, hold, hid, haddress⟩
  · rw [hprogress] at hcovers
    obtain ⟨done, entry, rfl, hdone, hid, haddress⟩ := hcovers
    cases ok with
    | false => exact ⟨more, _, hannounced, List.getElem?_set_self hj, trivial⟩
    | true =>
      have hentry : Covered env j (es ++ [.saved j true]) (more ++ [(j, peerId, address)]) entry :=
        ⟨peerId, hid, .inr ⟨address, haddress, List.mem_append_right _ (List.mem_singleton_self _)⟩⟩
      have hold : ∀ earlier ∈ done, Covered env j (es ++ [.saved j true]) (more ++ [(j, peerId, address)]) earlier :=
        fun earlier hmem => (hdone earlier hmem).append _ _
      refine ⟨more ++ [(j, peerId, address)], _, ?_, List.getElem?_set_self hj, covers_next_cons hold hentry⟩
      show s.announced ++ [(j, peerId, address)] = before ++ (more ++ [(j, peerId, address)])
      rw [hannounced, List.append_assoc]

/-- A start that ends has itself announced every entry of the list that it began with, unless the peer was known when it
asked. -/
theorem start_covers {i : ℕ} {discovery : Discovery} {t : State Multiaddr} (hlive : s.live i = some discovery)
    (hstopped : discovery.isStarted = false) (hrun : run (step env) s (.start i :: es) = some t)
    (hresolved : t.calls[s.calls.length]? = some ⟨i, .resolved⟩) :
    ∃ more, t.announced = s.announced ++ more ∧ ∀ entry ∈ discovery.peers, Covered env s.calls.length es more entry := by
  obtain ⟨s', hstart, hrun⟩ := run_cons.1 hrun
  obtain ⟨discovery', hlive', hbegin⟩ := Option.bind_eq_some_iff.1 hstart
  cases hlive.symm.trans hlive'
  rw [hstopped] at hbegin
  cases hbegin
  have hbegun : (s.begin env i discovery).CallCovers env s.calls.length s.announced discovery.peers [] := by
    have hlength : s.calls.length < (s.calls ++ [(⟨i, .rejected⟩ : Call Multiaddr)]).length := by simp
    have hnone : ∀ entry ∈ [], Covered env s.calls.length [] [] entry := by simp
    exact ⟨[], _, (List.append_nil _).symm, List.getElem?_set_self hlength, covers_next hnone⟩
  have hcovers : t.CallCovers env s.calls.length s.announced discovery.peers es :=
    run_invariant_of_history hbegun (fun _ _ _ _ _ h hstep => h.step hstep) es hrun
  obtain ⟨more, call, hannounced, hcall, hall⟩ := hcovers
  cases hresolved.symm.trans hcall
  exact ⟨more, hannounced, hall⟩

/-- An instance that has read one entry. -/
def restored : State String := ⟨none, [⟨false, [⟨"b", "/dns4/b/tcp/443/wss"⟩], false, false⟩], [], []⟩

theorem start_covers_restored : ∃ t,
    run (step plainEnv) restored [.start 0, .has 0 "b" (some false), .saved 0 true] = some t ∧
      Covered plainEnv 0 [.has 0 "b" (some false), .saved 0 true] t.announced ⟨"b", "/dns4/b/tcp/443/wss"⟩ := by
  obtain ⟨t, hrun, hresolved⟩ : ∃ t, run (step plainEnv) restored [.start 0, .has 0 "b" (some false), .saved 0 true] =
      some t ∧ t.calls[restored.calls.length]? = some ⟨0, .resolved⟩ := ⟨_, rfl, rfl⟩
  obtain ⟨more, hannounced, hall⟩ := start_covers rfl rfl hrun hresolved
  refine ⟨t, hrun, ?_⟩
  rw [hannounced]
  exact hall _ (List.mem_singleton_self _)

end

end JsWaku.LocalPeerCache.Shared
