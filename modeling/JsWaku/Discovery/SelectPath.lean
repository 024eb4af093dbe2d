import JsWaku.Discovery.Search
import Mathlib.Data.List.GetD

/-!
# Which paths a traversal takes

`selectRandomPath` of `packages/discovery/src/dns/dns.ts` as a function of its random draws (`follow_of_branch` and
`step_draw` find it in the steps of a search), and searches that share a `SearchContext` and run one after another. The
context knows the names whose records were fetched in it and no others (`visited_eq`), but for the names that every
object inherits. So a path that is taken was not fetched before, and there is none exactly if all were
(`paths_of_run`).
-/

namespace JsWaku.Discovery

open Transition

/-! ## Selecting a path -/

/-- `selectRandomPath`, if these draws suffice. -/
def selectRandomPath (branches : List String) (context : SearchContext) (draws : List ℕ) :
    Option (Except JsError String) :=
  if (circularRefs branches context).length = branches.length then
    some (.error (.error "Unresolvable circular path detected"))
  else
    (draws.find? fun random => !(circularRefs branches context).contains (random % branches.length)).map fun random =>
      .ok (branches.getD (random % branches.length) "")

/-- All paths are circular if all have been visited. -/
theorem circularRefs_length_eq_iff {branches : List String} {context : SearchContext} :
    (circularRefs branches context).length = branches.length ↔ ∀ b ∈ branches, context.visited b = true := by
  have hrange : branches.length = (List.range branches.length).length := List.length_range.symm
  rw [circularRefs]
  conv_lhs => rhs; rw [hrange]
  rw [List.length_filter_eq_length_iff]
  constructor
  · intro h b hb
    obtain ⟨i, hi, rfl⟩ := List.mem_iff_getElem.1 hb
    rw [← List.getD_eq_getElem branches "" hi]
    exact h i (List.mem_range.2 hi)
  · intro h i hi
    rw [List.getD_eq_getElem branches "" (List.mem_range.1 hi)]
    exact h _ (List.getElem_mem _)

/-- A path that is not circular is one of the branches, and was not visited. -/
theorem not_circular {branches : List String} {context : SearchContext} {random : ℕ} (hne : branches ≠ [])
    (h : (circularRefs branches context).contains (random % branches.length) = false) :
    branches.getD (random % branches.length) "" ∈ branches ∧
      context.visited (branches.getD (random % branches.length) "") = false := by
  have hlt : random % branches.length < branches.length := Nat.mod_lt _ (List.length_pos_iff.2 hne)
  refine ⟨?_, ?_⟩
  · rw [List.getD_eq_getElem branches "" hlt]
    exact List.getElem_mem _
  · simpa [circularRefs, hlt] using h

theorem selectRandomPath_ok {branches : List String} {context : SearchContext} {draws : List ℕ} {next : String}
    (h : selectRandomPath branches context draws = some (.ok next)) : next ∈ branches ∧ context.visited next = false := by
  unfold selectRandomPath at h
  split at h
  next => cases h
  next hlength =>
    obtain ⟨random, hfind, hnext⟩ := Option.map_eq_some_iff.1 h
    cases hnext
    have hne : branches ≠ [] := fun hnil => hlength (by rw [hnil]; rfl)
    exact not_circular hne (by simpa using List.find?_some hfind)

theorem selectRandomPath_error_iff {branches : List String} {context : SearchContext} {draws : List ℕ} :
    (∃ error, selectRandomPath branches context draws = some (.error error)) ↔
      ∀ b ∈ branches, context.visited b = true := by
  rw [← circularRefs_length_eq_iff]
  unfold selectRandomPath
  split
  next hlength => exact iff_of_true ⟨_, rfl⟩ hlength
  next hlength =>
    refine iff_of_false ?_ hlength
    rintro ⟨error, h⟩
    obtain ⟨random, -, hnext⟩ := Option.map_eq_some_iff.1 h
    cases hnext

/-- While a path is left, a draw finds one. -/
theorem exists_selectRandomPath {branches : List String} {context : SearchContext}
    (h : ¬∀ b ∈ branches, context.visited b = true) :
    ∃ random next, selectRandomPath branches context [random] = some (.ok next) := by
  have hlength := mt circularRefs_length_eq_iff.1 h
  push Not at h
  obtain ⟨b, hb, hnew⟩ := h
  obtain ⟨i, hi, rfl⟩ := List.mem_iff_getElem.1 hb
  have hviable : (circularRefs branches context).contains (i % branches.length) = false := by
    simpa [circularRefs, Nat.mod_eq_of_lt hi, hi] using hnew
  exact ⟨i, _, by rw [selectRandomPath, if_neg hlength, List.find?_cons, hviable]; rfl⟩

variable {ρ : Type} {client : Client ρ}

/-- A branch entry is followed by `selectRandomPath`, up to its draws. -/
theorem follow_of_branch {context : SearchContext} {nested : Bool} {entry : String} {branches : List String}
    (htype : getEntryType entry = BRANCH_PREFIX) (hparse : parseBranch entry = .ok branches) :
    State.follow client context nested entry = match selectRandomPath branches context [] with
      | some (.error error) => .error error
      | _ => .ok (.select branches (circularRefs branches context)) := by
  have hroot : BRANCH_PREFIX ≠ ROOT_PREFIX := by decide
  unfold State.follow selectRandomPath
  simp only [htype, if_neg hroot, if_true, hparse, ok_bind]
  split <;> rfl

/-- A draw ends its loop, or not. -/
theorem step_draw {s : State ρ} {branches : List String}
    (hcall : s.call = .select branches (circularRefs branches s.context))
    (hlength : (circularRefs branches s.context).length ≠ branches.length) (random : ℕ) :
    step client s (.draw random) = some (match selectRandomPath branches s.context [random] with
      | some (.ok next) => { s with call := .search next }
      | _ => s) := by
  simp only [step, hcall, selectRandomPath, if_neg hlength, List.find?_cons]
  cases (circularRefs branches s.context).contains (random % branches.length) <;> rfl

/-! ## Searches with one context -/

/-- Searches that share a context, with the names whose records were fetched in it. -/
structure Searches (ρ : Type) where
  state : State ρ
  fetched : List String

namespace Searches

inductive Event
  /-- `_search(subdomain, context)` is called, once the last search is over. -/
  | search (subdomain : String)
  | step (event : Discovery.Event)

/-- A new context. -/
def start (cache : Map String String) (domain publicKey : String) : Searches ρ where
  state := { cache, context := ⟨domain, publicKey, Map.empty⟩, lookups := [], call := .settled (.ok none) }
  fetched := []

/-- The names fetched after a step: a lookup may fetch one. -/
def fetchedAfter (client : Client ρ) (s : Searches ρ) : Discovery.Event → List String
  | .lookup =>
    match s.state.call with
    | .search name =>
      match getTXTRecord client s.state.cache s.state.context name with
      | .ok _ => name :: s.fetched
      | .error _ => s.fetched
    | _ => s.fetched
  | .draw _ => s.fetched

/-- One event. -/
def step (client : Client ρ) (s : Searches ρ) : Event → Option (Searches ρ)
  | .search subdomain =>
    match s.state.call with
    | .settled _ => some { s with state := .start s.state.cache s.state.context subdomain }
    | _ => none
  | .step event =>
    (Discovery.step client s.state event).map fun state => { state, fetched := s.fetchedAfter client event }

/-- The next lookup finds a branch entry, so that it calls `selectRandomPath`. -/
def Selects (client : Client ρ) (s : Searches ρ) (name : String) (branches : List String) : Prop :=
  s.state.call = .search name ∧ ∃ entry, s.state.entry client name = some entry ∧ getEntryType entry = BRANCH_PREFIX ∧
    parseBranch entry = .ok branches

end Searches

/-- No label of a branch entry that a lookup can give is the name of a property that every object inherits. -/
def NoInherited (client : Client ρ) (s : State ρ) : Prop :=
  ∀ name entry branches, s.entry client name = some entry → parseBranch entry = .ok branches →
    ∀ b ∈ branches, b ∉ objectPrototype

/-- What holds of the searches at any time: lookups give what they gave at the start, and the context knows the names
that were fetched. -/
structure Searches.Inv (client : Client ρ) (s₀ : State ρ) (s : Searches ρ) : Prop where
  coherent : Coherent client s₀ s.state
  visited : ∀ name, s.state.context.visited name = true ↔ name ∈ objectPrototype ∨ name ∈ s.fetched

section

variable {s₀ : State ρ} {s s' t : Searches ρ} {cache : Map String String} {domain publicKey : String}

theorem Searches.inv_start :
    Searches.Inv client (Searches.start (ρ := ρ) cache domain publicKey).state (.start cache domain publicKey) := by
  refine ⟨⟨rfl, rfl, rfl, nofun⟩, fun name => ?_⟩
  by_cases h : name ∈ objectPrototype <;>
    simp [Searches.start, SearchContext.visited, Dictionary.get, Map.get_empty, h]

/-- A lookup visits the name that it fetches. -/
theorem lookup_context (s : State ρ) (name : String) : (s.lookup client name).context =
    match getTXTRecord client s.cache s.context name with
    | .ok _ => s.visit name
    | .error _ => s.context := by
  unfold State.lookup
  rcases getTXTRecord client s.cache s.context name with e | ⟨record | _, cache⟩
  · rfl
  · dsimp only
    split <;> rfl
  · rfl

theorem Searches.Inv.lookup {name : String} (h : s.Inv client s₀) (hcall : s.state.call = .search name) :
    Searches.Inv client s₀ ⟨s.state.lookup client name, s.fetchedAfter client .lookup⟩ := by
  refine ⟨h.coherent.lookup name, fun other => ?_⟩
  simp only [Searches.fetchedAfter, hcall, lookup_context]
  cases getTXTRecord client s.state.cache s.state.context name with
  | error e => exact h.visited other
  | ok record =>
    dsimp only
    rw [visited_visit, Bool.or_eq_true, h.visited, decide_eq_true_iff, List.mem_cons]
    tauto

theorem Searches.Inv.step {e : Searches.Event} (h : s.Inv client s₀) (hstep : s.step client e = some s') :
    s'.Inv client s₀ := by
  cases e with
  | search subdomain =>
    simp only [Searches.step] at hstep
    split at hstep
    · cases hstep
      exact ⟨⟨(State.entry_congr rfl rfl).trans h.coherent.entry, h.coherent.domain, h.coherent.key, nofun⟩, h.visited⟩
    · cases hstep
  | step event =>
    obtain ⟨state, hstate, rfl⟩ := Option.map_eq_some_iff.1 hstep
    rcases step_eq_some hstate with ⟨name, rfl, hcall, rfl⟩ | ⟨random, branches, refs, rfl, -, hdraw⟩
    · exact h.lookup hcall
    · refine ⟨h.coherent.step hstate, ?_⟩
      rcases hdraw with rfl | ⟨-, rfl⟩
      · exact h.visited
      · exact h.visited

/-- What holds after any run of searches. -/
theorem Searches.inv_run {es : List Searches.Event}
    (h : run (Searches.step client) (Searches.start cache domain publicKey) es = some t) :
    t.Inv client (Searches.start cache domain publicKey).state :=
  run_invariant (fun _ _ _ => Searches.Inv.step) es Searches.inv_start h

/-- A lookup that reads a branch entry has fetched it. -/
theorem Searches.lookup_of_selects {name : String} {branches : List String} (h : s.Selects client name branches) :
    ∃ s', s.step client (.step .lookup) = some s' ∧ name ∈ s'.fetched := by
  obtain ⟨hcall, entry, hentry, -, -⟩ := h
  have hstep : Discovery.step client s.state .lookup = some (s.state.lookup client name) := by
    simp only [Discovery.step, hcall]
  refine ⟨⟨s.state.lookup client name, s.fetchedAfter client .lookup⟩, by rw [Searches.step, hstep]; rfl, ?_⟩
  unfold State.entry at hentry
  simp only [Searches.fetchedAfter, hcall]
  split
  · exact List.mem_cons_self
  next e herror =>
    rw [herror] at hentry
    cases hentry

end

/-- **A traversal takes no path twice.** In searches that share a context, `selectRandomPath` returns branches whose
records have not been fetched, and throws exactly if there is none left; so what a draw enters was not fetched before. -/
theorem paths_of_run (client : Client ρ) (cache : Map String String) (domain publicKey : String)
    (hlabels : NoInherited client (Searches.start (ρ := ρ) cache domain publicKey).state) (es : List Searches.Event)
    (t : Searches ρ) (h : run (Searches.step client) (Searches.start cache domain publicKey) es = some t) :
    (∀ name branches, t.Selects client name branches → ∃ s', t.step client (.step .lookup) = some s' ∧ name ∈ s'.fetched ∧
      (∀ draws next, selectRandomPath branches s'.state.context draws = some (.ok next) →
        next ∈ branches ∧ next ∉ s'.fetched) ∧
      (∀ draws, (∃ error, selectRandomPath branches s'.state.context draws = some (.error error)) ↔
        ∀ b ∈ branches, b ∈ s'.fetched) ∧
      ((∃ b ∈ branches, b ∉ s'.fetched) →
        ∃ random next, selectRandomPath branches s'.state.context [random] = some (.ok next))) ∧
    ∀ random s' next, t.step client (.step (.draw random)) = some s' → s'.state.call = .search next →
      next ∉ t.fetched := by
  have hinv := Searches.inv_run h
  constructor
  · intro name branches hselects
    obtain ⟨s', hstep, hmem⟩ := Searches.lookup_of_selects hselects
    have hinv' := hinv.step hstep
    have hvisited : (∀ b ∈ branches, s'.state.context.visited b = true) ↔ ∀ b ∈ branches, b ∈ s'.fetched := by
      obtain ⟨-, entry, hentry, -, hparse⟩ := hselects
      rw [hinv.coherent.entry] at hentry
      refine forall₂_congr fun b hb => ?_
      rw [hinv'.visited, or_iff_right (hlabels name entry branches hentry hparse b hb)]
    refine ⟨s', hstep, hmem, fun draws next hnext => ?_, fun draws => selectRandomPath_error_iff.trans hvisited, ?_⟩
    · obtain ⟨hbranch, hnew⟩ := selectRandomPath_ok hnext
      refine ⟨hbranch, fun hfetched => ?_⟩
      rw [(hinv'.visited next).2 (.inr hfetched)] at hnew
      cases hnew
    · rintro ⟨b, hb, hnew⟩
      exact exists_selectRandomPath fun hall => hnew (hvisited.1 hall b hb)
  · intro random s' next hstep hcall hfetched
    obtain ⟨state, hstate, rfl⟩ := Option.map_eq_some_iff.1 hstep
    rcases step_eq_some hstate with ⟨name, he, -⟩ | ⟨random', branches, refs, he, hselect, rfl | ⟨hrefs, rfl⟩⟩
    · cases he
    · cases hselect.symm.trans hcall
    · cases he
      cases hcall
      have hnew := hinv.coherent.not_visited hselect hrefs
      rw [(hinv.visited _).2 (.inr hfetched)] at hnew
      cases hnew

/-- A branch that leads to itself and to a name that cannot be resolved, in its second search. -/
theorem paths_of_run_circular : ∃ (client : Client Unit) (cache : Map String String) (es : List Searches.Event)
    (t : Searches Unit), run (Searches.step client) (Searches.start cache "tree" "key") es = some t ∧
      t.fetched = ["branch", "branch"] ∧ ∀ random s' next, t.step client (.step (.draw random)) = some s' →
        s'.state.call = .search next → next ∉ t.fetched := by
  let client : Client Unit :=
    { zone := Map.empty, verifyRoot := fun _ _ _ => .ok true, fromString := fun _ => .error .typeError }
  let cache : Map String String := Map.empty.set "branch" "enrtree-branch:branch,leaf"
  have hlabels : NoInherited client (Searches.start cache "tree" "key").state := by
    intro name entry branches hentry hparse
    by_cases hname : name = "branch"
    · subst hname
      obtain rfl : "enrtree-branch:branch,leaf" = entry := Option.some.inj (Eq.trans (by decide +kernel) hentry)
      obtain rfl : ["branch", "leaf"] = branches := Except.ok.inj (Eq.trans (by decide +kernel) hparse)
      decide
    · have hget : Dictionary.get cache name = if objectPrototype.contains name then some .inherited else none := by
        rw [Dictionary.get, Map.get_set_ne _ _ hname, Map.get_empty]
      have hnone : (Searches.start cache "tree" "key").state.entry client name = none := by
        simp only [State.entry, getTXTRecord, Searches.start, hget]
        split_ifs <;> rfl
      rw [hnone] at hentry
      cases hentry
  have hrun : (run (Searches.step client) (Searches.start cache "tree" "key")
      [.search "branch", .step .lookup, .step (.draw 1), .step .lookup, .search "branch", .step .lookup]).map
        Searches.fetched = some ["branch", "branch"] := by decide +kernel
  obtain ⟨t, hrun, hfetched⟩ := Option.map_eq_some_iff.1 hrun
  exact ⟨client, cache, _, t, hrun, hfetched, (paths_of_run client cache "tree" "key" hlabels _ t hrun).2⟩

end JsWaku.Discovery
