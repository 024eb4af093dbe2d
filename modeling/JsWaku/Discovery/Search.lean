import JsWaku.Discovery.Dns

/-!
# What a lookup does

A lookup caches what it finds, visits the name and follows the entry, and leaves what other lookups return as it is
(`State.lookup_frame`). During a search lookups therefore give what they gave at its start (`Coherent.step`).
-/

namespace JsWaku.Discovery

variable {ρ : Type} {client : Client ρ}

namespace State

/-! ## Entries -/

/-- The entry that a lookup of the name finds. -/
def entry (client : Client ρ) (s : State ρ) (subdomain : String) : Option String :=
  match getTXTRecord client s.cache s.context subdomain with
  | .ok (.own entry, _) => some entry
  | _ => none

/-- The name that a verified root entry at this name leads to. -/
def rootNext (client : Client ρ) (s : State ρ) (subdomain : String) : Option String :=
  (s.entry client subdomain).bind fun entry =>
    if getEntryType entry = ROOT_PREFIX then
      (parseAndVerifyRoot client.verifyRoot entry s.context.publicKey).toOption
    else none

/-- The names that can be resolved. -/
def resolvable (client : Client ρ) (s : State ρ) : Set String := {name | (s.entry client name).isSome}

theorem entry_congr {s s' : State ρ} (hcache : s'.cache = s.cache) (hdomain : s'.context.domain = s.context.domain) :
    s'.entry client = s.entry client := by
  funext name
  unfold entry getTXTRecord query
  rw [hcache, hdomain]

theorem rootNext_congr {s s' : State ρ} (hentry : s'.entry client = s.entry client)
    (hkey : s'.context.publicKey = s.context.publicKey) : s'.rootNext client = s.rootNext client := by
  funext name
  unfold rootNext
  rw [hentry, hkey]

end State

/-- What a query returns is not empty and is cached. -/
theorem query_ok {cache cache' : Map String String} {context : SearchContext} {subdomain : String}
    {record : Property String} (h : query client cache context subdomain = .ok (record, cache')) :
    ∃ result, result ≠ "" ∧ record = .own result ∧ cache' = Dictionary.assign cache subdomain result := by
  obtain ⟨response, -, h⟩ := bind_eq_ok.1 h
  cases response with
  | nil => cases h
  | cons first rest =>
    simp only at h
    split at h
    · cases h
    · rename_i hfirst
      cases h
      refine ⟨String.join (first :: rest), ?_, rfl, rfl⟩
      intro hempty
      rw [← String.toList_inj] at hfirst hempty
      rw [String.toList_join, List.flatMap_cons] at hempty
      exact hfirst (List.append_eq_nil_iff.1 hempty).1

/-- A lookup leaves the cache as it is or adds the text that it returns. -/
theorem getTXTRecord_ok {cache cache' : Map String String} {context : SearchContext} {subdomain : String}
    {record : Property String} (h : getTXTRecord client cache context subdomain = .ok (record, cache')) :
    cache' = cache ∨ Dictionary.get cache subdomain ≠ some .inherited ∧
      ∃ result, result ≠ "" ∧ record = .own result ∧ cache' = Dictionary.assign cache subdomain result := by
  unfold getTXTRecord at h
  split at h
  · rename_i hget
    exact Or.inr ⟨by rw [hget]; simp, query_ok h⟩
  · rename_i hget
    exact Or.inr ⟨by rw [hget]; simp, query_ok h⟩
  · cases h
    exact Or.inl rfl

theorem query_fst (cache cache' : Map String String) (context : SearchContext) (subdomain : String) :
    (query client cache' context subdomain).map Prod.fst = (query client cache context subdomain).map Prod.fst := by
  unfold query
  cases client.resolveTXT (location subdomain context.domain) with
  | error e => rfl
  | ok response =>
    cases response with
    | nil => rfl
    | cons first rest =>
      simp only [ok_bind]
      by_cases hfirst : first = ""
      · rw [if_pos hfirst, if_pos hfirst]
      · rw [if_neg hfirst, if_neg hfirst]
        rfl

/-- A lookup leaves what lookups return as it is. -/
theorem getTXTRecord_fst {cache cache' : Map String String} {context : SearchContext} {subdomain : String}
    {record : Property String} (h : getTXTRecord client cache context subdomain = .ok (record, cache')) (name : String) :
    (getTXTRecord client cache' context name).map Prod.fst = (getTXTRecord client cache context name).map Prod.fst := by
  rcases getTXTRecord_ok h with rfl | ⟨hget, result, hne, rfl, rfl⟩
  · rfl
  · by_cases hname : name = subdomain
    · subst hname
      rcases Dictionary.get_assign_self cache name result with hself | ⟨hinherited, -⟩
      · have hcached : getTXTRecord client (Dictionary.assign cache name result) context name =
            .ok (.own result, Dictionary.assign cache name result) := by
          unfold getTXTRecord
          rw [hself]
          split
          · rename_i heq
            cases heq
            exact absurd rfl hne
          · rename_i heq
            cases heq
          · rename_i heq
            cases heq
            rfl
        rw [hcached, h]
      · exact absurd hinherited hget
    · unfold getTXTRecord
      rw [Dictionary.get_assign_ne cache result hname]
      split
      · exact query_fst _ _ _ _
      · exact query_fst _ _ _ _
      · rfl

namespace State

theorem entry_eq (client : Client ρ) (s : State ρ) (name : String) :
    s.entry client name = match (getTXTRecord client s.cache s.context name).map Prod.fst with
      | .ok (.own entry) => some entry
      | _ => none := by
  unfold entry
  rcases getTXTRecord client s.cache s.context name with e | ⟨record | _, cache⟩ <;> rfl

/-- The search context when the name was visited. -/
def visit (s : State ρ) (name : String) : SearchContext :=
  { s.context with visits := Dictionary.assign s.context.visits name true }

/-- A lookup that finds no entry ends the search. -/
theorem lookup_of_none {s : State ρ} {name : String} (h : s.entry client name = none) :
    (s.lookup client name).call = .settled (.ok none) := by
  unfold entry at h
  unfold lookup
  rcases hrecord : getTXTRecord client s.cache s.context name with e | ⟨record | _, cache⟩
  · rfl
  · rw [hrecord] at h
    cases h
  · rfl

/-- A lookup that finds an entry visits the name and follows the entry. -/
theorem lookup_of_entry {s : State ρ} {name entry : String} (h : s.entry client name = some entry) :
    (s.lookup client name).context = s.visit name ∧
      (s.lookup client name).call = match follow client (s.visit name) (!s.lookups.isEmpty) entry with
        | .error _ => .settled (.ok none)
        | .ok call => call := by
  unfold State.entry at h
  unfold lookup
  rcases hrecord : getTXTRecord client s.cache s.context name with e | ⟨record | _, cache⟩
  · rw [hrecord] at h
    cases h
  · rw [hrecord] at h
    cases h
    unfold visit
    simp only
    generalize follow client _ (!s.lookups.isEmpty) entry = followed
    cases followed with
    | error e => exact ⟨rfl, rfl⟩
    | ok call => exact ⟨rfl, rfl⟩
  · rw [hrecord] at h
    cases h

/-- What a lookup leaves as it is. -/
theorem lookup_frame (client : Client ρ) (s : State ρ) (name : String) :
    (s.lookup client name).lookups = name :: s.lookups ∧
      (s.lookup client name).context.domain = s.context.domain ∧
      (s.lookup client name).context.publicKey = s.context.publicKey ∧
      (s.lookup client name).entry client = s.entry client := by
  have hentry : ∀ (cache : Map String String) (t : State ρ),
      (∀ other, (getTXTRecord client cache s.context other).map Prod.fst =
        (getTXTRecord client s.cache s.context other).map Prod.fst) →
      t.cache = cache → t.context.domain = s.context.domain → t.entry client = s.entry client := by
    intro cache t hfst hcache hdomain
    rw [entry_congr (show t.cache = ({ s with cache } : State ρ).cache from hcache) hdomain]
    funext other
    rw [entry_eq, entry_eq, hfst]
  unfold lookup
  rcases hrecord : getTXTRecord client s.cache s.context name with e | ⟨record | _, cache⟩
  · exact ⟨rfl, rfl, rfl, hentry s.cache _ (fun _ => rfl) rfl rfl⟩
  · simp only
    split
    · exact ⟨rfl, rfl, rfl, hentry cache _ (getTXTRecord_fst hrecord) rfl rfl⟩
    · exact ⟨rfl, rfl, rfl, hentry cache _ (getTXTRecord_fst hrecord) rfl rfl⟩
  · exact ⟨rfl, rfl, rfl, hentry cache _ (getTXTRecord_fst hrecord) rfl rfl⟩

end State

/-- Visiting a name makes it visited, and no other. -/
theorem visited_visit (s : State ρ) (name other : String) :
    (s.visit name).visited other = (s.context.visited other || other = name) := by
  by_cases h : other = name
  · subst h
    have hvisited : (s.visit other).visited other = true := by
      unfold SearchContext.visited State.visit
      rcases Dictionary.get_assign_self s.context.visits other true with hself | ⟨hinherited, hsame⟩
      · simp only [hself]
      · simp only [hsame, hinherited]
    rw [hvisited, decide_eq_true rfl, Bool.or_true]
  · have hvisited : (s.visit name).visited other = s.context.visited other := by
      unfold SearchContext.visited State.visit
      simp only [Dictionary.get_assign_ne _ true h]
    rw [hvisited, decide_eq_false h, Bool.or_false]

/-! ## What a step does -/

namespace State

/-- How an entry is followed. -/
theorem follow_ok {context : SearchContext} {nested : Bool} {entry : String} {call : Call ρ}
    (h : follow client context nested entry = .ok call) :
    (getEntryType entry = ROOT_PREFIX ∧
      ∃ next, parseAndVerifyRoot client.verifyRoot entry context.publicKey = .ok next ∧ call = .search next) ∨
    (getEntryType entry ≠ ROOT_PREFIX ∧ ∃ branches, call = .select branches (circularRefs branches context) ∧
      (circularRefs branches context).length ≠ branches.length) ∨
    ∃ result, call = .settled result := by
  unfold follow at h
  simp only at h
  split at h
  · rename_i hroot
    obtain ⟨next, hnext, h⟩ := bind_eq_ok.1 h
    cases h
    exact Or.inl ⟨hroot, next, hnext, rfl⟩
  · rename_i hroot
    split at h
    · obtain ⟨branches, -, h⟩ := bind_eq_ok.1 h
      split at h
      · cases h
      · rename_i hlength
        cases h
        exact Or.inr (Or.inl ⟨hroot, branches, rfl, hlength⟩)
    · split at h
      · obtain ⟨promise, -, h⟩ := bind_eq_ok.1 h
        cases h
        exact Or.inr (Or.inr ⟨_, rfl⟩)
      · cases h
        exact Or.inr (Or.inr ⟨_, rfl⟩)

/-- What a lookup has found when the search goes on. -/
theorem lookup_open {s : State ρ} {name : String} (h : ∀ result, (s.lookup client name).call ≠ .settled result) :
    ∃ entry, s.entry client name = some entry ∧ (s.lookup client name).context = s.visit name ∧
      follow client (s.visit name) (!s.lookups.isEmpty) entry = .ok (s.lookup client name).call := by
  cases hentry : s.entry client name with
  | none => exact absurd (lookup_of_none hentry) (h _)
  | some entry =>
    obtain ⟨hcontext, hcall⟩ := lookup_of_entry hentry
    refine ⟨entry, rfl, hcontext, ?_⟩
    cases hfollow : follow client (s.visit name) (!s.lookups.isEmpty) entry with
    | error e =>
      rw [hfollow] at hcall
      exact absurd hcall (h _)
    | ok call =>
      rw [hfollow] at hcall
      rw [hcall]

/-- The names that are left are those of verified root entries. -/
theorem rootNext_eq_some {s : State ρ} {name next : String} : s.rootNext client name = some next ↔
    ∃ entry, s.entry client name = some entry ∧ getEntryType entry = ROOT_PREFIX ∧
      parseAndVerifyRoot client.verifyRoot entry s.context.publicKey = .ok next := by
  unfold rootNext
  rw [Option.bind_eq_some_iff]
  refine exists_congr fun entry => and_congr_right fun _ => ?_
  by_cases hroot : getEntryType entry = ROOT_PREFIX
  · rw [if_pos hroot]
    cases parseAndVerifyRoot client.verifyRoot entry s.context.publicKey <;> simp [hroot, Except.toOption]
  · simp [hroot]

theorem lookup_search {s : State ρ} {name next : String} (h : (s.lookup client name).call = .search next) :
    s.rootNext client name = some next := by
  have hopen : ∀ result, (s.lookup client name).call ≠ .settled result := by simp [h]
  obtain ⟨entry, hentry, -, hfollow⟩ := lookup_open hopen
  rw [h] at hfollow
  rcases follow_ok hfollow with ⟨hroot, next', hnext, hcall⟩ | ⟨-, branches, hcall, -⟩ | ⟨result, hcall⟩
  · cases hcall
    exact rootNext_eq_some.2 ⟨entry, hentry, hroot, hnext⟩
  · cases hcall
  · cases hcall

theorem lookup_select {s : State ρ} {name : String} {branches : List String} {refs : List ℕ}
    (h : (s.lookup client name).call = .select branches refs) :
    s.rootNext client name = none ∧ refs = circularRefs branches (s.visit name) ∧ refs.length ≠ branches.length := by
  have hopen : ∀ result, (s.lookup client name).call ≠ .settled result := by simp [h]
  obtain ⟨entry, hentry, -, hfollow⟩ := lookup_open hopen
  rw [h] at hfollow
  rcases follow_ok hfollow with ⟨-, next', -, hcall⟩ | ⟨hroot, branches', hcall, hlength⟩ | ⟨result, hcall⟩
  · cases hcall
  · cases hcall
    refine ⟨?_, rfl, hlength⟩
    rw [rootNext, hentry, Option.bind_some, if_neg hroot]
  · cases hcall

/-- A verified root entry leads to its name. -/
theorem lookup_of_rootNext {s : State ρ} {name next : String} (h : s.rootNext client name = some next) :
    (s.lookup client name).call = .search next := by
  obtain ⟨entry, hentry, hroot, hnext⟩ := rootNext_eq_some.1 h
  have hfollow : follow client (s.visit name) (!s.lookups.isEmpty) entry = .ok (.search next) := by
    unfold follow
    simp only [hroot, if_true]
    have hkey : (s.visit name).publicKey = s.context.publicKey := rfl
    rw [hkey, hnext]
    rfl
  rw [(lookup_of_entry hentry).2, hfollow]

end State

/-- The two kinds of steps. -/
theorem step_eq_some {s s' : State ρ} {e : Event} (h : step client s e = some s') :
    (∃ name, e = .lookup ∧ s.call = .search name ∧ s' = s.lookup client name) ∨
    (∃ random branches refs, e = .draw random ∧ s.call = .select branches refs ∧
      (s' = s ∨ random % branches.length ∉ refs ∧
        s' = { s with call := .search (branches.getD (random % branches.length) "") })) := by
  cases e with
  | lookup =>
    simp only [step] at h
    split at h
    · rename_i name hcall
      cases h
      exact Or.inl ⟨name, rfl, hcall, rfl⟩
    · cases h
  | draw random =>
    simp only [step] at h
    split at h
    · rename_i branches refs hcall
      right
      refine ⟨random, branches, refs, rfl, hcall, ?_⟩
      split at h
      · cases h
        exact Or.inl rfl
      · rename_i hrefs
        cases h
        exact Or.inr ⟨by simpa using hrefs, rfl⟩
    · cases h

/-! ## Searches -/

/-- What holds of a search at any time: lookups give what they gave at its start, and the loop of `selectRandomPath`
has a viable path. -/
structure Coherent (client : Client ρ) (s₀ s : State ρ) : Prop where
  entry : s.entry client = s₀.entry client
  domain : s.context.domain = s₀.context.domain
  key : s.context.publicKey = s₀.context.publicKey
  refs : ∀ {branches refs}, s.call = .select branches refs →
    refs = circularRefs branches s.context ∧ refs.length ≠ branches.length

section

variable {s₀ s s' : State ρ}

theorem Coherent.rootNext (h : Coherent client s₀ s) : s.rootNext client = s₀.rootNext client :=
  State.rootNext_congr h.entry h.key

theorem Coherent.start (client : Client ρ) (cache : Map String String) (context : SearchContext) (subdomain : String) :
    Coherent client (.start cache context subdomain) (.start cache context subdomain) :=
  ⟨rfl, rfl, rfl, fun h => nomatch h⟩

theorem Coherent.lookup (h : Coherent client s₀ s) (name : String) : Coherent client s₀ (s.lookup client name) := by
  obtain ⟨-, hdomain, hkey, hentry⟩ := State.lookup_frame client s name
  refine ⟨hentry.trans h.entry, hdomain.trans h.domain, hkey.trans h.key, ?_⟩
  intro branches refs hcall
  have hopen : ∀ result, (s.lookup client name).call ≠ .settled result := by simp [hcall]
  obtain ⟨entry, -, hcontext, -⟩ := State.lookup_open hopen
  obtain ⟨-, hrefs, hlength⟩ := State.lookup_select hcall
  exact ⟨by rw [hcontext, hrefs], hlength⟩

theorem Coherent.step {e : Event} (h : Coherent client s₀ s) (hstep : step client s e = some s') :
    Coherent client s₀ s' := by
  rcases step_eq_some hstep with ⟨name, -, -, rfl⟩ | ⟨random, branches, refs, -, -, rfl | ⟨-, rfl⟩⟩
  · exact h.lookup name
  · exact h
  · exact ⟨h.entry, h.domain, h.key, fun hcall => nomatch hcall⟩

/-- The path that the loop of `selectRandomPath` ends with was not visited. -/
theorem Coherent.not_visited (h : Coherent client s₀ s) {branches : List String} {refs : List ℕ} {random : ℕ}
    (hcall : s.call = .select branches refs) (hrandom : random % branches.length ∉ refs) :
    s.context.visited (branches.getD (random % branches.length) "") = false := by
  obtain ⟨hrefs, hlength⟩ := h.refs hcall
  have hpos : 0 < branches.length := by
    rcases Nat.eq_zero_or_pos branches.length with hzero | hpos
    · rw [hrefs, circularRefs, hzero] at hlength
      exact absurd rfl hlength
    · exact hpos
  rw [hrefs, circularRefs, List.mem_filter, List.mem_range, not_and] at hrandom
  simpa using hrandom (Nat.mod_lt random hpos)

end

end JsWaku.Discovery
