import JsWaku.Discovery.Search
import Mathlib.Data.Set.Card
import Mathlib.Order.Lattice.Nat

/-!
# How many lookups a search makes

A branch entry is left for a name that was not visited, a root entry for the name that it gives, visited or not. A search
makes at most one more lookup than names can be resolved as long as no verified root entry leads back to a name that it
has looked up, and it ends if it comes to no endless chain of verified root entries (`search_lookups`).
-/

namespace JsWaku.Discovery

open Transition

variable {ρ : Type} {client : Client ρ}

/-! ## Searches without a way back -/

/-- The verified root entry that is followed, if there is one, does not lead back to a name already looked up. -/
def NoWayBack (client : Client ρ) (s : State ρ) : Event → Prop
  | .lookup =>
    match s.call with
    | .search name => ∀ next ∈ s.rootNext client name, next ∉ name :: s.lookups
    | _ => True
  | .draw _ => True

instance (client : Client ρ) (s : State ρ) (e : Event) : Decidable (NoWayBack client s e) := by
  unfold NoWayBack
  cases e with
  | draw => infer_instance
  | lookup => cases s.call <;> infer_instance

/-- Without a way back the names looked up are distinct, and all but the last can be resolved. -/
structure Straight (client : Client ρ) (s₀ s : State ρ) : Prop where
  coherent : Coherent client s₀ s
  nodup : s.lookups.Nodup
  tail : ∀ name ∈ s.lookups.tail, name ∈ s₀.resolvable client
  visited : (∀ result, s.call ≠ .settled result) →
    ∀ name ∈ s.lookups, name ∈ s₀.resolvable client ∧ s.context.visited name
  new : ∀ {name}, s.call = .search name → name ∉ s.lookups

theorem Straight.start (client : Client ρ) (cache : Map String String) (context : SearchContext) (subdomain : String) :
    Straight client (.start cache context subdomain) (.start cache context subdomain) where
  coherent := Coherent.start client cache context subdomain
  nodup := List.nodup_nil
  tail := by simp [State.start]
  visited := by simp [State.start]
  new := by simp [State.start]

theorem Straight.lookup {s₀ s : State ρ} {name : String} (h : Straight client s₀ s) (hcall : s.call = .search name)
    (hback : ∀ next ∈ s.rootNext client name, next ∉ name :: s.lookups) :
    Straight client s₀ (s.lookup client name) := by
  have hlookups : (s.lookup client name).lookups = name :: s.lookups := (State.lookup_frame client s name).1
  have hvisited := h.visited (by simp [hcall])
  refine ⟨h.coherent.lookup name, ?_, ?_, ?_, ?_⟩
  · rw [hlookups]
    exact List.nodup_cons.2 ⟨h.new hcall, h.nodup⟩
  · rw [hlookups]
    exact fun other hother => (hvisited other hother).1
  · intro hopen other hother
    obtain ⟨entry, hentry, hcontext, -⟩ := State.lookup_open hopen
    rw [hcontext, visited_visit]
    rw [hlookups] at hother
    rcases List.mem_cons.1 hother with rfl | hother
    · refine ⟨?_, by simp⟩
      rw [h.coherent.entry] at hentry
      exact Option.isSome_iff_exists.2 ⟨entry, hentry⟩
    · exact ⟨(hvisited other hother).1, by simp [(hvisited other hother).2]⟩
  · intro next hnext
    rw [hlookups]
    exact hback next (State.lookup_search hnext)

theorem Straight.step {s₀ s s' : State ρ} {e : Event} (h : Straight client s₀ s) (hback : NoWayBack client s e)
    (hstep : step client s e = some s') : Straight client s₀ s' := by
  rcases step_eq_some hstep with ⟨name, rfl, hcall, rfl⟩ | ⟨random, branches, refs, rfl, hcall, rfl | ⟨hrandom, rfl⟩⟩
  · simp only [NoWayBack, hcall] at hback
    exact h.lookup hcall hback
  · exact h
  · have hvisited := h.visited (by simp [hcall])
    refine ⟨h.coherent.step hstep, h.nodup, h.tail, fun _ => hvisited, ?_⟩
    intro name hname hmem
    cases hname
    have hnot := h.coherent.not_visited hcall hrandom
    rw [(hvisited _ hmem).2] at hnot
    cases hnot

/-! ## Names that can be resolved -/

theorem location_injective (domain : String) : Function.Injective (location · domain) := by
  have hlonger : ∀ subdomain : String, subdomain ++ "." ++ domain ≠ domain := by
    intro subdomain h
    have hlength := congrArg String.length h
    rw [String.length_append, String.length_append] at hlength
    have hdot : ".".length = 1 := rfl
    omega
  intro a b h
  simp only [location] at h
  split at h <;> split at h
  · simpa [← String.toList_inj] using h
  · exact absurd h (hlonger a)
  · exact absurd h.symm (hlonger b)
  · rename_i ha hb
    rw [not_not] at ha hb
    rw [ha, hb]

/-- A name that can be resolved is in the cache, or its location is in the zone. -/
theorem mem_of_resolvable {s : State ρ} {name : String} (h : name ∈ s.resolvable client) :
    name ∈ s.cache.keys ∨ location name s.context.domain ∈ client.zone.keys := by
  obtain ⟨entry, hentry⟩ := Option.isSome_iff_exists.1 h
  unfold State.entry at hentry
  split at hentry
  · rename_i cache hrecord
    by_cases hcached : (s.cache.get name).isSome
    · exact Or.inl (Map.mem_keys_iff.2 (Option.isSome_iff_ne_none.1 hcached))
    · right
      rw [Option.not_isSome_iff_eq_none] at hcached
      have hquery : query client s.cache s.context name = .ok (.own entry, cache) := by
        cases hentry
        unfold getTXTRecord Dictionary.get at hrecord
        rw [hcached] at hrecord
        simp only at hrecord
        split at hrecord
        · exact hrecord
        · exact hrecord
        · rename_i hget
          split at hget
          · cases hget
            cases hrecord
          · cases hget
      obtain ⟨response, hresponse, -⟩ := bind_eq_ok.1 hquery
      unfold Client.resolveTXT at hresponse
      split at hresponse
      · rename_i hget
        exact Map.mem_keys_iff.2 (by simp [hget])
      · cases hresponse
  · cases hentry

theorem finite_resolvable (client : Client ρ) (s : State ρ) : (s.resolvable client).Finite := by
  refine Set.Finite.subset (Set.Finite.union (List.finite_toSet s.cache.keys)
    (Set.Finite.preimage (location_injective s.context.domain).injOn (List.finite_toSet client.zone.keys))) ?_
  intro name hname
  exact mem_of_resolvable hname

theorem Straight.length_le {s₀ s : State ρ} (h : Straight client s₀ s) :
    s.lookups.length ≤ (s₀.resolvable client).ncard + 1 := by
  have htail : s.lookups.tail.toFinset.card ≤ (s₀.resolvable client).ncard := by
    rw [← Set.ncard_coe_finset]
    refine Set.ncard_le_ncard (fun name hname => h.tail name ?_) (finite_resolvable client s₀)
    simpa using hname
  rw [List.toFinset_card_of_nodup (h.nodup.sublist (List.tail_sublist _)), List.length_tail] at htail
  omega

/-! ## Chains of root entries -/

namespace State

/-- The name after so many verified root entries. -/
def rootAfter (client : Client ρ) (s : State ρ) : ℕ → String → Option String
  | 0, name => some name
  | k + 1, name => (s.rootNext client name).bind (s.rootAfter client k)

/-- The chain of verified root entries from this name never ends. -/
def Endless (client : Client ρ) (s : State ρ) (name : String) : Prop := ∀ k, (s.rootAfter client k name).isSome

/-- How many lookups the chain of verified root entries from this name takes, if it ends. -/
noncomputable def chain (client : Client ρ) (s : State ρ) (name : String) : ℕ :=
  sInf {k | s.rootAfter client k name = none}

theorem rootAfter_congr {s s' : State ρ} (h : s'.rootNext client = s.rootNext client) (k : ℕ) (name : String) :
    s'.rootAfter client k name = s.rootAfter client k name := by
  induction k generalizing name with
  | zero => rfl
  | succ k ih =>
    rw [rootAfter, rootAfter, h]
    cases s.rootNext client name with
    | none => rfl
    | some next => exact ih next

theorem endless_congr {s s' : State ρ} (h : s'.rootNext client = s.rootNext client) (name : String) :
    s'.Endless client name ↔ s.Endless client name :=
  forall_congr' fun k => by rw [rootAfter_congr h]

theorem rootAfter_chain {s : State ρ} {name : String} (h : ¬s.Endless client name) :
    s.rootAfter client (s.chain client name) name = none := by
  obtain ⟨k, hk⟩ := not_forall.1 h
  have hnone : s.rootAfter client k name = none := Option.not_isSome_iff_eq_none.1 hk
  exact Nat.sInf_mem (s := {k | s.rootAfter client k name = none}) ⟨k, hnone⟩

/-- A chain that ends takes a lookup. -/
theorem chain_pos {s : State ρ} {name : String} (h : ¬s.Endless client name) : 0 < s.chain client name := by
  rcases Nat.eq_zero_or_pos (s.chain client name) with hzero | hpos
  · have hnone := rootAfter_chain h
    rw [hzero] at hnone
    cases hnone
  · exact hpos

/-- A verified root entry is one lookup of the chain. -/
theorem chain_lt {s : State ρ} {name next : String} (h : ¬s.Endless client name)
    (hnext : s.rootNext client name = some next) : s.chain client next < s.chain client name := by
  obtain ⟨k, hk⟩ : ∃ k, s.chain client name = k + 1 := ⟨_, (Nat.succ_pred_eq_of_pos (chain_pos h)).symm⟩
  have hnone := rootAfter_chain h
  rw [hk, rootAfter, hnext, Option.bind_some] at hnone
  have hle : s.chain client next ≤ k := Nat.sInf_le hnone
  omega

end State

/-! ## The lookups that are left -/

section

variable (client : Client ρ) (names : Finset String)

/-- The names of a set that were not visited. -/
def unseen (s : State ρ) : Finset String := names.filter fun name => !s.context.visited name

/-- The length of the longest chain from these names. -/
noncomputable def longest (s : State ρ) : ℕ := names.sup (s.chain client)

/-- How many lookups a search has left, at most: the chain it is in, and a longest chain for each name not visited. -/
noncomputable def remaining (s₀ s : State ρ) : ℕ :=
  match s.call with
  | .search name => ((unseen names s).erase name).card * (longest client names s₀ + 3) +
      if name ∈ names then s₀.chain client name + 1 else 1
  | .select _ _ => (unseen names s).card * (longest client names s₀ + 3) + 1
  | .settled _ => 0

variable {client names} {s₀ s s' : State ρ}

theorem chain_le_longest (client : Client ρ) (s₀ : State ρ) {name : String} (h : name ∈ names) :
    s₀.chain client name ≤ longest client names s₀ :=
  Finset.le_sup (f := s₀.chain client) h

theorem unseen_visit (s : State ρ) (s' : State ρ) {name : String} (h : s'.context = s.visit name) :
    unseen names s' = (unseen names s).erase name := by
  ext other
  rw [unseen, unseen, Finset.mem_erase, Finset.mem_filter, Finset.mem_filter, h, visited_visit]
  simp only [Bool.not_or, Bool.and_eq_true, Bool.not_eq_true', decide_eq_false_iff_not]
  tauto

/-- A lookup leaves one less. -/
theorem remaining_lookup (h : Coherent client s₀ s) (hnames : s₀.resolvable client ⊆ names) {name : String}
    (hcall : s.call = .search name) (hend : ¬s₀.Endless client name) :
    remaining client names s₀ (s.lookup client name) + 1 ≤ remaining client names s₀ s := by
  have hnow : remaining client names s₀ s = ((unseen names s).erase name).card * (longest client names s₀ + 3) +
      if name ∈ names then s₀.chain client name + 1 else 1 := by
    rw [remaining, hcall]
  have hfound : (∀ result, (s.lookup client name).call ≠ .settled result) →
      name ∈ names ∧ unseen names (s.lookup client name) = (unseen names s).erase name := by
    intro hopen
    obtain ⟨entry, hentry, hcontext, -⟩ := State.lookup_open hopen
    rw [h.entry] at hentry
    exact ⟨hnames (Option.isSome_iff_exists.2 ⟨entry, hentry⟩), unseen_visit s _ hcontext⟩
  rw [hnow]
  cases hnext : (s.lookup client name).call with
  | settled result =>
    rw [remaining, hnext]
    simp only
    split <;> omega
  | select branches refs =>
    obtain ⟨hmem, hunseen⟩ := hfound (by simp [hnext])
    have hpos := State.chain_pos hend
    rw [remaining, hnext, if_pos hmem]
    simp only [hunseen]
    omega
  | search next =>
    obtain ⟨hmem, hunseen⟩ := hfound (by simp [hnext])
    have hroot : s₀.rootNext client name = some next := h.rootNext ▸ State.lookup_search hnext
    have hlt := State.chain_lt hend hroot
    have hcard := Nat.mul_le_mul_right (longest client names s₀ + 3)
      (Finset.card_le_card (Finset.erase_subset next ((unseen names s).erase name)))
    rw [remaining, hnext, if_pos hmem]
    simp only [hunseen]
    split <;> omega

/-- A draw that ends the loop leaves no more. -/
theorem remaining_draw (h : Coherent client s₀ s) {branches : List String} {refs : List ℕ} {random : ℕ}
    (hcall : s.call = .select branches refs) (hrandom : random % branches.length ∉ refs) :
    remaining client names s₀ { s with call := .search (branches.getD (random % branches.length) "") } ≤
      remaining client names s₀ s := by
  have hnot := h.not_visited hcall hrandom
  set next := branches.getD (random % branches.length) ""
  have hnow : remaining client names s₀ s = (unseen names s).card * (longest client names s₀ + 3) + 1 := by
    rw [remaining, hcall]
  have hthen : remaining client names s₀ { s with call := .search next } =
      ((unseen names s).erase next).card * (longest client names s₀ + 3) +
        if next ∈ names then s₀.chain client next + 1 else 1 := rfl
  rw [hnow, hthen]
  by_cases hmem : next ∈ names
  · have hunseen : next ∈ unseen names s := Finset.mem_filter.2 ⟨hmem, by rw [hnot]; rfl⟩
    have hchain := chain_le_longest client s₀ hmem
    have hcard : (unseen names s).card = ((unseen names s).erase next).card + 1 :=
      (Finset.card_erase_add_one hunseen).symm
    rw [if_pos hmem, hcard, Nat.add_one_mul]
    omega
  · have hcard := Nat.mul_le_mul_right (longest client names s₀ + 3)
      (Finset.card_le_card (Finset.erase_subset next (unseen names s)))
    rw [if_neg hmem]
    omega

/-- A step that starts no endless chain makes a lookup only if one less is left. -/
theorem remaining_step {e : Event} (h : Coherent client s₀ s) (hnames : s₀.resolvable client ⊆ names)
    (hend : ∀ name, s.call = .search name → ¬s₀.Endless client name) (hstep : step client s e = some s') :
    s'.lookups.length + remaining client names s₀ s' ≤ s.lookups.length + remaining client names s₀ s := by
  rcases step_eq_some hstep with ⟨name, -, hcall, rfl⟩ | ⟨random, branches, refs, -, hcall, rfl | ⟨hrandom, rfl⟩⟩
  · have hlookup := remaining_lookup h hnames hcall (hend name hcall)
    rw [(State.lookup_frame client s name).1, List.length_cons]
    omega
  · exact le_rfl
  · exact Nat.add_le_add_left (remaining_draw h hcall hrandom) _

/-- The lookups made and those left are together no more than were left at the start. -/
structure Within (client : Client ρ) (names : Finset String) (s₀ s : State ρ) : Prop where
  coherent : Coherent client s₀ s
  length_le : s.lookups.length + remaining client names s₀ s ≤ remaining client names s₀ s₀

theorem Within.start (client : Client ρ) (names : Finset String) (cache : Map String String) (context : SearchContext)
    (subdomain : String) :
    Within client names (.start cache context subdomain) (.start cache context subdomain) where
  coherent := Coherent.start client cache context subdomain
  length_le := (Nat.zero_add _).le

theorem Within.step {e : Event} (h : Within client names s₀ s) (hnames : s₀.resolvable client ⊆ names)
    (hend : ∀ name, s.call = .search name → ¬s.Endless client name) (hstep : step client s e = some s') :
    Within client names s₀ s' where
  coherent := h.coherent.step hstep
  length_le := by
    refine (remaining_step h.coherent hnames ?_ hstep).trans h.length_le
    intro name hcall
    rw [← State.endless_congr h.coherent.rootNext name]
    exact hend name hcall

end

/-- An endless chain is followed for as many lookups as one likes. -/
theorem run_endless {s : State ρ} {name : String} (hcall : s.call = .search name) (hend : s.Endless client name)
    (k : ℕ) : ∃ es t, run (step client) s es = some t ∧ t.lookups.length = s.lookups.length + k := by
  induction k generalizing s name with
  | zero => exact ⟨[], s, rfl, rfl⟩
  | succ k ih =>
    obtain ⟨next, hnext⟩ : ∃ next, s.rootNext client name = some next := by
      have hone := hend 1
      rw [State.rootAfter] at hone
      exact (Option.isSome_iff_exists.1 hone).elim fun _ h => (Option.bind_eq_some_iff.1 h).imp fun _ h => h.1
    obtain ⟨hlookups, -, hkey, hentry⟩ := State.lookup_frame client s name
    have hendless : (s.lookup client name).Endless client next := by
      rw [State.endless_congr (State.rootNext_congr hentry hkey)]
      intro j
      have hj := hend (j + 1)
      rw [State.rootAfter, hnext] at hj
      exact hj
    obtain ⟨es, t, hrun, hlength⟩ := ih (State.lookup_of_rootNext hnext) hendless
    refine ⟨.lookup :: es, t, run_cons.2 ⟨s.lookup client name, by simp only [step, hcall], hrun⟩, ?_⟩
    rw [hlength, hlookups, List.length_cons]
    omega

/-- A search that enters no endless chain makes finitely many lookups. -/
theorem finite_lookups {cache : Map String String} {context : SearchContext} {subdomain : String}
    (hend : ∀ es t name, run (step client) (.start cache context subdomain) es = some t → t.call = .search name →
      ¬t.Endless client name) :
    ∃ bound, ∀ es t, run (step client) (.start cache context subdomain) es = some t → t.lookups.length ≤ bound := by
  set s₀ : State ρ := .start cache context subdomain
  set names := (finite_resolvable client s₀).toFinset with hnames
  refine ⟨remaining client names s₀ s₀, ?_⟩
  intro es t hrun
  have hmeets : Meets (step client) (fun s _ => ∀ name, s.call = .search name → ¬s.Endless client name) s₀ es :=
    meets_iff.2 fun es₁ e es₂ s _ hrun₁ name hcall => hend es₁ s name hrun₁ hcall
  have hsub : s₀.resolvable client ⊆ names := by
    rw [hnames]
    simp
  have hle := (run_invariant_of_meets (fun s e s' h hopen hstep => Within.step h hsub hopen hstep) es
    (Within.start client names cache context subdomain) hmeets hrun).length_le
  omega

/-- **The lookups of a search**: at most one more than names can be resolved, as long as no verified root entry leads
back to a name already looked up; and finitely many if and only if no endless chain of verified root entries is
entered. -/
theorem search_lookups (client : Client ρ) (cache : Map String String) (context : SearchContext) (subdomain : String) :
    (∀ es t, Meets (step client) (NoWayBack client) (.start cache context subdomain) es →
      run (step client) (.start cache context subdomain) es = some t →
      t.lookups.length ≤ ((State.start cache context subdomain).resolvable client).ncard + 1) ∧
    ((∃ bound, ∀ es t, run (step client) (.start cache context subdomain) es = some t → t.lookups.length ≤ bound) ↔
      ∀ es t name, run (step client) (.start cache context subdomain) es = some t → t.call = .search name →
        ¬t.Endless client name) := by
  refine ⟨?_, ?_, finite_lookups⟩
  · intro es t hmeets hrun
    exact (run_invariant_of_meets (fun s e s' h hC hstep => Straight.step h hC hstep) es
      (Straight.start client cache context subdomain) hmeets hrun).length_le
  · rintro ⟨bound, hbound⟩ es t name hrun hcall hend
    obtain ⟨es', t', hrun', hlength⟩ := run_endless hcall hend (bound + 1)
    have hle := hbound (es ++ es') t' (by rw [run_append, hrun, Option.bind_some, hrun'])
    omega

/-! ## A search that ends and one that does not -/

/-- The entry of a zone is found when nothing is cached. -/
theorem entry_start (client : Client ρ) (context : SearchContext) {name text : String}
    (hzone : client.zone.get (location name context.domain) = some [text]) (htext : text ≠ "")
    (hname : objectPrototype.contains name = false) :
    (State.start Map.empty context context.domain : State ρ).entry client name = some text := by
  have hget : Dictionary.get (Map.empty : Map String String) name = none := by
    unfold Dictionary.get
    rw [hname]
    rfl
  have hjoin : String.join [text] = text := by
    rw [← String.toList_inj, String.toList_join]
    simp
  unfold State.entry getTXTRecord
  simp only [State.start, hget]
  unfold query Client.resolveTXT
  rw [hzone]
  simp only [pure_bind, if_neg htext, hjoin]
  rfl

/-- A client for a zone, with the root entry and the records of the sample tree. -/
def sampleClient (zone : Map String (List String)) : Client Enr.ENR where
  zone
  verifyRoot := verifyRoot sampleEnv
  fromString := fromString sampleEnv

/-- A search context for the sample tree. -/
def sampleContext : SearchContext := ⟨"nodes.example.org", samplePublicKey, Map.empty⟩

/-- Where the zone has the root entry, it is followed. -/
theorem rootNext_sample {zone : Map String (List String)} (name : String)
    (hzone : zone.get (location name "nodes.example.org") = some [sampleRoot])
    (hname : objectPrototype.contains name = false) :
    (State.start Map.empty sampleContext "nodes.example.org").rootNext (sampleClient zone) name = some sampleName := by
  have htext : sampleRoot ≠ "" := by
    rw [Ne, ← String.toList_inj, toList_sampleRoot]
    decide +kernel
  exact State.rootNext_eq_some.2 ⟨sampleRoot, entry_start (sampleClient zone) sampleContext hzone htext hname,
    if_pos startsWith_sampleRoot, parseAndVerifyRoot_sampleRoot⟩

/-- A search that starts at a branch of two names that cannot be resolved makes two lookups. -/
theorem search_lookups_branch :
    let client := sampleClient ⟨[("nodes.example.org", ["enrtree-branch:A", ",B"])], by decide⟩
    let start : State Enr.ENR := .start Map.empty sampleContext "nodes.example.org"
    (run (step client) start [.lookup, .draw 1, .lookup]).any fun t =>
      t.lookups = ["B", "nodes.example.org"] ∧ t.lookups.length ≤ (start.resolvable client).ncard + 1 := by
  intro client start
  have hlookups : ∀ t ∈ run (step client) start [.lookup, .draw 1, .lookup], t.lookups = ["B", "nodes.example.org"] := by
    decide +kernel
  have hrun : (run (step client) start [.lookup, .draw 1, .lookup]).isSome := by decide +kernel
  obtain ⟨t, ht⟩ := Option.isSome_iff_exists.1 hrun
  have hle := (search_lookups client Map.empty sampleContext "nodes.example.org").1 _ t (by decide +kernel) ht
  rw [ht, Option.any_some]
  exact decide_eq_true ⟨hlookups t ht, hle⟩

/-- A zone in which the root entry is also given for the name that it leads to. -/
def replayedZone : Map String (List String) :=
  ⟨[("nodes.example.org", [sampleRoot]), ("JORXBYVVM7AEKETX5DGXW44EAY.nodes.example.org", [sampleRoot])], by decide⟩

/-- In this zone a search does not end. -/
theorem search_replayed : ¬∀ (client : Client Enr.ENR) (cache : Map String String) (context : SearchContext)
    (subdomain : String), ∃ bound, ∀ es t, run (step client) (.start cache context subdomain) es = some t →
      t.lookups.length ≤ bound := by
  intro hall
  obtain ⟨bound, hbound⟩ := hall (sampleClient replayedZone) Map.empty sampleContext "nodes.example.org"
  set s₀ : State Enr.ENR := .start Map.empty sampleContext "nodes.example.org"
  have hroot : s₀.rootNext (sampleClient replayedZone) "nodes.example.org" = some sampleName :=
    rootNext_sample _ rfl (by decide)
  have hname : s₀.rootNext (sampleClient replayedZone) sampleName = some sampleName :=
    rootNext_sample _ rfl (by decide)
  have hagain : s₀.Endless (sampleClient replayedZone) sampleName := by
    intro k
    induction k with
    | zero => rfl
    | succ k ih =>
      rw [State.rootAfter, hname]
      exact ih
  have hend : s₀.Endless (sampleClient replayedZone) "nodes.example.org"
    | 0 => rfl
    | k + 1 => by
      rw [State.rootAfter, hroot]
      exact hagain k
  obtain ⟨es, t, hrun, hlength⟩ := run_endless rfl hend (bound + 1)
  have hle := hbound es t hrun
  omega

end JsWaku.Discovery
