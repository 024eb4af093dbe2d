import JsWaku.Discovery.Lookups
import JsWaku.Discovery.Traversal

/-!
# Which records repeated searches find

A search marks a branch as visited when it crosses it, although records below it may be left. The top branch is crossed
in every search, since a root entry is followed unconditionally, but no search enters another branch a second time: each
entry of the top branch gives one record, and repeated searches find all records if and only if it leads to no others
(`search_covers_iff`).
-/

namespace JsWaku.Discovery

open Transition

variable {ρ : Type} {client : Client ρ} {s : State ρ} {tree : DnsTree ρ}

/-! ## Repeated searches -/

/-- What `_search` comes to. -/
abbrev Result (ρ : Type) := Except JsError (Option ρ)

/-- `_search(domain, context)` is called once more. -/
def State.again (s : State ρ) (domain : String) : State ρ := .start s.cache s.context domain

/-- The results of searches made one after another, the last one first, and the state after them. -/
inductive Session (client : Client ρ) (domain : String) (s₀ : State ρ) : List (Result ρ) → State ρ → Prop
  | start : Session client domain s₀ [] s₀
  | call {results : List (Result ρ)} {s t : State ρ} {es : List Event} {result : Result ρ}
    (h : Session client domain s₀ results s) (hrun : run (step client) (s.again domain) es = some t)
    (hcall : t.call = .settled result) : Session client domain s₀ (result :: results) t

/-- The next search makes finitely many lookups, can always return, and returns a record that is not among the
results. -/
structure ReturnsNew (client : Client ρ) (domain : String) (results : List (Result ρ)) (s : State ρ) : Prop where
  finite : ∃ bound, ∀ es t, run (step client) (s.again domain) es = some t → t.lookups.length ≤ bound
  settles : ∀ es t, run (step client) (s.again domain) es = some t → Settles client t
  new : ∀ es t result, run (step client) (s.again domain) es = some t → t.call = .settled result →
    ∃ enr, result = .ok (some enr) ∧ .ok (some enr) ∉ results

/-- Repeated searches return new records as long as one is left. -/
def Covers (client : Client ρ) (tree : DnsTree ρ) (s₀ : State ρ) : Prop :=
  ∀ results s, Session client tree.domain s₀ results s → (∃ enr ∈ tree.top.leaves, .ok (some enr) ∉ results) →
    ReturnsNew client tree.domain results s

theorem disjoint_of_nodup_flatMap {α β : Type} {f : α → List β} {l : List α} {a b : α} (h : (l.flatMap f).Nodup)
    (ha : a ∈ l) (hb : b ∈ l) (hne : a ≠ b) : List.Disjoint (f a) (f b) := by
  have hsymm : Std.Symm (Function.onFun List.Disjoint f) := ⟨fun _ _ h => h.symm⟩
  exact (List.nodup_flatMap.1 h).2.forall ha hb hne

/-- Different trees below the top have no names and no records in common. -/
theorem DnsTree.disjoint {child other : Tree ρ} (hchild : child ∈ tree.top.children)
    (hother : other ∈ tree.top.children) (hne : child ≠ other) :
    List.Disjoint child.names other.names ∧ List.Disjoint child.leaves other.leaves := by
  have hnames := (List.nodup_cons.1 tree.nodup).2
  rw [Tree.names_eq] at hnames
  have hleaves := tree.distinct
  rw [Tree.leaves_eq] at hleaves
  exact ⟨disjoint_of_nodup_flatMap (List.nodup_cons.1 hnames).2 hchild hother hne,
    disjoint_of_nodup_flatMap (List.nodup_append.1 hleaves).2.1 hchild hother hne⟩

/-- What holds between searches: a tree below the top that was entered has given one record, the others none. -/
structure Kept (client : Client ρ) (tree : DnsTree ρ) (results : List (Result ρ)) (s : State ρ) : Prop where
  served : tree.Served client s
  intact : Intact tree s
  fresh : ∀ child ∈ tree.top.children, s.context.visited child.name = false →
    ∀ enr ∈ child.leaves, .ok (some enr) ∉ results
  taken : ∀ child ∈ tree.top.children, s.context.visited child.name →
    ∃ enr ∈ child.leaves, .ok (some enr) ∈ results ∧ ∀ other ∈ child.leaves, .ok (some other) ∈ results → other = enr

theorem Coherent.again (client : Client ρ) (s : State ρ) (domain : String) : Coherent client s (s.again domain) :=
  ⟨State.entry_congr rfl rfl, rfl, rfl, fun h => nomatch h⟩

section

variable {results : List (Result ρ)} {es : List Event} {t : State ρ}

theorem Kept.again (h : Kept client tree results s) (domain : String) : Kept client tree results (s.again domain) :=
  ⟨h.served.congr (Coherent.again client s domain), h.intact, h.fresh, h.taken⟩

/-- A search that finds all trees entered changes nothing. -/
theorem Kept.exhausted (h : Kept client tree results s) (hserved : tree.Served client t)
    (hvisits : Visits s t [tree.top.name, tree.domain])
    (hall : ∀ child ∈ tree.top.children, s.context.visited child.name) : Kept client tree (.ok none :: results) t := by
  have hvisited : ∀ child ∈ tree.top.children, t.context.visited child.name := by
    intro child hchild
    exact hvisits.kept (hall child hchild)
  refine ⟨hserved, fun child hchild => Or.inl (hvisited child hchild), ?_, ?_⟩
  · intro child hchild hnew
    rw [hvisited child hchild] at hnew
    cases hnew
  · intro child hchild _
    obtain ⟨enr, hleaf, hmem, honly⟩ := h.taken child hchild (hall child hchild)
    refine ⟨enr, hleaf, List.mem_cons_of_mem _ hmem, ?_⟩
    intro other hother hres
    exact honly other hother ((List.mem_cons.1 hres).resolve_left (by simp))

/-- A search that enters one more tree gives one of its records. -/
theorem Kept.within {top : Tree ρ} {enr : ρ} (h : Kept client tree results s) (hserved : tree.Served client t)
    (htop : top ∈ tree.top.children) (hnew : s.context.visited top.name = false)
    (hvisits : Visits s t (top.names ++ [tree.top.name, tree.domain])) (hleaf : enr ∈ top.leaves)
    (hentered : t.context.visited top.name) : Kept client tree (.ok (some enr) :: results) t := by
  have hnames : ∀ child ∈ tree.top.children, child ≠ top → s.context.visited child.name = false →
      ∀ name ∈ child.names, t.context.visited name = false := by
    intro child hchild hne hbefore
    apply h.intact.not_visited hvisits hchild hbefore
    exact List.disjoint_append_right.2 ⟨(DnsTree.disjoint hchild htop hne).1, tree.disjoint_upper hchild⟩
  have hleaves : ∀ child ∈ tree.top.children, child ≠ top → ∀ other ∈ child.leaves,
      .ok (some other) ∈ Except.ok (some enr) :: results → .ok (some other) ∈ results := by
    intro child hchild hne other hother hres
    rcases List.mem_cons.1 hres with heq | hres
    · cases heq
      exact absurd hleaf ((DnsTree.disjoint hchild htop hne).2 hother)
    · exact hres
  refine ⟨hserved, ?_, ?_, ?_⟩
  · intro child hchild
    rcases eq_or_ne child top with rfl | hne
    · exact Or.inl hentered
    · rcases h.intact child hchild with hbefore | hnone
      · exact Or.inl (hvisits.kept hbefore)
      · exact Or.inr (hnames child hchild hne (hnone _ child.name_mem_names))
  · intro child hchild hnot other hother hres
    rcases eq_or_ne child top with rfl | hne
    · rw [hentered] at hnot
      cases hnot
    · have hbefore := hvisits.not_visited_before hnot
      exact h.fresh child hchild hbefore other hother (hleaves child hchild hne other hother hres)
  · intro child hchild hvisited
    rcases eq_or_ne child top with rfl | hne
    · refine ⟨enr, hleaf, List.mem_cons_self, ?_⟩
      intro other hother hres
      rcases List.mem_cons.1 hres with heq | hres
      · cases heq
        rfl
      · exact absurd hres (h.fresh child hchild hnew other hother)
    · have hbefore : s.context.visited child.name := by
        by_contra hnot
        rw [hnames child hchild hne (Bool.eq_false_of_not_eq_true hnot) _ child.name_mem_names] at hvisited
        cases hvisited
      obtain ⟨enr', hleaf', hmem, honly⟩ := h.taken child hchild hbefore
      refine ⟨enr', hleaf', List.mem_cons_of_mem _ hmem, ?_⟩
      intro other hother hres
      exact honly other hother (hleaves child hchild hne other hother hres)

/-- Where a repeated search stands. -/
theorem Kept.stage (h : Kept client tree results s)
    (hrun : run (step client) (s.again tree.domain) es = some t) :
    Stage tree (s.again tree.domain) t ∧ Coherent client (s.again tree.domain) t := by
  have hserved : tree.Served client (s.again tree.domain) := (h.again tree.domain).served
  refine run_invariant (P := fun t => Stage tree (s.again tree.domain) t ∧ Coherent client (s.again tree.domain) t)
    ?_ es ⟨.root rfl (Visits.refl _), Coherent.start client s.cache s.context tree.domain⟩ hrun
  rintro t e t' ⟨hstage, hcoherent⟩ hstep
  exact ⟨hstage.step h.intact hserved hcoherent hstep, hcoherent.step hstep⟩

theorem Kept.served_then (h : Kept client tree results s)
    (hrun : run (step client) (s.again tree.domain) es = some t) : tree.Served client t :=
  (h.again tree.domain).served.congr (h.stage hrun).2

theorem Kept.call {result : Result ρ} (h : Kept client tree results s)
    (hrun : run (step client) (s.again tree.domain) es = some t) (hcall : t.call = .settled result) :
    Kept client tree (result :: results) t := by
  have hserved := h.served_then hrun
  cases (h.stage hrun).1.outcome hcall with
  | exhausted hvisits _ hall => exact (h.again tree.domain).exhausted hserved hvisits hall
  | within child enr hchild hnew hvisits hleaf hentered =>
    exact (h.again tree.domain).within hserved hchild hnew hvisits hleaf hentered
  | record enr htop =>
    -- A record has nothing below it.
    have hnone : tree.top.children = [] := Tree.children_of_enr? htop
    refine ⟨hserved, ?_, ?_, ?_⟩ <;> intro child hchild <;> rw [hnone] at hchild <;> cases hchild

/-! ## All records -/

theorem State.not_endless_of_rootNext {name : String} (h : s.rootNext client name = none) :
    ¬s.Endless client name := by
  intro hend
  have hone := hend 1
  rw [State.rootAfter, h] at hone
  cases hone

/-- Repeated searches come to no endless chain. -/
theorem Kept.not_endless {name : String} (h : Kept client tree results s)
    (hrun : run (step client) (s.again tree.domain) es = some t) (hcall : t.call = .search name) :
    ¬t.Endless client name := by
  have hserved := h.served_then hrun
  have hsub : ∀ sub ∈ tree.top.subtrees, ¬t.Endless client sub.name := fun sub hsub =>
    State.not_endless_of_rootNext (hserved.entries sub hsub).rootNext
  rcases (h.stage hrun).1.search_name hcall with rfl | ⟨sub, hmem, rfl⟩
  · intro hend
    apply hsub tree.top tree.top.self_mem_subtrees
    intro k
    have hnext := hend (k + 1)
    rw [State.rootAfter, hserved.root] at hnext
    exact hnext
  · exact hsub sub hmem

theorem Kept.settles (h : Kept client tree results s) (hrun : run (step client) (s.again tree.domain) es = some t) :
    Settles client t := by
  obtain ⟨hstage, hcoherent⟩ := h.stage hrun
  exact hstage.settles h.intact (h.again tree.domain).served hcoherent

/-- The search can be made, and what it comes to. -/
theorem Kept.exists_outcome (h : Kept client tree results s) : ∃ es t result,
    run (step client) (s.again tree.domain) es = some t ∧ t.call = .settled result ∧
      Outcome tree (s.again tree.domain) t result := by
  have hagain : run (step client) (s.again tree.domain) [] = some (s.again tree.domain) := rfl
  obtain ⟨es, t, result, hrun, hcall⟩ := h.settles hagain
  exact ⟨es, t, result, hrun, hcall, (h.stage hrun).1.outcome hcall⟩

end

/-- The search context of a new discovery. -/
def DnsTree.context (tree : DnsTree ρ) (publicKey : String) : SearchContext := ⟨tree.domain, publicKey, Map.empty⟩

theorem not_visited_empty {name : String} (h : name.toList.all isBase32) (domain publicKey : String) :
    SearchContext.visited ⟨domain, publicKey, Map.empty⟩ name = false := by
  have hinherited : ∀ key ∈ objectPrototype, ¬key.toList.all isBase32 := by decide
  have hname : objectPrototype.contains name = false := by
    rw [List.contains_eq_mem, decide_eq_false_iff_not]
    exact fun hmem => hinherited name hmem h
  have hget : Dictionary.get (Map.empty : Map String Bool) name = none := by
    unfold Dictionary.get
    rw [hname]
    rfl
  unfold SearchContext.visited
  rw [hget]

section

variable {cache : Map String String} {publicKey : String} {results : List (Result ρ)}

theorem Session.kept (hserved : tree.Served client (.start cache (tree.context publicKey) tree.domain))
    (h : Session client tree.domain (.start cache (tree.context publicKey) tree.domain) results s) :
    Kept client tree results s := by
  induction h with
  | call h hrun hcall ih => exact ih.call hrun hcall
  | start =>
    have hnew : ∀ child ∈ tree.top.children, ∀ name ∈ child.names,
        (tree.context publicKey).visited name = false := by
      intro child hchild name hname
      exact not_visited_empty (tree.base32 name (Tree.mem_names_of_mem_children hchild hname)) _ _
    refine ⟨hserved, fun child hchild => Or.inr (hnew child hchild), fun _ _ _ _ _ => List.not_mem_nil, ?_⟩
    intro child hchild hvisited
    cases (hnew child hchild _ child.name_mem_names).symm.trans hvisited

/-- A tree that is a record gives this record in each search. -/
theorem Session.record (hserved : tree.Served client (.start cache (tree.context publicKey) tree.domain)) {enr : ρ}
    (htop : tree.top.enr? = some enr)
    (h : Session client tree.domain (.start cache (tree.context publicKey) tree.domain) results s) :
    ∀ result ∈ results, result = .ok (some enr) := by
  induction h with
  | start => exact fun _ hmem => nomatch hmem
  | call h hrun hcall ih =>
    rintro result (_ | ⟨_, hmem⟩)
    · cases ((h.kept hserved).stage hrun).1.outcome hcall with
      | record enr' htop' =>
        cases htop.symm.trans htop'
        rfl
      | exhausted _ htop' => cases htop.symm.trans htop'
      | within child enr' hchild =>
        rw [Tree.children_of_enr? htop] at hchild
        cases hchild
    · exact ih result hmem

/-- Where each entry of the top branch leads to one record, all are found. -/
theorem covers_of_one (hserved : tree.Served client (.start cache (tree.context publicKey) tree.domain))
    (hone : ∀ child ∈ tree.top.children, child.leaves.length = 1) :
    Covers client tree (.start cache (tree.context publicKey) tree.domain) := by
  rintro results s hsession ⟨enr, hleaf, hnot⟩
  have hkept := hsession.kept hserved
  refine ⟨finite_lookups fun es t name hrun hcall => hkept.not_endless hrun hcall,
    fun es t hrun => hkept.settles hrun, ?_⟩
  intro es t result hrun hcall
  cases (hkept.stage hrun).1.outcome hcall with
  | record enr' htop =>
    refine ⟨enr', rfl, ?_⟩
    rw [Tree.leaves_eq, htop, Tree.children_of_enr? htop] at hleaf
    have heq : enr = enr' := by simpa using hleaf
    exact heq ▸ hnot
  | exhausted _ htop hall =>
    rw [Tree.leaves_eq, htop] at hleaf
    obtain ⟨child, hchild, hmem⟩ := List.mem_flatMap.1 hleaf
    obtain ⟨enr', hleaf', hres, -⟩ := hkept.taken child hchild (hall child hchild)
    obtain ⟨only, honly⟩ := List.length_eq_one_iff.1 (hone child hchild)
    rw [honly, List.mem_singleton] at hmem hleaf'
    exact absurd (hmem ▸ hleaf' ▸ hres) hnot
  | within child enr' hchild hnew _ hleaf' =>
    exact ⟨enr', rfl, hkept.fresh child hchild hnew enr' hleaf'⟩

theorem countP_lt_countP {α : Type} {p q : α → Bool} {l : List α} {a : α} (h : ∀ b ∈ l, p b → q b) (ha : a ∈ l)
    (hp : p a = false) (hq : q a = true) : l.countP p < l.countP q := by
  obtain ⟨l₁, l₂, rfl⟩ := List.append_of_mem ha
  have h₁ : l₁.countP p ≤ l₁.countP q := List.countP_mono_left fun b hb => h b (List.mem_append_left _ hb)
  have h₂ : l₂.countP p ≤ l₂.countP q :=
    List.countP_mono_left fun b hb => h b (List.mem_append_right _ (List.mem_cons_of_mem _ hb))
  rw [List.countP_append, List.countP_append, List.countP_cons, List.countP_cons, hp, hq]
  rw [if_neg Bool.false_ne_true, if_pos rfl]
  omega

/-- Searches can be repeated until each tree below the top was entered. -/
theorem exists_all_entered (hserved : tree.Served client (.start cache (tree.context publicKey) tree.domain))
    (h : Session client tree.domain (.start cache (tree.context publicKey) tree.domain) results s) :
    ∃ results' s', Session client tree.domain (.start cache (tree.context publicKey) tree.domain) results' s' ∧
      ∀ child ∈ tree.top.children, s'.context.visited child.name := by
  induction hcount : tree.top.children.countP (fun child => !s.context.visited child.name) using
    Nat.strong_induction_on generalizing results s with
  | _ count ih =>
    by_cases hall : ∀ child ∈ tree.top.children, s.context.visited child.name
    · exact ⟨results, s, h, hall⟩
    · obtain ⟨es, t, result, hrun, hcall, houtcome⟩ := (h.kept hserved).exists_outcome
      have hthen := Session.call h hrun hcall
      cases houtcome with
      | record enr htop => exact absurd (by simp [Tree.children_of_enr? htop]) hall
      | exhausted _ _ hall' => exact absurd hall' hall
      | within child enr hchild hnew hvisits hleaf hentered =>
        refine ih _ ?_ hthen rfl
        rw [← hcount]
        refine countP_lt_countP (fun other _ hother => ?_) hchild (by rw [hentered]; rfl) (congrArg (!·) hnew)
        have hbefore := hvisits.not_visited_before (by simpa using hother)
        exact congrArg (!·) hbefore

/-- Where an entry of the top branch leads to several records, some are not found. -/
theorem not_covers (hserved : tree.Served client (.start cache (tree.context publicKey) tree.domain)) {child : Tree ρ}
    (hchild : child ∈ tree.top.children) (hseveral : child.leaves.length ≠ 1) :
    ¬Covers client tree (.start cache (tree.context publicKey) tree.domain) := by
  intro hcovers
  obtain ⟨results, s, hsession, hall⟩ := exists_all_entered hserved (Session.start)
  have hkept := hsession.kept hserved
  obtain ⟨enr, hleaf, -, honly⟩ := hkept.taken child hchild (hall child hchild)
  have hsub := Tree.mem_subtrees_of_mem_children hchild
  obtain ⟨other, hother, hne⟩ : ∃ other ∈ child.leaves, other ≠ enr := by
    by_contra hnone
    have hrepeat : ∀ other ∈ child.leaves, other = enr := fun other hother => by
      by_contra hne
      exact hnone ⟨other, hother, hne⟩
    have hnodup := tree.distinct.sublist (Tree.leaves_sublist hsub)
    rw [List.eq_replicate_of_mem hrepeat, List.nodup_replicate] at hnodup
    have hpos := List.length_pos_of_mem hleaf
    omega
  have hnot : .ok (some other) ∉ results := fun hres => hne (honly other hother hres)
  have hnew := hcovers results s hsession ⟨other, (Tree.leaves_sublist hsub).mem hother, hnot⟩
  obtain ⟨es, t, result, hrun, hcall, houtcome⟩ := hkept.exists_outcome
  obtain ⟨enr', rfl, -⟩ := hnew.new es t result hrun hcall
  cases houtcome with
  | record enr htop =>
    rw [Tree.children_of_enr? htop] at hchild
    cases hchild
  | within child' enr hchild' hnew' => cases (hall child' hchild').symm.trans hnew'

/-- **Repeated searches find all records of a tree** if and only if each entry of the top branch leads to one record. -/
theorem search_covers_iff (client : Client ρ) (tree : DnsTree ρ) (cache : Map String String) (publicKey : String)
    (hserved : tree.Served client (.start cache (tree.context publicKey) tree.domain)) :
    Covers client tree (.start cache (tree.context publicKey) tree.domain) ↔
      ∀ child ∈ tree.top.children, child.leaves.length = 1 := by
  constructor
  · intro hcovers child hchild
    by_contra hseveral
    exact not_covers hserved hchild hseveral hcovers
  · exact covers_of_one hserved

end

/-! ## Two trees of two records -/

/-- The zone of a tree of the two records, with these names in the top branch and in a branch `C`. -/
def sampleZone (top inner : List String) : Map String (List String) where
  entries := [("nodes.example.org", [sampleRoot]), ("JORXBYVVM7AEKETX5DGXW44EAY.nodes.example.org", [branchEntry top]),
    ("A.nodes.example.org", [RECORD_PREFIX ++ sampleRelay.text]),
    ("B.nodes.example.org", [RECORD_PREFIX ++ sampleStore.text]), ("C.nodes.example.org", [branchEntry inner])]
  nodup := by
    show ["nodes.example.org", "JORXBYVVM7AEKETX5DGXW44EAY.nodes.example.org", "A.nodes.example.org",
      "B.nodes.example.org", "C.nodes.example.org"].Nodup
    decide

/-- A tree whose top branch lists the two records. -/
def flatTree (a b : Enr.ENR) (h : a ≠ b) : DnsTree Enr.ENR where
  domain := "nodes.example.org"
  top := .branch sampleName [.record "A" a, .record "B" b]
  nodup := by
    show ["nodes.example.org", sampleName, "A", "B"].Nodup
    decide
  base32 := by
    show ∀ name ∈ [sampleName, "A", "B"], name.toList.all isBase32
    decide
  nonempty := by simp [Tree.subtrees, Tree.subtreesList, Tree.enr?, Tree.children]
  distinct := by
    show [a, b].Nodup
    simpa using h

/-- A tree whose top branch lists a branch that lists the two records. -/
def nestedTree (a b : Enr.ENR) (h : a ≠ b) : DnsTree Enr.ENR where
  domain := "nodes.example.org"
  top := .branch sampleName [.branch "C" [.record "A" a, .record "B" b]]
  nodup := by
    show ["nodes.example.org", sampleName, "C", "A", "B"].Nodup
    decide
  base32 := by
    show ∀ name ∈ [sampleName, "C", "A", "B"], name.toList.all isBase32
    decide
  nonempty := by simp [Tree.subtrees, Tree.subtreesList, Tree.enr?, Tree.children]
  distinct := by
    show [a, b].Nodup
    simpa using h

/-- The two records are decoded to different ones. -/
theorem exists_sampleEnrs : ∃ a b, a ≠ b ∧ sampleRelay.enr = .ok a ∧ sampleStore.enr = .ok b := by
  obtain ⟨a, ha⟩ := exists_of_toBool (x := sampleRelay.enr) (by decide +kernel)
  obtain ⟨b, hb⟩ := exists_of_toBool (x := sampleStore.enr) (by decide +kernel)
  have hseq : sampleRelay.enr.toOption.map (·.seq) = some 0 ∧ sampleStore.enr.toOption.map (·.seq) = some 1 := by
    decide +kernel
  rw [ha, hb] at hseq
  refine ⟨a, b, ?_, ha, hb⟩
  rintro rfl
  exact absurd (hseq.1.symm.trans hseq.2) (by decide)

/-- A record of the zone is served. -/
theorem served_record {zone : Map String (List String)} {name : String} {r : SampleRecord} {enr : Enr.ENR}
    (hr : r ∈ sampleRecords) (henr : r.enr = .ok enr)
    (hzone : zone.get (location name "nodes.example.org") = some [RECORD_PREFIX ++ r.text])
    (hname : objectPrototype.contains name = false) :
    (Tree.record name enr).Served (sampleClient zone) (.start Map.empty sampleContext "nodes.example.org") := by
  have hne : RECORD_PREFIX ++ r.text ≠ "" := by
    rw [Ne, ← String.toList_inj, String.toList_append]
    simp [RECORD_PREFIX]
  refine ⟨RECORD_PREFIX ++ r.text, entry_start (sampleClient zone) sampleContext hzone hne hname,
    getEntryType_append r.text, ?_⟩
  rw [show (sampleClient zone).fromString = fromString sampleEnv from rfl, fromString_sample hr, henr]

/-- A branch of the zone is served. -/
theorem served_branch {zone : Map String (List String)} {name : String} {children : List (Tree Enr.ENR)}
    (hzone : zone.get (location name "nodes.example.org") = some [branchEntry (children.map Tree.name)])
    (hname : objectPrototype.contains name = false) :
    (Tree.branch name children).Served (sampleClient zone) (.start Map.empty sampleContext "nodes.example.org") := by
  have hne : branchEntry (children.map Tree.name) ≠ "" := by
    rw [Ne, ← String.toList_inj, branchEntry, String.toList_append]
    simp [BRANCH_PREFIX]
  exact entry_start (sampleClient zone) sampleContext hzone hne hname

/-- Repeated searches of the first tree find both records. -/
theorem search_covers_iff_flat : ∃ a b h,
    Covers (sampleClient (sampleZone ["A", "B"] [])) (flatTree a b h)
      (.start Map.empty ((flatTree a b h).context samplePublicKey) "nodes.example.org") := by
  obtain ⟨a, b, h, ha, hb⟩ := exists_sampleEnrs
  refine ⟨a, b, h, (search_covers_iff _ (flatTree a b h) Map.empty samplePublicKey ⟨rfl, ?_, ?_⟩).2 ?_⟩
  · exact rootNext_sample "nodes.example.org" rfl (by decide)
  · rintro sub (_ | ⟨_, _ | ⟨_, _ | ⟨_, hsub⟩⟩⟩)
    · exact served_branch rfl (by decide)
    · exact served_record (by simp [sampleRecords]) ha rfl (by decide)
    · exact served_record (by simp [sampleRecords]) hb rfl (by decide)
    · cases hsub
  · rintro child (_ | ⟨_, _ | ⟨_, hchild⟩⟩)
    · rfl
    · rfl
    · cases hchild

/-- Repeated searches of the second tree do not find both records. -/
theorem search_not_covers : ¬∀ (client : Client Enr.ENR) (tree : DnsTree Enr.ENR) (publicKey : String),
    tree.Served client (.start Map.empty (tree.context publicKey) tree.domain) →
      Covers client tree (.start Map.empty (tree.context publicKey) tree.domain) := by
  intro hall
  obtain ⟨a, b, h, ha, hb⟩ := exists_sampleEnrs
  have hserved : (nestedTree a b h).Served (sampleClient (sampleZone ["C"] ["A", "B"]))
      (.start Map.empty ((nestedTree a b h).context samplePublicKey) (nestedTree a b h).domain) := by
    refine ⟨rfl, rootNext_sample "nodes.example.org" rfl (by decide), ?_⟩
    rintro sub (_ | ⟨_, _ | ⟨_, _ | ⟨_, _ | ⟨_, hsub⟩⟩⟩⟩)
    · exact served_branch rfl (by decide)
    · exact served_branch rfl (by decide)
    · exact served_record (by simp [sampleRecords]) ha rfl (by decide)
    · exact served_record (by simp [sampleRecords]) hb rfl (by decide)
    · cases hsub
  have hseveral : (Tree.branch "C" [.record "A" a, .record "B" b]).leaves.length ≠ 1 := by
    show [a, b].length ≠ 1
    simp
  exact not_covers hserved List.mem_cons_self hseveral (hall _ _ samplePublicKey hserved)

end JsWaku.Discovery
