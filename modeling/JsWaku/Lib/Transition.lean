import Mathlib.Data.List.Basic
import Mathlib.Data.List.Count
import Mathlib.Data.List.Induction
import Mathlib.Data.List.Perm.Basic

/-!
# Runs of event systems

- `run`: the state after a list of events, where a step may be impossible;
- `Meets`: every step of a run meets a condition on the state before it and its event;
- the invariant rules `run_invariant`, `run_invariant_of_meets` and `run_invariant_of_events`: what a step preserves
  holds at the end of a run, and so in every state reached, since a run up to a state is a run; `holds_iff_meets` and
  `invariant_iff_meets`, where the condition is exact;
- `run_foldl` and `follows_iff_meets`, for a value that follows the events, `run_invariant_of_history`, for the events
  themselves, `run_component`, for one part of a system, and `rel_foldl`, for a loop within a step;
- pools of suspended tasks: a step takes one task out of the pool (`take`) and may put others in, or puts another in its
  place (`perm_set`).
-/

namespace Transition

/-! ## Runs -/

section

variable {σ ε : Type*}

/-- The state after a list of events, if each of them can happen. -/
def run (step : σ → ε → Option σ) : σ → List ε → Option σ
  | s, [] => some s
  | s, e :: es => (step s e).bind fun s' => run step s' es

/-- Every step of a run meets the condition. -/
def Meets (step : σ → ε → Option σ) (C : σ → ε → Prop) : σ → List ε → Prop
  | _, [] => True
  | s, e :: es => C s e ∧ ∀ s', step s e = some s' → Meets step C s' es

instance decidableMeets (step : σ → ε → Option σ) (C : σ → ε → Prop) [∀ s e, Decidable (C s e)] :
    ∀ (s : σ) (es : List ε), Decidable (Meets step C s es)
  | _, [] => isTrue trivial
  | s, e :: es =>
    match h : step s e with
    | none => decidable_of_iff (C s e) (by simp [Meets, h])
    | some s' =>
      have := decidableMeets step C s' es
      decidable_of_iff (C s e ∧ Meets step C s' es) (by simp [Meets, h])

variable {step : σ → ε → Option σ}

theorem run_cons {s t : σ} {e : ε} {es : List ε} :
    run step s (e :: es) = some t ↔ ∃ s', step s e = some s' ∧ run step s' es = some t :=
  Option.bind_eq_some_iff

theorem run_append (s : σ) (es es' : List ε) :
    run step s (es ++ es') = (run step s es).bind fun t => run step t es' := by
  induction es generalizing s with
  | nil => rfl
  | cons e es ih =>
    cases h : step s e with
    | none => simp [run, h]
    | some s' => simp [run, h, ih s']

/-- The condition, read at each place of a run. -/
theorem meets_iff {C : σ → ε → Prop} : ∀ {s : σ} {es : List ε}, Meets step C s es ↔
    ∀ es₁ e es₂ s₁, es = es₁ ++ e :: es₂ → run step s es₁ = some s₁ → C s₁ e
  | s, [] => by simp [Meets]
  | s, e :: es => by
    constructor
    · rintro ⟨hC, hrest⟩ es₁ e' es₂ s₁ heq hrun
      cases es₁ with
      | nil =>
        cases hrun
        cases heq
        exact hC
      | cons e₁ es₁ =>
        cases heq
        obtain ⟨s', hs', hrun'⟩ := run_cons.1 hrun
        exact meets_iff.1 (hrest s' hs') es₁ e' es₂ s₁ rfl hrun'
    · intro h
      refine ⟨h [] e es s rfl rfl, fun s' hs' => meets_iff.2 ?_⟩
      rintro es₁ e' es₂ s₁ rfl hrun
      exact h (e :: es₁) e' es₂ s₁ rfl (run_cons.2 ⟨s', hs', hrun⟩)

/-- What every step that meets the condition preserves holds at the end of every run whose steps meet it. -/
theorem run_invariant_of_meets {C : σ → ε → Prop} {P : σ → Prop}
    (hstep : ∀ s e s', P s → C s e → step s e = some s' → P s') (es : List ε) {s t : σ} (hs : P s)
    (hmeets : Meets step C s es) (h : run step s es = some t) : P t := by
  induction es generalizing s with
  | nil =>
    cases h
    exact hs
  | cons e es ih =>
    obtain ⟨hC, hrest⟩ := hmeets
    obtain ⟨s', he, ht⟩ := run_cons.1 h
    exact ih (hstep s e s' hs hC he) (hrest s' he) ht

/-- What every step with certain events preserves holds at the end of every run of them. -/
theorem run_invariant_of_events {D : ε → Prop} {P : σ → Prop}
    (hstep : ∀ s e s', P s → D e → step s e = some s' → P s') (es : List ε) {s t : σ} (hs : P s) (hes : ∀ e ∈ es, D e)
    (h : run step s es = some t) : P t := by
  have hmeets : Meets step (fun _ e => D e) s es := meets_iff.2 fun es₁ e es₂ _ heq _ => hes e (by simp [heq])
  exact run_invariant_of_meets hstep es hs hmeets h

/-- What every step preserves holds at the end of every run. -/
theorem run_invariant {P : σ → Prop} (hstep : ∀ s e s', P s → step s e = some s' → P s') (es : List ε) {s t : σ}
    (hs : P s) (h : run step s es = some t) : P t := by
  induction es generalizing s with
  | nil =>
    cases h
    exact hs
  | cons e es ih =>
    obtain ⟨s', he, ht⟩ := run_cons.1 h
    exact ih (hstep s e s' hs he) ht

/-- What every step preserves along with a value that follows the events holds at the end of every run. -/
theorem run_foldl {γ : Type*} {next : γ → ε → γ} {P : σ → γ → Prop}
    (hstep : ∀ s c e s', P s c → step s e = some s' → P s' (next c e)) (es : List ε) {s t : σ} {c : γ} (hs : P s c)
    (h : run step s es = some t) : P t (es.foldl next c) := by
  induction es generalizing s c with
  | nil =>
    cases h
    exact hs
  | cons e es ih =>
    obtain ⟨s', he, ht⟩ := run_cons.1 h
    exact ih (hstep s c e s' hs he) ht

/-- What every step preserves along with the events so far holds at the end of every run. -/
theorem run_invariant_of_history {s₀ : σ} {P : σ → List ε → Prop} (hstart : P s₀ [])
    (hstep : ∀ es s e s', run step s₀ es = some s → P s es → step s e = some s' → P s' (es ++ [e])) (es : List ε) {t : σ}
    (h : run step s₀ es = some t) : P t es := by
  induction es using List.reverseRecOn generalizing t with
  | nil =>
    cases h
    exact hstart
  | append_singleton es e ih =>
    rw [run_append] at h
    obtain ⟨s, hs, hlast⟩ := Option.bind_eq_some_iff.1 h
    obtain ⟨s', he, hrun⟩ := run_cons.1 hlast
    cases hrun
    exact hstep es s e _ hs (ih hs) he

/-- Let a step keep a property exactly where it meets a condition, in states with an invariant that such steps keep. Then
the property holds in every state of a run exactly if every step meets the condition. -/
theorem holds_iff_meets {C : σ → ε → Prop} {K P : σ → Prop}
    (hstep : ∀ s e s', K s → P s → step s e = some s' → (P s' ↔ C s e) ∧ (C s e → K s')) (es : List ε) {s t : σ} (hK : K s)
    (hs : P s) (hrun : run step s es = some t) :
    (∀ es₁ es₂ u, es = es₁ ++ es₂ → run step s es₁ = some u → P u) ↔ Meets step C s es := by
  induction es generalizing s with
  | nil =>
    refine ⟨fun _ => trivial, fun _ es₁ es₂ u heq hu => ?_⟩
    obtain ⟨rfl, -⟩ := List.append_eq_nil_iff.1 heq.symm
    cases hu
    exact hs
  | cons e es ih =>
    obtain ⟨s', he, hrun'⟩ := run_cons.1 hrun
    obtain ⟨hiff, hkeep⟩ := hstep s e s' hK hs he
    constructor
    · intro hall
      have hthen : P s' := hall [e] es s' rfl (run_cons.2 ⟨s', he, rfl⟩)
      refine ⟨hiff.1 hthen, fun s'' he' => ?_⟩
      cases he.symm.trans he'
      refine (ih (hkeep (hiff.1 hthen)) hthen hrun').1 fun es₁ es₂ u heq hu => ?_
      exact hall (e :: es₁) es₂ u (by rw [heq, List.cons_append]) (run_cons.2 ⟨s', he, hu⟩)
    · rintro ⟨hC, hrest⟩ es₁ es₂ u heq hu
      have hthen : P s' := hiff.2 hC
      cases es₁ with
      | nil =>
        cases hu
        exact hs
      | cons e₁ es₁ =>
        obtain ⟨rfl, hes⟩ : e = e₁ ∧ es = es₁ ++ es₂ := List.cons.inj heq
        obtain ⟨s'', he', hu⟩ := run_cons.1 hu
        cases he.symm.trans he'
        exact (ih (hkeep hC) hthen hrun').2 (hrest s' he) es₁ es₂ u hes hu

/-- If a step keeps an invariant exactly where it meets a condition, the invariant holds in every state of a run exactly
if every step meets the condition. -/
theorem invariant_iff_meets {C : σ → ε → Prop} {P : σ → Prop}
    (hstep : ∀ s e s', P s → step s e = some s' → (P s' ↔ C s e)) (es : List ε) {s t : σ} (hs : P s)
    (hrun : run step s es = some t) :
    (∀ es₁ es₂ u, es = es₁ ++ es₂ → run step s es₁ = some u → P u) ↔ Meets step C s es :=
  holds_iff_meets (K := fun _ => True) (fun s e s' _ hs he => ⟨hstep s e s' hs he, fun _ => trivial⟩) es trivial hs hrun

/-- Where the condition is met in states with an invariant that such steps keep, a weaker one is met. -/
theorem Meets.imp {C C' : σ → ε → Prop} {K : σ → Prop}
    (hstep : ∀ s e s', K s → C s e → step s e = some s' → K s') (himp : ∀ s e, K s → C s e → C' s e) {es : List ε} {s : σ}
    (hK : K s) (h : Meets step C s es) : Meets step C' s es := by
  induction es generalizing s with
  | nil => trivial
  | cons e es ih =>
    obtain ⟨hC, hrest⟩ := h
    exact ⟨himp s e hK hC, fun s' he => ih (hstep s e s' hK hC he) (hrest s' he)⟩

/-- A step along with a value that follows the events. -/
def along {γ : Type*} (step : σ → ε → Option σ) (next : γ → ε → γ) (p : σ × γ) (e : ε) : Option (σ × γ) :=
  (step p.1 e).map fun s' => (s', next p.2 e)

theorem run_along {γ : Type*} {next : γ → ε → γ} {s : σ} {c : γ} {es : List ε} :
    run (along step next) (s, c) es = (run step s es).map fun t => (t, es.foldl next c) := by
  induction es generalizing s c with
  | nil => rfl
  | cons e es ih =>
    cases h : step s e with
    | none => simp [run, along, h]
    | some s' => simpa [run, along, h] using ih

theorem meets_along {γ : Type*} (next : γ → ε → γ) (c : γ) {C : σ → ε → Prop} {s : σ} {es : List ε} :
    Meets (along step next) (fun p => C p.1) (s, c) es ↔ Meets step C s es := by
  induction es generalizing s c with
  | nil => rfl
  | cons e es ih =>
    cases h : step s e with
    | none => simp [Meets, along, h]
    | some s' => simp [Meets, along, h, ih (next c e)]

/-- If a step keeps a relation to a value that follows the events exactly where it meets a condition, the relation holds
in every state of a run exactly if every step meets the condition. -/
theorem follows_iff_meets {γ : Type*} {next : γ → ε → γ} {C : σ → ε → Prop} {P : σ → γ → Prop}
    (hstep : ∀ s c e s', P s c → step s e = some s' → (P s' (next c e) ↔ C s e)) (es : List ε) {s t : σ} {c : γ}
    (hs : P s c) (hrun : run step s es = some t) :
    (∀ es₁ es₂ u, es = es₁ ++ es₂ → run step s es₁ = some u → P u (es₁.foldl next c)) ↔ Meets step C s es := by
  have hrun' : run (along step next) (s, c) es = some (t, es.foldl next c) := by rw [run_along, hrun]; rfl
  have halong : ∀ p e p', P p.1 p.2 → along step next p e = some p' → (P p'.1 p'.2 ↔ C p.1 e) := by
    intro p e p' hp he
    obtain ⟨s', hs', rfl⟩ := Option.map_eq_some_iff.1 he
    exact hstep p.1 p.2 e s' hp hs'
  have hiff := invariant_iff_meets (C := fun p => C p.1) (P := fun p => P p.1 p.2) halong es hs hrun'
  rw [← meets_along next c, ← hiff]
  refine forall₂_congr fun es₁ es₂ => ⟨fun h u heq hu => ?_, fun h u heq hu => ?_⟩
  · rw [run_along] at hu
    obtain ⟨v, hv, rfl⟩ := Option.map_eq_some_iff.1 hu
    exact h v heq hv
  · exact h (u, es₁.foldl next c) heq (by rw [run_along, hu]; rfl)

/-- A step of a system is a step of a component, or leaves it alone. Then a run of the system is a run of the component,
by its own events. -/
theorem run_component {τ ε' : Type*} {step' : τ → ε' → Option τ} (part : σ → τ) {own : ε → Option ε'}
    (hstep : ∀ s e s', step s e = some s' →
      (own e).elim (part s' = part s) fun e' => step' (part s) e' = some (part s')) (es : List ε) {s t : σ}
    (h : run step s es = some t) : run step' (part s) (es.filterMap own) = some (part t) := by
  induction es generalizing s with
  | nil =>
    cases h
    rfl
  | cons e es ih =>
    obtain ⟨s', he, ht⟩ := run_cons.1 h
    have hpart := hstep s e s' he
    cases hown : own e with
    | none =>
      rw [hown] at hpart
      rw [List.filterMap_cons_none hown, ← show part s' = part s from hpart]
      exact ih ht
    | some e' =>
      rw [hown] at hpart
      rw [List.filterMap_cons_some hown]
      exact run_cons.2 ⟨part s', hpart, ih ht⟩

end

/-! ## Loops -/

/-- A loop keeps what is reflexive, transitive and kept by each of its rounds. -/
theorem rel_foldl {σ α : Type*} {R : σ → σ → Prop} (hrefl : ∀ s, R s s) (htrans : ∀ s t u, R s t → R t u → R s u)
    {f : σ → α → σ} (h : ∀ s a, R s (f s a)) (l : List α) (s : σ) : R s (l.foldl f s) := by
  induction l generalizing s with
  | nil => exact hrefl s
  | cons a l ih => exact htrans s (f s a) _ (h s a) (ih (f s a))

/-! ## Pools of suspended tasks -/

section

variable {τ : Type*} [DecidableEq τ]

/-- The pool without one occurrence of the task, if it has one. -/
def take (t : τ) (pool : List τ) : Option (List τ) := if t ∈ pool then some (pool.erase t) else none

theorem take_eq_some {t : τ} {pool rest : List τ} : take t pool = some rest ↔ t ∈ pool ∧ pool.erase t = rest := by
  simp [take]

/-- Taking a task out counts it. -/
theorem countP_take {t : τ} {pool rest : List τ} (h : take t pool = some rest) (p : τ → Bool) :
    pool.countP p = rest.countP p + if p t then 1 else 0 := by
  obtain ⟨hmem, rfl⟩ := take_eq_some.1 h
  rw [List.Perm.countP_eq p (List.perm_cons_erase hmem), List.countP_cons]

omit [DecidableEq τ] in
/-- A task of no kind is of no narrower kind. -/
theorem eq_false_of_imp {p q : τ → Bool} {t : τ} (hq : ∀ t, q t → p t) (h : p t = false) : q t = false := by
  by_contra hne
  rw [hq t (Bool.not_eq_false _ ▸ hne)] at h
  cases h

/-- What is left was there. -/
theorem mem_of_take {t u : τ} {pool rest : List τ} (h : take t pool = some rest) (hu : u ∈ rest) : u ∈ pool := by
  obtain ⟨-, rfl⟩ := take_eq_some.1 h
  exact List.mem_of_mem_erase hu

omit [DecidableEq τ] in
/-- A task that is replaced where it stands leaves the others. -/
theorem perm_set {t : τ} {pool : List τ} {i : ℕ} (h : pool[i]? = some t) (t' : τ) :
    ∃ rest, pool.Perm (t :: rest) ∧ (pool.set i t').Perm (t' :: rest) := by
  obtain ⟨hi, rfl⟩ := List.getElem?_eq_some_iff.1 h
  exact ⟨pool.eraseIdx i, (List.getElem_cons_eraseIdx_perm hi).symm, List.set_perm_cons_eraseIdx hi t'⟩

/-- The last task was alone. -/
theorem eq_singleton_of_take {t : τ} {pool : List τ} (h : take t pool = some []) : pool = [t] := by
  obtain ⟨hmem, hnil⟩ := take_eq_some.1 h
  have hperm := List.perm_cons_erase hmem
  rw [hnil] at hperm
  exact List.perm_singleton.1 hperm

end

end Transition
