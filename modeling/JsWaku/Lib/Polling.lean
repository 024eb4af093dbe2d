import Mathlib.Data.List.Basic

/-!
# Loops that ask for an input in each round

- `poll`: a loop that reads one input a round while a condition holds, with the number of inputs it has read;
  `poll_error`, `poll_indexed`, `poll_invariant`, and `poll_finished`, by which enough fuel ends the loop at its condition;
- `Meets`: every round meets a condition; `exists_poll_iff_meets`, where the condition says of each round whether it
  returns;
- two loops on the same inputs: while the rounds of the first meet the condition, they stay related
  (`poll_simulates`), and otherwise there is a first round that does not (`exists_break`).
-/

namespace Polling

variable {σ τ ρ ε ε' : Type}

/-- The rounds of a loop, at most `fuel` of them, from input `i` on: the last state and the number of the next input. -/
def poll (cond : σ → Bool) (body : σ → ρ → Except ε σ) (input : ℕ → ρ) : (fuel i : ℕ) → σ → Except ε (σ × ℕ)
  | 0, i, s => .ok (s, i)
  | fuel + 1, i, s =>
    if cond s then do
      let s' ← body s (input i)
      poll cond body input fuel (i + 1) s'
    else .ok (s, i)

/-- Every round meets the condition. -/
def Meets (cond : σ → Bool) (body : σ → ρ → Except ε σ) (input : ℕ → ρ) (C : ℕ → σ → Prop) : (fuel i : ℕ) → σ → Prop
  | 0, _, _ => True
  | fuel + 1, i, s =>
    cond s = true → C i s ∧ ∀ s', body s (input i) = .ok s' → Meets cond body input C fuel (i + 1) s'

section

variable {cond : σ → Bool} {body : σ → ρ → Except ε σ} {input : ℕ → ρ} {fuel i : ℕ} {s s' : σ}

theorem poll_stop (h : cond s = false) : poll cond body input fuel i s = .ok (s, i) := by
  cases fuel with
  | zero => rfl
  | succ fuel => rw [poll, if_neg (by simp [h])]

theorem poll_round (h : cond s = true) (hbody : body s (input i) = .ok s') :
    poll cond body input (fuel + 1) i s = poll cond body input fuel (i + 1) s' := by
  rw [poll, if_pos h, hbody]
  rfl

/-- A loop that has returned stops, or goes through one round first. -/
theorem poll_cases {t : σ} {j : ℕ} (h : poll cond body input (fuel + 1) i s = .ok (t, j)) :
    (cond s = false ∧ s = t) ∨
      ∃ s', cond s = true ∧ body s (input i) = .ok s' ∧ poll cond body input fuel (i + 1) s' = .ok (t, j) := by
  cases hcond : cond s with
  | false =>
    rw [poll_stop hcond] at h
    cases h
    exact .inl ⟨rfl, rfl⟩
  | true =>
    cases hs' : body s (input i) with
    | error e =>
      rw [poll, if_pos hcond, hs'] at h
      cases h
    | ok s' =>
      rw [poll_round hcond hs'] at h
      exact .inr ⟨s', rfl, rfl, h⟩

/-- A loop that throws does so in one of its rounds. -/
theorem poll_error {e : ε} (h : poll cond body input fuel i s = .error e) :
    ∃ j s', i ≤ j ∧ j < i + fuel ∧ cond s' = true ∧ body s' (input j) = .error e := by
  induction fuel generalizing i s with
  | zero => cases h
  | succ fuel ih =>
    cases hcond : cond s with
    | false =>
      rw [poll_stop hcond] at h
      cases h
    | true =>
      cases hs' : body s (input i) with
      | error e' =>
        rw [poll, if_pos hcond, hs'] at h
        cases h
        exact ⟨i, s, Nat.le_refl i, by omega, hcond, hs'⟩
      | ok s' =>
        rw [poll_round hcond hs'] at h
        obtain ⟨j, s'', hle, hlt, hthrows⟩ := ih h
        exact ⟨j, s'', by omega, by omega, hthrows⟩

/-- What every round carries on to the next input holds after the loop. -/
theorem poll_indexed {P : ℕ → σ → Prop}
    (hbody : ∀ i s s', P i s → cond s = true → body s (input i) = .ok s' → P (i + 1) s') {t : σ} {j : ℕ} (hs : P i s)
    (h : poll cond body input fuel i s = .ok (t, j)) : P j t := by
  induction fuel generalizing i s with
  | zero =>
    cases h
    exact hs
  | succ fuel ih =>
    cases hcond : cond s with
    | false =>
      rw [poll_stop hcond] at h
      cases h
      exact hs
    | true =>
      rcases poll_cases h with ⟨hstop, -⟩ | ⟨s', -, hs', h⟩
      · rw [hcond] at hstop
        cases hstop
      · exact ih (hbody i s s' hs hcond hs') h

/-- What every round preserves holds after the loop. -/
theorem poll_invariant {P : σ → Prop} (hbody : ∀ s r s', P s → cond s = true → body s r = .ok s' → P s') {t : σ} {j : ℕ}
    (hs : P s) (h : poll cond body input fuel i s = .ok (t, j)) : P t := by
  refine poll_indexed (P := fun _ s => P s) ?_ hs h
  exact fun i s s' hs hcond hs' => hbody s _ s' hs hcond hs'

/-- With as much fuel as a measure of the state that every round makes smaller, the loop ends at its condition. -/
theorem poll_finished {μ : σ → ℕ} (hpos : ∀ s, cond s = true → 0 < μ s)
    (hbody : ∀ s r s', cond s = true → body s r = .ok s' → μ s' < μ s) {t : σ} {j : ℕ} (hfuel : μ s ≤ fuel)
    (h : poll cond body input fuel i s = .ok (t, j)) : cond t = false := by
  induction fuel generalizing i s with
  | zero =>
    cases h
    by_contra hcond
    have := hpos _ (Bool.not_eq_false _ ▸ hcond)
    omega
  | succ fuel ih =>
    rcases poll_cases h with ⟨hcond, rfl⟩ | ⟨s', hcond, hs', h⟩
    · exact hcond
    · have hlt := hbody s _ s' hcond hs'
      exact ih (by omega) h

/-- A loop that stops has no round. -/
theorem meets_stop {C : ℕ → σ → Prop} (h : cond s = false) : Meets cond body input C fuel i s := by
  cases fuel with
  | zero => trivial
  | succ fuel =>
    intro hcond
    rw [h] at hcond
    cases hcond

theorem meets_of_forall {C : ℕ → σ → Prop} (h : ∀ i s, C i s) : Meets cond body input C fuel i s := by
  induction fuel generalizing i s with
  | zero => trivial
  | succ fuel ih => exact fun _ => ⟨h i s, fun s' _ => ih⟩

/-- A round meets two conditions iff it meets each. -/
theorem meets_and {C C' : ℕ → σ → Prop} :
    Meets cond body input (fun i s => C i s ∧ C' i s) fuel i s ↔
      Meets cond body input C fuel i s ∧ Meets cond body input C' fuel i s := by
  induction fuel generalizing i s with
  | zero => exact (and_self_iff).symm
  | succ fuel ih =>
    simp only [Meets, ih]
    constructor
    · intro h
      exact ⟨fun hcond => ⟨(h hcond).1.1, fun s' hs' => ((h hcond).2 s' hs').1⟩,
        fun hcond => ⟨(h hcond).1.2, fun s' hs' => ((h hcond).2 s' hs').2⟩⟩
    · rintro ⟨h, h'⟩ hcond
      exact ⟨⟨(h hcond).1, (h' hcond).1⟩, fun s' hs' => ⟨(h hcond).2 s' hs', (h' hcond).2 s' hs'⟩⟩

/-- Let a round return to a good state exactly where it meets a condition, and come from a good state if it returns to
one. Then the loop returns in a good state iff every round meets the condition. -/
theorem exists_poll_iff_meets {C : ℕ → σ → Prop} {G : σ → Prop}
    (hround : ∀ i s, G s → cond s = true → ((∃ s', body s (input i) = .ok s' ∧ G s') ↔ C i s))
    (hback : ∀ i s s', body s (input i) = .ok s' → G s' → G s) (hs : G s) :
    (∃ t j, poll cond body input fuel i s = .ok (t, j) ∧ G t) ↔ Meets cond body input C fuel i s := by
  have hearlier : ∀ {fuel i : ℕ} {s t : σ} {j : ℕ}, poll cond body input fuel i s = .ok (t, j) → G t → G s := by
    intro fuel
    induction fuel with
    | zero =>
      intro i s t j h ht
      cases h
      exact ht
    | succ fuel ih =>
      intro i s t j h ht
      rcases poll_cases h with ⟨-, rfl⟩ | ⟨s', -, hs', h⟩
      · exact ht
      · exact hback i s s' hs' (ih h ht)
  induction fuel generalizing i s with
  | zero => exact iff_of_true ⟨s, i, rfl, hs⟩ trivial
  | succ fuel ih =>
    cases hcond : cond s with
    | false => exact iff_of_true ⟨s, i, poll_stop hcond, hs⟩ (meets_stop hcond)
    | true =>
      have hiff := hround i s hs hcond
      constructor
      · rintro ⟨t, j, h, ht⟩ -
        rcases poll_cases h with ⟨hstop, -⟩ | ⟨s', -, hs', h⟩
        · rw [hcond] at hstop
          cases hstop
        · have hgood := hearlier h ht
          refine ⟨hiff.1 ⟨s', hs', hgood⟩, fun s'' hs'' => ?_⟩
          cases hs'.symm.trans hs''
          exact (ih hgood).1 ⟨t, j, h, ht⟩
      · intro hmeets
        obtain ⟨hC, hrest⟩ := hmeets hcond
        obtain ⟨s', hs', hgood⟩ := hiff.2 hC
        rw [poll_round hcond hs']
        exact (ih hgood).2 (hrest s' hs')

end

/-! ## Two loops on the same inputs -/

section

variable {cond : σ → Bool} {body : σ → ρ → Except ε σ} {cond' : τ → Bool} {body' : τ → ρ → Except ε' τ}
  {input : ℕ → ρ} {C : ℕ → σ → Prop} {R : ℕ → σ → τ → Prop}

/-- Loops whose rounds keep a relation end related, after the same number of rounds. -/
theorem poll_simulates (hcond : ∀ i s t, R i s t → cond s = cond' t)
    (hbody : ∀ i s t, R i s t → cond s = true → C i s →
      ∃ s' t', body s (input i) = .ok s' ∧ body' t (input i) = .ok t' ∧ R (i + 1) s' t')
    {fuel i : ℕ} {s : σ} {t : τ} (hR : R i s t) (hmeets : Meets cond body input C fuel i s) :
    ∃ s' t' j, poll cond body input fuel i s = .ok (s', j) ∧ poll cond' body' input fuel i t = .ok (t', j) ∧
      R j s' t' := by
  induction fuel generalizing i s t with
  | zero => exact ⟨s, t, i, rfl, rfl, hR⟩
  | succ fuel ih =>
    cases h : cond s with
    | false =>
      have h' : cond' t = false := by rw [← hcond i s t hR, h]
      exact ⟨s, t, i, poll_stop h, poll_stop h', hR⟩
    | true =>
      have h' : cond' t = true := by rw [← hcond i s t hR, h]
      obtain ⟨hC, hrest⟩ := hmeets h
      obtain ⟨s', t', hs', ht', hR'⟩ := hbody i s t hR h hC
      rw [poll_round h hs', poll_round h' ht']
      exact ih hR' (hrest s' hs')

/-- Where some round does not meet the condition, the loops come, still related, to a first one. -/
theorem exists_break (hcond : ∀ i s t, R i s t → cond s = cond' t)
    (hbody : ∀ i s t, R i s t → cond s = true → C i s →
      ∃ s' t', body s (input i) = .ok s' ∧ body' t (input i) = .ok t' ∧ R (i + 1) s' t')
    {fuel i : ℕ} {s : σ} {t : τ} (hR : R i s t) (hbroken : ¬Meets cond body input C fuel i s) :
    ∃ fuel' j s' t', poll cond body input fuel i s = poll cond body input (fuel' + 1) j s' ∧
      poll cond' body' input fuel i t = poll cond' body' input (fuel' + 1) j t' ∧ R j s' t' ∧ cond s' = true ∧
      ¬C j s' := by
  induction fuel generalizing i s t with
  | zero => exact absurd trivial hbroken
  | succ fuel ih =>
    simp only [Meets, Classical.not_imp] at hbroken
    obtain ⟨h, hbroken⟩ := hbroken
    by_cases hC : C i s
    · have h' : cond' t = true := by rw [← hcond i s t hR, h]
      obtain ⟨s', t', hs', ht', hR'⟩ := hbody i s t hR h hC
      have hlater : ¬Meets cond body input C fuel (i + 1) s' := by
        intro hrest
        refine hbroken ⟨hC, ?_⟩
        intro s'' hs''
        cases hs'.symm.trans hs''
        exact hrest
      rw [poll_round h hs', poll_round h' ht']
      exact ih hR' hlater
    · exact ⟨fuel, i, s, t, rfl, rfl, hR, h, hC⟩

end

end Polling
