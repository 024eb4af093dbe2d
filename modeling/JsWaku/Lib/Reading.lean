import Mathlib.Data.List.Basic
import Mathlib.Order.Nat

/-!
# Reading a buffer by positions

A `Reader` takes a value from a buffer at a position and moves the position on, or fails. `Reads r bs a` says that `r`
takes `a` from the bytes `bs`, wherever these stand in a buffer; readers that run one after the other read one
concatenation (`Reads.bind`).

`whileBefore stop round s` repeats a round until the position `stop`. It runs on fuel, which a round that always moves on
never uses up (`whileBefore_of_lt`). Bytes that are a row of rounds are read to their end (`Rounds.reads`).
-/

namespace Reading

variable {ε α β σ : Type}

/-- Takes a value from a buffer at a position, and moves on. -/
abbrev Reader (ε α : Type) := ReaderT (List UInt8) (StateT ℕ (Except ε)) α

/-- The reader takes the value from these bytes, wherever they stand. -/
def Reads (r : Reader ε α) (bs : List UInt8) (a : α) : Prop :=
  ∀ before after, r (before ++ (bs ++ after)) before.length = .ok (a, before.length + bs.length)

/-- The reader never moves back. -/
def Forward (r : Reader ε α) : Prop := ∀ buf pos a pos', r buf pos = .ok (a, pos') → pos ≤ pos'

/-- The reader always moves on. -/
def Progress (r : Reader ε α) : Prop := ∀ buf pos a pos', r buf pos = .ok (a, pos') → pos < pos'

/-! ## One reader after another -/

section

variable {r : Reader ε α} {f : α → Reader ε β} {bs bs' : List UInt8} {a : α} {b : β}

theorem bind_eq (r : Reader ε α) (f : α → Reader ε β) (buf : List UInt8) (pos : ℕ) :
    (r >>= f) buf pos = (r buf pos).bind fun (a, pos) => f a buf pos := rfl

theorem bind_eq_ok {buf : List UInt8} {pos pos' : ℕ} : (r >>= f) buf pos = .ok (b, pos') ↔
    ∃ a mid, r buf pos = .ok (a, mid) ∧ f a buf mid = .ok (b, pos') := by
  rw [bind_eq]
  constructor
  · intro h
    cases hr : r buf pos with
    | error e => rw [hr] at h; cases h
    | ok x => rw [hr] at h; exact ⟨x.1, x.2, rfl, h⟩
  · rintro ⟨a, mid, hr, hf⟩
    rw [hr]
    exact hf

theorem Reads.pure (a : α) : Reads (Pure.pure a : Reader ε α) [] a := fun _ _ => rfl

theorem Reads.bind (hr : Reads r bs a) (hf : Reads (f a) bs' b) : Reads (r >>= f) (bs ++ bs') b := by
  intro before after
  have hrest := hf (before ++ bs) after
  rw [List.append_assoc, List.length_append] at hrest
  rw [List.append_assoc]
  refine bind_eq_ok.2 ⟨a, before.length + bs.length, hr before (bs' ++ after), ?_⟩
  rw [hrest, List.length_append, Nat.add_assoc]

/-- What was read is only passed on. -/
theorem Reads.map (g : α → β) (hr : Reads r bs a) : Reads (do let a ← r; return g a) bs (g a) := by
  have hmap := hr.bind (f := fun a => Pure.pure (g a)) (Reads.pure (g a))
  rwa [List.append_nil] at hmap

theorem Forward.pure (a : α) : Forward (Pure.pure a : Reader ε α) := by
  intro buf pos a' pos' h
  cases h
  exact le_rfl

theorem Forward.bind (hr : Forward r) (hf : ∀ a, Forward (f a)) : Forward (r >>= f) := by
  intro buf pos b pos' h
  obtain ⟨a, mid, ha, hb⟩ := bind_eq_ok.1 h
  exact (hr _ _ _ _ ha).trans (hf a _ _ _ _ hb)

theorem Progress.bind (hr : Progress r) (hf : ∀ a, Forward (f a)) : Progress (r >>= f) := by
  intro buf pos b pos' h
  obtain ⟨a, mid, ha, hb⟩ := bind_eq_ok.1 h
  exact (hr _ _ _ _ ha).trans_le (hf a _ _ _ _ hb)

theorem Progress.forward (hr : Progress r) : Forward r := fun _ _ _ _ h => (hr _ _ _ _ h).le

/-- Bytes that make a reader move on are not empty. -/
theorem Progress.ne_nil (hr : Progress r) (h : Reads r bs a) : bs ≠ [] := by
  rintro rfl
  exact lt_irrefl _ (hr _ _ _ _ (h [] []))

end

/-! ## Rounds up to a position -/

section

variable (round : σ → Reader ε σ)

/-- At most `fuel` rounds, as long as the position is before `stop`. -/
def rounds (stop : ℕ) : ℕ → σ → Reader ε σ
  | 0, s => pure s
  | fuel + 1, s => fun buf pos =>
    if pos < stop then (round s >>= rounds stop fuel) buf pos else .ok (s, pos)

/-- Rounds as long as the position is before `stop`. -/
def whileBefore (stop : ℕ) (s : σ) : Reader ε σ := fun buf pos => rounds round stop (stop - pos) s buf pos

variable {round} {stop pos fuel : ℕ} {s s' : σ} {buf bs : List UInt8}

theorem rounds_succ : rounds round stop (fuel + 1) s buf pos =
    if pos < stop then (round s >>= rounds round stop fuel) buf pos else .ok (s, pos) := rfl

theorem rounds_of_le (h : stop ≤ pos) : rounds round stop fuel s buf pos = .ok (s, pos) := by
  cases fuel with
  | zero => rfl
  | succ fuel => exact if_neg (not_lt.2 h)

/-- Fuel for the positions that are left is enough. -/
theorem rounds_congr (hround : ∀ s, Progress (round s)) {fuel' : ℕ} (h : stop - pos ≤ fuel) (h' : stop - pos ≤ fuel') :
    rounds round stop fuel s buf pos = rounds round stop fuel' s buf pos := by
  induction fuel generalizing fuel' s pos with
  | zero => rw [rounds_of_le (by omega), rounds_of_le (by omega)]
  | succ fuel ih =>
    by_cases hlt : pos < stop
    · obtain ⟨left, rfl⟩ : ∃ left, fuel' = left + 1 := ⟨fuel' - 1, by omega⟩
      simp only [rounds_succ, if_pos hlt, bind_eq]
      cases hs : round s buf pos with
      | error e => rfl
      | ok x =>
        have hmid := hround s _ _ _ _ hs
        exact ih (by omega) (by omega)
    · rw [rounds_of_le (not_lt.1 hlt), rounds_of_le (not_lt.1 hlt)]

theorem whileBefore_of_le (h : stop ≤ pos) : whileBefore round stop s buf pos = .ok (s, pos) := rounds_of_le h

/-- Before the end there is one more round. -/
theorem whileBefore_of_lt (hround : ∀ s, Progress (round s)) (h : pos < stop) :
    whileBefore round stop s buf pos = (round s >>= whileBefore round stop) buf pos := by
  obtain ⟨left, hleft⟩ : ∃ left, stop - pos = left + 1 := ⟨stop - pos - 1, by omega⟩
  rw [whileBefore, hleft, rounds_succ, if_pos h, bind_eq, bind_eq]
  cases hs : round s buf pos with
  | error e => rfl
  | ok x =>
    have hmid := hround s _ _ _ _ hs
    exact rounds_congr hround (by omega) le_rfl

theorem forward_rounds (hround : ∀ s, Forward (round s)) (stop fuel : ℕ) (s : σ) : Forward (rounds round stop fuel s) := by
  induction fuel generalizing s with
  | zero => exact Forward.pure s
  | succ fuel ih =>
    intro buf pos s' pos' h
    rw [rounds_succ] at h
    split at h
    · exact Forward.bind (hround s) ih buf pos s' pos' h
    · cases h
      exact le_rfl

theorem forward_whileBefore (hround : ∀ s, Forward (round s)) (stop : ℕ) (s : σ) : Forward (whileBefore round stop s) :=
  fun buf pos => forward_rounds hround stop (stop - pos) s buf pos

/-! ## Rows of rounds -/

variable (round) in
/-- The bytes are a row of rounds that take the first state to the last. -/
inductive Rounds : σ → List UInt8 → σ → Prop
  | nil (s : σ) : Rounds s [] s
  | cons {s s' s'' : σ} {bs bs' : List UInt8} (hround : Reads (round s) bs s') (hrest : Rounds s' bs' s'') :
    Rounds s (bs ++ bs') s''

theorem Rounds.single (h : Reads (round s) bs s') : Rounds round s bs s' := by
  have hcons := Rounds.cons h (Rounds.nil s')
  rwa [List.append_nil] at hcons

theorem Rounds.append {s'' : σ} {bs' : List UInt8} (h : Rounds round s bs s') (h' : Rounds round s' bs' s'') :
    Rounds round s (bs ++ bs') s'' := by
  induction h with
  | nil s => exact h'
  | cons hround hrest ih =>
    rw [List.append_assoc]
    exact .cons hround (ih h')

/-- A loop over elements that are each written as rounds; `set` is the state after the elements of a list. -/
theorem Rounds.flatMap {α : Type} {write : α → List UInt8} {set : List α → σ} {l : List α}
    (h : ∀ done, ∀ a ∈ l, Rounds round (set done) (write a) (set (done ++ [a]))) :
    Rounds round (set []) (l.flatMap write) (set l) := by
  suffices hdone : ∀ done, Rounds round (set done) (l.flatMap write) (set (done ++ l)) from hdone []
  induction l with
  | nil =>
    intro done
    rw [List.append_nil]
    exact .nil _
  | cons a l ih =>
    intro done
    have hl := ih (fun done b hb => h done b (List.mem_cons_of_mem a hb)) (done ++ [a])
    rw [List.append_assoc] at hl
    exact (h done a List.mem_cons_self).append hl

/-- **A row of rounds is read to its end.** -/
theorem Rounds.reads (hround : ∀ s, Progress (round s)) (h : Rounds round s bs s') (before after : List UInt8) :
    whileBefore round (before.length + bs.length) s (before ++ (bs ++ after)) before.length =
      .ok (s', before.length + bs.length) := by
  induction h generalizing before with
  | nil s => exact whileBefore_of_le le_rfl
  | @cons s s' s'' bs bs' hread hrest ih =>
    have hpos : 0 < bs.length := List.length_pos_of_ne_nil ((hround s).ne_nil hread)
    rw [whileBefore_of_lt hround (by simp only [List.length_append]; omega)]
    refine bind_eq_ok.2 ⟨s', before.length + bs.length, ?_, ?_⟩
    · rw [List.append_assoc]
      exact hread before (bs' ++ after)
    · have hih := ih (before ++ bs)
      simp only [List.append_assoc, List.length_append, Nat.add_assoc] at hih ⊢
      exact hih

end

end Reading
