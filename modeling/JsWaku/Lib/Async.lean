/-!
# Programs that await

A `Program` is an async function up to its first `await`: it has returned, has thrown, or awaits a call and goes on with
what the call resolves to or rejects with. It says nothing of who answers the calls: an event system keeps suspended
programs and resumes them one at a time in any order, and `Program.run` answers all calls of one program from a state.

The rules `run_bind`, `run_call` and so on compute a run along the text of a program.
-/

namespace Async

/-- An async function up to its first `await`. -/
inductive Program (Call : Type) (Result : Call → Type) (ε α : Type)
  | pure (value : α)
  | throw (error : ε)
  | await (call : Call) (resume : Except ε (Result call) → Program Call Result ε α)

namespace Program

variable {Call : Type} {Result : Call → Type} {ε α β : Type}

/-! ## The monad -/

/-- Goes on with the value returned. -/
def bind : Program Call Result ε α → (α → Program Call Result ε β) → Program Call Result ε β
  | .pure value, f => f value
  | .throw error, _ => .throw error
  | .await call resume, f => .await call fun answer => (resume answer).bind f

instance : Monad (Program Call Result ε) where
  pure := .pure
  bind := bind

/-- Goes on with the error thrown. -/
def tryCatch : Program Call Result ε α → (ε → Program Call Result ε α) → Program Call Result ε α
  | .pure value, _ => .pure value
  | .throw error, handle => handle error
  | .await call resume, handle => .await call fun answer => (resume answer).tryCatch handle

/-- Returns or throws at once. -/
def ofExcept : Except ε α → Program Call Result ε α
  | .ok value => .pure value
  | .error error => .throw error

/-- Awaits a call. -/
def call (c : Call) : Program Call Result ε (Result c) := .await c ofExcept

/-- It has thrown. -/
def throws : Program Call Result ε α → Bool
  | .throw _ => true
  | _ => false

/-! ## Runs against a state -/

section

variable {σ : Type} (handler : (c : Call) → σ → Except ε (Result c) × σ)

/-- Runs a program to its end, with all its calls answered from the state. -/
def run : Program Call Result ε α → σ → Except ε α × σ
  | .pure value, s => (.ok value, s)
  | .throw error, s => (.error error, s)
  | .await c resume, s => (resume (handler c s).1).run (handler c s).2

@[simp] theorem run_pure (value : α) (s : σ) :
    (Pure.pure value : Program Call Result ε α).run handler s = (.ok value, s) := rfl

@[simp] theorem run_throw (error : ε) (s : σ) :
    (.throw error : Program Call Result ε α).run handler s = (.error error, s) := rfl

@[simp] theorem run_ofExcept (x : Except ε α) (s : σ) :
    (ofExcept x : Program Call Result ε α).run handler s = (x, s) := by
  cases x <;> rfl

@[simp] theorem run_call (c : Call) (s : σ) : (call c).run handler s = handler c s := by
  rw [call, run, run_ofExcept]

/-- A run goes on from where the first part has ended. -/
theorem run_bind (x : Program Call Result ε α) (f : α → Program Call Result ε β) (s : σ) :
    (x >>= f).run handler s =
      match x.run handler s with
      | (.ok value, s') => (f value).run handler s'
      | (.error error, s') => (.error error, s') := by
  change (x.bind f).run handler s = _
  induction x generalizing s with
  | pure value => rfl
  | throw error => rfl
  | await c resume ih => exact ih (handler c s).1 (handler c s).2

theorem run_bind_of_ok {x : Program Call Result ε α} {s s' : σ} {value : α} (h : x.run handler s = (.ok value, s'))
    (f : α → Program Call Result ε β) : (x >>= f).run handler s = (f value).run handler s' := by
  rw [run_bind, h]

theorem run_bind_ofExcept {x : Except ε α} {value : α} (h : x = .ok value) (f : α → Program Call Result ε β) (s : σ) :
    (ofExcept x >>= f).run handler s = (f value).run handler s := by
  rw [run_bind, run_ofExcept, h]

end

end Program

end Async
