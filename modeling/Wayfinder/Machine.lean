import Mathlib

/-! Runs of a deterministic machine that answers every input.

`exec` is the state after a list of inputs, and `trace` the inputs with what was answered.
What holds at the start and survives every step within a bound holds after every run that
ends within it (`run_induction`). What every step relates to its predecessor is related across
every run (`exec_related`). -/
namespace Wayfinder

structure Machine (State Input Output : Type) where
  initial : State
  step : State → Input → State × Output

namespace Machine

variable {State Input Output : Type} (M : Machine State Input Output)

def exec (s : State) : List Input → State
  | [] => s
  | i :: rest => exec (M.step s i).1 rest

/-- The state after a run from the start. -/
def after (inputs : List Input) : State := M.exec M.initial inputs

theorem exec_append (s : State) (a b : List Input) : M.exec s (a ++ b) = M.exec (M.exec s a) b := by
  induction a generalizing s with
  | nil => rfl
  | cons i rest ih => exact ih _

theorem exec_snoc (s : State) (a : List Input) (i : Input) :
    M.exec s (a ++ [i]) = (M.step (M.exec s a) i).1 := by
  rw [exec_append]
  rfl

theorem after_snoc (a : List Input) (i : Input) : M.after (a ++ [i]) = (M.step (M.after a) i).1 :=
  M.exec_snoc M.initial a i

theorem after_append (a b : List Input) : M.after (a ++ b) = M.exec (M.after a) b :=
  M.exec_append M.initial a b

/-- The inputs of a run, each with what was answered. -/
def trace (s : State) : List Input → List (Input × Output)
  | [] => []
  | i :: rest => (i, (M.step s i).2) :: trace (M.step s i).1 rest

theorem trace_append (s : State) (a b : List Input) :
    M.trace s (a ++ b) = M.trace s a ++ M.trace (M.exec s a) b := by
  induction a generalizing s with
  | nil => rfl
  | cons i rest ih => exact congrArg _ (ih _)

theorem trace_inputs (s : State) (inputs : List Input) :
    (M.trace s inputs).map Prod.fst = inputs := by
  induction inputs generalizing s with
  | nil => rfl
  | cons i rest ih => exact congrArg (i :: ·) (ih _)

/-- The trace of a run from the start. -/
def history (inputs : List Input) : List (Input × Output) := M.trace M.initial inputs

theorem history_snoc (inputs : List Input) (i : Input) :
    M.history (inputs ++ [i]) = M.history inputs ++ [(i, (M.step (M.after inputs) i).2)] :=
  M.trace_append M.initial inputs [i]

variable {M}

/-- What holds of the empty run, and of a run with one more input when it held before and
the run ends within a bound, holds of every run that ends within it. -/
theorem run_induction {I : List Input → Prop} {F : State → Prop} (h : I [])
    (hF : ∀ s i, F (M.step s i).1 → F s)
    (hstep : ∀ inputs i, F (M.after (inputs ++ [i])) → I inputs → I (inputs ++ [i]))
    (inputs : List Input) (hend : F (M.after inputs)) : I inputs := by
  induction inputs using List.reverseRecOn with
  | nil => exact h
  | append_singleton inputs i ih =>
    refine hstep inputs i hend (ih (hF _ i ?_))
    rwa [after_snoc] at hend

/-- A reflexive and transitive relation that every step keeps, in states where an
invariant holds, is kept by every run. -/
theorem exec_related {I : State → Prop} {R : State → State → Prop} (hrefl : ∀ s, R s s)
    (htrans : ∀ {a b c}, R a b → R b c → R a c) (hI : ∀ s i, I s → I (M.step s i).1)
    (hstep : ∀ s i, I s → R s (M.step s i).1) (inputs : List Input) {s : State} (h : I s) :
    R s (M.exec s inputs) := by
  induction inputs generalizing s with
  | nil => exact hrefl s
  | cons i rest ih => exact htrans (hstep s i h) (ih (hI s i h))

/-- What is taken once some input claims it, and never given back, is taken after a run when
it was from the start or an input of the run claimed it. -/
theorem taken_after {K : Type} (taken : State → K → Prop) {claims : Input → K → Prop}
    (hstep : ∀ s i k, taken (M.step s i).1 k ↔ taken s k ∨ claims i k) (inputs : List Input)
    (k : K) :
    taken (M.after inputs) k ↔ taken M.initial k ∨ ∃ i ∈ inputs, claims i k := by
  induction inputs using List.reverseRecOn with
  | nil => simp [after, exec]
  | append_singleton inputs i ih =>
    rw [after_snoc, hstep, ih, or_assoc]
    simp only [List.mem_append, List.mem_singleton, or_and_right, exists_or, exists_eq_left]

end Machine

end Wayfinder
