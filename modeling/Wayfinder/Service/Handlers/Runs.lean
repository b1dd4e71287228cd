import Wayfinder.Service.Handlers.Change

/-! Runs of the service, and ids that are drawn in them.

Every id the service makes is a tag with a UUID behind it. `Drawn` says which draw it comes
from, so an id drawn earlier is not the one drawn now when no UUID is drawn twice. That
much is assumed of the draws up to the end of a run, and `run_invariant` hands it to each of
its steps. -/
namespace Wayfinder.Service.Handlers

open Js Envelope

variable {P : Primitives} {E : Env}

theorem Change.draws_le {w w' : World} {request : Request} {outcome : Outcome}
    (h : Change P E w request w' outcome) : w.draws ≤ w'.draws := by
  cases h with
  | quiet hdraws _ => exact hdraws
  | minted _ hmint =>
    have := Tokens.mintToken_next hmint
    show w.draws ≤ _ + 1 + responseDraws
    omega
  | moved =>
    show w.draws ≤ w.draws + Tokens.transferDraws + 1 + responseDraws
    omega
  | revoked => exact Nat.le_add_right _ _
  | created => exact Nat.le_trans (Nat.le_add_right _ _) (Nat.le_add_right _ _)
  | issued => exact Nat.le_trans (Nat.le_add_right _ _) (Nat.le_add_right _ _)
  | registered => exact Nat.le_trans (Nat.le_add_right _ _) (Nat.le_add_right _ _)

theorem draws_le (w : World) (request : Request) : w.draws ≤ (handle P E w request).1.draws :=
  (handle_change w request).draws_le

variable (P E)

/-- The world after a run. -/
abbrev after (requests : List Request) : World := (service P E).after requests

/-- The requests of a run, each with its outcome. -/
abbrev history (requests : List Request) : List (Request × Outcome) :=
  (service P E).history requests

variable {P E}

theorem history_append (pre post : List Request) :
    history P E (pre ++ post) = history P E pre ++ (service P E).trace (after P E pre) post :=
  Machine.trace_append _ _ pre post

theorem mem_requests {requests : List Request} {request : Request} {outcome : Outcome}
    (h : (request, outcome) ∈ history P E requests) : request ∈ requests := by
  have hmem := List.mem_map_of_mem (f := Prod.fst) h
  rwa [history, Machine.history, Machine.trace_inputs] at hmem

theorem draws_le_append (pre post : List Request) :
    (after P E pre).draws ≤ (after P E (pre ++ post)).draws := by
  rw [after, after, Machine.after_append]
  exact Machine.exec_related (I := fun _ => True) (R := fun w w' : World => w.draws ≤ w'.draws)
    (fun _ => Nat.le_refl _) Nat.le_trans (fun _ _ _ => trivial)
    (fun w request _ => draws_le w request) post trivial

/-- The last request of a run makes a change, and is the last event of its history. -/
theorem after_snoc_change (requests : List Request) (request : Request) : ∃ outcome,
    Change P E (after P E requests) request (after P E (requests ++ [request])) outcome ∧
      history P E (requests ++ [request]) = history P E requests ++ [(request, outcome)] := by
  have hafter : after P E (requests ++ [request]) = (handle P E (after P E requests) request).1 :=
    Machine.after_snoc _ requests request
  refine ⟨_, ?_, Machine.history_snoc _ requests request⟩
  rw [hafter]
  exact handle_change _ request

theorem outcome_eq {requests : List Request} {request : Request} {outcome : Outcome}
    (h : history P E (requests ++ [request]) = history P E requests ++ [(request, outcome)]) :
    (handle P E (after P E requests) request).2 = outcome := by
  have hlast := (Machine.history_snoc (service P E) requests request).symm.trans h
  exact (Prod.mk.inj (List.cons.inj (List.append_cancel_left hlast)).1).2

/-- What holds of the empty run, and of a run with one more request when it held before and
the draws meet a bound, holds of every run whose draws meet it. -/
theorem run_induction {I : List Request → Prop} {F : Nat → Prop} (hF : ∀ {m n}, m ≤ n → F n → F m)
    (h : I [])
    (hstep : ∀ {requests request outcome},
      Change P E (after P E requests) request (after P E (requests ++ [request])) outcome →
      history P E (requests ++ [request]) = history P E requests ++ [(request, outcome)] →
      F (after P E (requests ++ [request])).draws → I requests → I (requests ++ [request]))
    (requests : List Request) (hend : F (after P E requests).draws) : I requests := by
  refine Machine.run_induction (M := service P E) (F := fun w => F w.draws) h
    (fun w request hw => hF (draws_le w request) hw)
    (fun requests request hdraws hI => ?_) requests hend
  obtain ⟨outcome, hchange, hhistory⟩ := after_snoc_change (P := P) (E := E) requests request
  exact hstep hchange hhistory hdraws hI

/-- What holds of a world and is kept by every change within the bound holds however the run
goes on within it. -/
theorem continue_invariant {I : World → Prop} {F : Nat → Prop} (hF : ∀ {m n}, m ≤ n → F n → F m)
    (hstep : ∀ {w request w' outcome}, Change P E w request w' outcome → F w'.draws → I w → I w')
    (pre post : List Request) (hend : F (after P E (pre ++ post)).draws) (h : I (after P E pre)) :
    I (after P E (pre ++ post)) := by
  induction post using List.reverseRecOn with
  | nil => rwa [List.append_nil]
  | append_singleton post request ih =>
    rw [← List.append_assoc] at hend ⊢
    obtain ⟨outcome, hchange, _⟩ := after_snoc_change (P := P) (E := E) (pre ++ post) request
    exact hstep hchange hend (ih (hF hchange.draws_le hend))

/-- The same of a run from the start. -/
theorem run_invariant {I : World → Prop} {F : Nat → Prop} (hF : ∀ {m n}, m ≤ n → F n → F m)
    (h : I (service P E).initial)
    (hstep : ∀ {w request w' outcome}, Change P E w request w' outcome → F w'.draws → I w → I w')
    (requests : List Request) (hend : F (after P E requests).draws) : I (after P E requests) :=
  continue_invariant hF hstep [] requests hend h

/-! ### Ids -/

/-- An id with a tag, from one of the first `n` draws. -/
def Drawn (E : Env) (tag : Str) (n : Nat) (id : Str) : Prop := ∃ i, i < n ∧ id = tag ++ E.uuid i

theorem Drawn.mono {tag id : Str} {m n : Nat} (h : Drawn E tag m id) (hmn : m ≤ n) :
    Drawn E tag n id := by
  obtain ⟨i, hi, hid⟩ := h
  exact ⟨i, Nat.lt_of_lt_of_le hi hmn, hid⟩

/-- An id drawn earlier is not drawn again. -/
theorem Drawn.ne {tag id : Str} {n i m : Nat} (h : Drawn E tag n id) (hfresh : E.FreshIds m)
    (hn : n ≤ i) (hi : i < m) : id ≠ tag ++ E.uuid i := by
  intro he
  obtain ⟨j, hj, hid⟩ := h
  have : j = i := hfresh j i (by omega) hi (List.append_cancel_left (hid.symm.trans he))
  omega

end Wayfinder.Service.Handlers
