import Mathlib.Data.List.Basic

/-! Runs of a step function over a list of calls: what every step keeps, and
state that every step either leaves or refreshes in the same way. -/
namespace History
variable {α σ β : Type*}

def run (step : α → σ → σ) (calls : List α) (s : σ) : σ :=
  calls.foldl (fun s a => step a s) s

/-- An invariant of the steps that a history takes holds at its end. -/
theorem run_invariant (step : α → σ → σ) (P : σ → Prop) (calls : List α) (s : σ)
    (hs : P s) (hstep : ∀ a ∈ calls, ∀ t, P t → P (step a t)) : P (run step calls s) := by
  induction calls generalizing s with
  | nil => exact hs
  | cons a calls ih =>
    exact ih (step a s) (hstep a (by simp) s hs) (fun b hb => hstep b (by simp [hb]))

/-- A relation between two states that each call keeps holds after every history. -/
theorem run_relation {τ : Type*} (f : α → σ → σ) (g : α → τ → τ) (R : σ → τ → Prop)
    (hstep : ∀ a s t, R s t → R (f a s) (g a t)) (calls : List α) {s : σ} {t : τ} (hst : R s t) :
    R (run f calls s) (run g calls t) := by
  induction calls generalizing s t with
  | nil => exact hst
  | cons a calls ih => exact ih (hstep a s t hst)

theorem run_concat (step : α → σ → σ) (calls : List α) (a : α) (s : σ) :
    run step (calls ++ [a]) s = step a (run step calls s) := by
  simp only [run, List.foldl_append, List.foldl_cons, List.foldl_nil]

/-- If each step either leaves the state or refreshes it by an idempotent `f`,
then after a last refresh no history can be told from any other. -/
theorem refresh_run (step : α → σ → σ) (f : σ → σ) (hf : ∀ s, f (f s) = f s)
    (calls : List α) (hstep : ∀ a ∈ calls, ∀ s, step a s = s ∨ step a s = f s) (s : σ) :
    f (run step calls s) = f s := by
  refine run_invariant step (fun t => f t = f s) calls s rfl ?_
  intro a ha t ht
  cases hstep a ha t with
  | inl h => rw [h, ht]
  | inr h => rw [h, hf, ht]

end History
