import StakedaoPlugin.Lib.History
import Mathlib.Data.List.Forall2

/-! Machines that answer each input they are given, and simulations between two
of them: what one step keeps holds for the answers of every run. -/
namespace Simulation
open History
variable {ι ο ο' σ σ' : Type*}

structure Mealy (ι ο σ : Type*) where
  next : ι → σ → σ
  answer : ι → σ → ο

/-- The answers to a list of inputs, in order. -/
def Mealy.answers (m : Mealy ι ο σ) : List ι → σ → List ο
  | [], _ => []
  | i :: is, s => m.answer i s :: m.answers is (m.next i s)

/-- Related states stay related and give answers that agree. -/
structure Simulates (m : Mealy ι ο σ) (n : Mealy ι ο' σ') (R : σ → σ' → Prop)
    (Agree : ο → ο' → Prop) : Prop where
  next : ∀ i s t, R s t → R (m.next i s) (n.next i t)
  answer : ∀ i s t, R s t → Agree (m.answer i s) (n.answer i t)

section Runs
variable {m : Mealy ι ο σ} {n : Mealy ι ο' σ'} {R : σ → σ' → Prop} {Agree : ο → ο' → Prop}

theorem Simulates.run (h : Simulates m n R Agree) (is : List ι) {s : σ} {t : σ'} (hst : R s t) :
    R (run m.next is s) (run n.next is t) :=
  run_relation m.next n.next R h.next is hst

theorem Simulates.answers (h : Simulates m n R Agree) (is : List ι) {s : σ} {t : σ'}
    (hst : R s t) : List.Forall₂ Agree (m.answers is s) (n.answers is t) := by
  induction is generalizing s t with
  | nil => exact List.Forall₂.nil
  | cons i is ih => exact List.Forall₂.cons (h.answer i s t hst) (ih (h.next i s t hst))

end Runs

section Equivalence
variable {m : Mealy ι ο σ} {s t : σ}

/-- States that no sequence of inputs can tell apart by its answers. -/
def Mealy.Equivalent (m : Mealy ι ο σ) (s t : σ) : Prop := ∀ is, m.answers is s = m.answers is t

theorem Mealy.Equivalent.answer (h : m.Equivalent s t) (i : ι) : m.answer i s = m.answer i t :=
  (List.cons.inj (h [i])).1

theorem Mealy.Equivalent.run (h : m.Equivalent s t) (is : List ι) :
    m.Equivalent (run m.next is s) (run m.next is t) := by
  induction is generalizing s t with
  | nil => exact h
  | cons i is ih => exact ih fun js => (List.cons.inj (h (i :: js))).2

/-- A relation that every input keeps, and whose states answer alike, is not seen. -/
theorem Simulates.equivalent {R : σ → σ → Prop} (h : Simulates m m R Eq) (hst : R s t) :
    m.Equivalent s t := by
  intro is
  have hanswers := h.answers is hst
  rwa [List.forall₂_eq_eq_eq] at hanswers

end Equivalence
end Simulation
