import Mathlib.Data.List.Basic

/-! Records written one behind the other, and when they can be read back: when none
is the beginning of another, as when each ends in a terminator of its own. -/
namespace Records
variable {α β : Type*} {f : α → List β}

def PrefixFree (f : α → List β) : Prop := ∀ x y, f x <+: f y → x = y

/-- The text up to a separator and the text behind it. -/
theorem append_cons_inj {c : β} {xs ys us vs : List β} (hx : c ∉ xs) (hy : c ∉ ys)
    (h : xs ++ c :: us = ys ++ c :: vs) : xs = ys ∧ us = vs := by
  induction xs generalizing ys with
  | nil =>
    cases ys with
    | nil => exact ⟨rfl, (List.cons.inj h).2⟩
    | cons b ys => exact absurd (List.cons.inj h).1 (List.ne_of_not_mem_cons hy)
  | cons a xs ih =>
    cases ys with
    | nil => exact absurd (List.cons.inj h).1.symm (List.ne_of_not_mem_cons hx)
    | cons b ys =>
      obtain ⟨hab, hrest⟩ := List.cons.inj h
      obtain ⟨hxs, hus⟩ :=
        ih (List.not_mem_of_not_mem_cons hx) (List.not_mem_of_not_mem_cons hy) hrest
      exact ⟨by rw [hab, hxs], hus⟩

/-- Different records that end in a terminator, and do not have it inside. -/
theorem prefixFree_of_terminated (c : β) (hf : ∀ x, ∃ body, f x = body ++ [c] ∧ c ∉ body)
    (hinj : ∀ x y, f x = f y → x = y) : PrefixFree f := by
  intro x y h
  obtain ⟨rest, hrest⟩ := h
  obtain ⟨bx, hx, hcx⟩ := hf x
  obtain ⟨yb, hy, hcy⟩ := hf y
  rw [hx, hy, List.append_assoc, List.singleton_append] at hrest
  obtain ⟨hbody, -⟩ := append_cons_inj hcx hcy hrest
  exact hinj x y (by rw [hx, hy, hbody])

/-- What is written determines the records, each of them and their order. -/
theorem PrefixFree.flatMap_inj (hf : PrefixFree f) (hne : ∀ x, f x ≠ []) {xs ys : List α}
    (h : xs.flatMap f = ys.flatMap f) : xs = ys := by
  induction xs generalizing ys with
  | nil =>
    cases ys with
    | nil => rfl
    | cons y ys =>
      rw [List.flatMap_nil, List.flatMap_cons] at h
      exact absurd (List.append_eq_nil_iff.mp h.symm).1 (hne y)
  | cons x xs ih =>
    cases ys with
    | nil =>
      rw [List.flatMap_nil, List.flatMap_cons] at h
      exact absurd (List.append_eq_nil_iff.mp h).1 (hne x)
    | cons y ys =>
      rw [List.flatMap_cons, List.flatMap_cons] at h
      have hx : f x <+: f x ++ xs.flatMap f := List.prefix_append _ _
      have hy : f y <+: f x ++ xs.flatMap f := h ▸ List.prefix_append _ _
      -- the shorter of the two first records is the beginning of the other
      have hxy : x = y := by
        cases List.prefix_or_prefix_of_prefix hx hy with
        | inl hp => exact hf x y hp
        | inr hp => exact (hf y x hp).symm
      subst hxy
      rw [ih (List.append_cancel_left h)]

end Records
