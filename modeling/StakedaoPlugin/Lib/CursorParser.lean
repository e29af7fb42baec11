import Mathlib.Data.List.Infix
import Mathlib.Logic.Function.Iterate

/-! A parser that is handed one word at a time. A cursor selects a case of a
switch; the case acts on the word and moves the cursor, or leaves it. -/
namespace CursorParser
variable {φ α ω σ β : Type*}

/-- One case of the switch; `next = none` leaves the cursor where it is. -/
structure Case (φ α : Type*) where
  field : φ
  act : α
  next : Option φ

/-- Each case leads to the one below it, and the last one stays. -/
def Linked : List (Case φ α) → Prop
  | [] => True
  | [c] => c.next = none
  | c :: d :: rest => c.next = some d.field ∧ Linked (d :: rest)

structure Chain (cases : List (Case φ α)) : Prop where
  linked : Linked cases
  nodup : (cases.map Case.field).Nodup

/-- What is left of a chain after one word; the last case remains. -/
def advance : List α → List α
  | _ :: b :: rest => b :: rest
  | l => l

/-- The words in turn, each given to the first action of what is left. -/
def deliver (apply : α → ω → σ → σ) : List α → List ω → σ → σ
  | _, [], s => s
  | [], _ :: _, s => s
  | a :: rest, w :: ws, s => deliver apply (advance (a :: rest)) ws (apply a w s)

/-- The last word that an action selected by `hits` receives. -/
def lastHit (hits : α → Bool) : List α → List ω → Option ω
  | _, [] => none
  | [], _ :: _ => none
  | a :: rest, w :: ws =>
    (lastHit hits (advance (a :: rest)) ws).or (if hits a then some w else none)

theorem advance_suffix (l : List α) : advance l <:+ l := by
  cases l with
  | nil => exact List.suffix_refl _
  | cons a l =>
    cases l with
    | nil => exact List.suffix_refl _
    | cons b l => exact List.suffix_cons a (b :: l)

theorem map_advance (f : α → β) (l : List α) : (advance l).map f = advance (l.map f) := by
  cases l with
  | nil => rfl
  | cons a l => cases l <;> rfl

theorem map_advance_iterate (f : α → β) (n : Nat) (l : List α) :
    (advance^[n] l).map f = advance^[n] (l.map f) := by
  induction n generalizing l with
  | zero => rfl
  | succ n ih => rw [Function.iterate_succ_apply, Function.iterate_succ_apply, ih, map_advance]

theorem advance_iterate_nil (n : Nat) : advance^[n] ([] : List α) = [] := by
  induction n with
  | zero => rfl
  | succ n ih => exact ih

/-- One word more is given to the first action of what is left after the others. -/
theorem deliver_concat (apply : α → ω → σ → σ) (acts : List α) (ws : List ω) (w : ω) (s : σ)
    {a : α} {rest : List α} (h : advance^[ws.length] acts = a :: rest) :
    deliver apply acts (ws ++ [w]) s = apply a w (deliver apply acts ws s) := by
  induction ws generalizing acts s with
  | nil =>
    obtain rfl : acts = a :: rest := h
    rfl
  | cons v ws ih =>
    cases acts with
    | nil =>
      rw [advance_iterate_nil] at h
      cases h
    | cons c acts =>
      rw [List.length_cons, Function.iterate_succ_apply] at h
      exact ih (advance (c :: acts)) (apply c v s) h

/-- A field of the state holds the last word delivered to it, if there is one. -/
theorem read_deliver (apply : α → ω → σ → σ) (read : σ → β) (conv : ω → β) (hits : α → Bool)
    (hread : ∀ a w s, read (apply a w s) = if hits a then conv w else read s)
    (acts : List α) (ws : List ω) (s : σ) :
    read (deliver apply acts ws s) = ((lastHit hits acts ws).map conv).getD (read s) := by
  induction ws generalizing acts s with
  | nil => simp [deliver, lastHit]
  | cons w ws ih =>
    cases acts with
    | nil => simp [deliver, lastHit]
    | cons a rest =>
      rw [deliver, ih, hread, lastHit]
      cases lastHit hits (advance (a :: rest)) ws <;> by_cases h : hits a <;> simp [h]

theorem view_deliver (apply : α → ω → σ → σ) (view : σ → β)
    (hview : ∀ a w s, view (apply a w s) = view s) (acts : List α) (ws : List ω) (s : σ) :
    view (deliver apply acts ws s) = view s := by
  induction ws generalizing acts s with
  | nil => rfl
  | cons w ws ih =>
    cases acts with
    | nil => rfl
    | cons a rest => rw [deliver, ih, hview]

/-- The last case takes every word from then on. -/
theorem lastHit_singleton (hits : α → Bool) (a : α) (ws : List ω) :
    lastHit hits [a] ws = if hits a then ws.getLast? else none := by
  induction ws with
  | nil => simp [lastHit]
  | cons w ws ih =>
    rw [lastHit, advance, ih]
    · by_cases h : hits a <;> cases hw : ws.getLast? <;> simp [h, hw, List.getLast?_cons]
    · simp

theorem lastHit_eq_none (hits : α → Bool) (acts : List α) (ws : List ω)
    (h : ∀ a ∈ acts, hits a = false) : lastHit hits acts ws = none := by
  induction ws generalizing acts with
  | nil => simp [lastHit]
  | cons w ws ih =>
    cases acts with
    | nil => simp [lastHit]
    | cons a rest =>
      have hr : ∀ b ∈ advance (a :: rest), hits b = false := by
        intro b hb
        exact h b ((advance_suffix (a :: rest)).subset hb)
      simp [lastHit, ih _ hr, h a]

/-- A field filled by one case that is not the last holds the word of that case. -/
theorem lastHit_inner (hits : α → Bool) (init : List α) (a b : α) (rest : List α)
    (ws : List ω) (hi : ∀ c ∈ init, hits c = false) (ha : hits a = true)
    (hr : ∀ c ∈ b :: rest, hits c = false) :
    lastHit hits (init ++ a :: b :: rest) ws = ws[init.length]? := by
  induction init generalizing ws with
  | nil =>
    cases ws with
    | nil => simp [lastHit]
    | cons w ws => simp [lastHit, advance, lastHit_eq_none hits _ ws hr, ha]
  | cons c init ih =>
    cases ws with
    | nil => simp [lastHit]
    | cons w ws =>
      have hadv : advance (c :: (init ++ a :: b :: rest)) = init ++ a :: b :: rest := by
        cases init <;> rfl
      have hc : hits c = false := hi c (by simp)
      have hrec := ih ws (fun d hd => hi d (by simp [hd]))
      simp [lastHit, hadv, hrec, hc]

/-- A field filled by the last case alone holds the last word from there on. -/
theorem lastHit_last (hits : α → Bool) (init : List α) (a : α) (ws : List ω)
    (hi : ∀ c ∈ init, hits c = false) (ha : hits a = true) :
    lastHit hits (init ++ [a]) ws = (ws.drop init.length).getLast? := by
  induction init generalizing ws with
  | nil => simp [lastHit_singleton, ha]
  | cons c init ih =>
    cases ws with
    | nil => simp [lastHit]
    | cons w ws =>
      have hadv : advance (c :: (init ++ [a])) = init ++ [a] := by
        cases init <;> rfl
      have hc : hits c = false := hi c (by simp)
      have hrec := ih ws (fun d hd => hi d (by simp [hd]))
      simp [lastHit, hadv, hrec, hc]

/-- What one case receives is what the field holds, if no later case fills the
field and the last case is not given further words. -/
theorem lastHit_of_unique (hits : α → Bool) (acts : List α) (ws : List ω) {i : Nat} {a : α}
    {w : ω} (ha : acts[i]? = some a) (hw : ws[i]? = some w) (hhit : hits a = true)
    (hlater : ∀ j b, i < j → acts[j]? = some b → hits b = false)
    (hlen : ws.length ≤ acts.length ∨ i + 1 < acts.length) :
    lastHit hits acts ws = some w := by
  induction i generalizing acts ws with
  | zero =>
    obtain ⟨rest, rfl⟩ : ∃ rest, acts = a :: rest := by
      cases acts with
      | nil => simp at ha
      | cons c rest => exact ⟨rest, by simpa using ha⟩
    obtain ⟨ws, rfl⟩ : ∃ vs, ws = w :: vs := by
      cases ws with
      | nil => simp at hw
      | cons v vs => exact ⟨vs, by simpa using hw⟩
    have hnone : lastHit hits (advance (a :: rest)) ws = none := by
      cases rest with
      | nil =>
        have hnil : ws = [] := by simpa using hlen
        rw [hnil, lastHit]
      | cons b rest =>
        refine lastHit_eq_none hits _ ws ?_
        intro c hc
        obtain ⟨j, hj⟩ := List.mem_iff_getElem?.mp hc
        exact hlater (j + 1) c (by omega) hj
    rw [lastHit, hnone, if_pos hhit]
    rfl
  | succ i ih =>
    cases acts with
    | nil => simp at ha
    | cons c acts =>
      cases ws with
      | nil => simp at hw
      | cons v ws =>
        have hadv : advance (c :: acts) = acts := by
          cases acts with
          | nil => simp at ha
          | cons d rest => rfl
        have hrec := ih acts ws ha hw
          (fun j b hj hb => hlater (j + 1) b (by omega) hb) (by simpa using hlen)
        rw [lastHit, hadv, hrec]
        rfl

theorem Linked.suffix {cases rest : List (Case φ α)} (h : Linked cases) (hs : rest <:+ cases) :
    Linked rest := by
  induction cases with
  | nil => simpa [List.suffix_nil.mp hs] using h
  | cons c cases ih =>
    cases List.suffix_cons_iff.mp hs with
    | inl he => exact he ▸ h
    | inr ht =>
      cases cases with
      | nil => simp [List.suffix_nil.mp ht, Linked]
      | cons d cases => exact ih h.2 ht

section Switch
variable [DecidableEq φ]

/-- The switch on the cursor; `none` is its default branch. -/
def step (cases : List (Case φ α)) (f : φ) : Option (α × φ) :=
  (cases.find? fun c => c.field = f).map fun c => (c.act, c.next.getD f)

/-- All words in turn; `none` once a word meets the default branch. -/
def run (cases : List (Case φ α)) (apply : α → ω → σ → σ) :
    φ → List ω → σ → Option (φ × σ)
  | f, [], s => some (f, s)
  | f, w :: ws, s => (step cases f).bind fun p => run cases apply p.2 ws (apply p.1 w s)

theorem find?_suffix {cases : List (Case φ α)} (h : (cases.map Case.field).Nodup)
    {c : Case φ α} {rest : List (Case φ α)} (hs : c :: rest <:+ cases) :
    cases.find? (fun d => d.field = c.field) = some c := by
  obtain ⟨init, rfl⟩ := hs
  rw [List.find?_append]
  have hi : init.find? (fun d => d.field = c.field) = none := by
    rw [List.find?_eq_none]
    intro d hd
    have hdj := (List.nodup_append.mp (by simpa using h)).2.2
    simpa using hdj d.field (List.mem_map_of_mem hd) c.field (by simp)
  simp [hi]

/-- At the head of what is left of a chain, one word moves on to what is left after it. -/
theorem step_chain {cases : List (Case φ α)} (h : Chain cases) {c : Case φ α}
    {rest : List (Case φ α)} (hs : c :: rest <:+ cases) :
    ∃ d rest', advance (c :: rest) = d :: rest' ∧
      step cases c.field = some (c.act, d.field) := by
  have hl := h.linked.suffix hs
  cases rest with
  | nil =>
    refine ⟨c, [], rfl, ?_⟩
    have hn : c.next = none := hl
    simp [step, find?_suffix h.nodup hs, hn]
  | cons d rest =>
    refine ⟨d, rest, rfl, ?_⟩
    simp [step, find?_suffix h.nodup hs, hl.1]

/-- From a state on the chain no word meets the default branch: the cursor
stays on the chain and the actions are those of the chain, in order. -/
theorem run_chain {cases : List (Case φ α)} (h : Chain cases) (apply : α → ω → σ → σ)
    (ws : List ω) {c : Case φ α} {rest : List (Case φ α)} (hs : c :: rest <:+ cases) (s : σ) :
    ∃ d rest', advance^[ws.length] (c :: rest) = d :: rest' ∧ d :: rest' <:+ cases ∧
      run cases apply c.field ws s =
        some (d.field, deliver apply ((c :: rest).map Case.act) ws s) := by
  induction ws generalizing c rest s with
  | nil => exact ⟨c, rest, rfl, hs, rfl⟩
  | cons w ws ih =>
    obtain ⟨d, rest', hadv, hstep⟩ := step_chain h hs
    have hs' : d :: rest' <:+ cases := by
      rw [← hadv]
      exact (advance_suffix _).trans hs
    obtain ⟨e, rest'', hit, hsuf, hrun⟩ := ih hs' (apply c.act w s)
    refine ⟨e, rest'', ?_, hsuf, ?_⟩
    · rw [List.length_cons, Function.iterate_succ_apply, hadv, hit]
    · rw [run, hstep, Option.bind_some, hrun, ← hadv, map_advance]
      rfl

end Switch
end CursorParser
