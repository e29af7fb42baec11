import Mathlib.Data.List.GetD
import Mathlib.Data.Nat.Digits.Lemmas

/-! Numerals in any base as programs write them: the largest power of the base
that is not above the number is found by multiplication, and the digits by
dividing by that power and the ones below it. -/
namespace Numeral

/-- The digits of a number, most significant first; zero has one digit. -/
def digitsOf (b n : Nat) : List Nat := if n = 0 then [0] else (Nat.digits b n).reverse

/-- The digits from the one at `b^k` downwards. -/
def divided (b n : Nat) : Nat → List Nat
  | 0 => [n % b]
  | k + 1 => n / b ^ (k + 1) % b :: divided b n k

theorem divided_eq_map (b n k : Nat) :
    divided b n k = ((List.range (k + 1)).map fun i => n / b ^ i % b).reverse := by
  induction k with
  | zero => simp [divided]
  | succ k ih => rw [divided, ih, List.range_succ (n := k + 1), List.map_append]; simp

theorem digits_eq_map (b n : Nat) (hb : 2 ≤ b) :
    Nat.digits b n = (List.range (Nat.digits b n).length).map fun i => n / b ^ i % b := by
  refine List.ext_getElem (by simp) ?_
  intro i hi _
  rw [List.getElem_map, List.getElem_range, ← Nat.getD_digits n i hb, List.getD_eq_getElem _ _ hi]

/-- From the largest power downwards these are all digits. -/
theorem divided_log (b n : Nat) (hb : 2 ≤ b) : divided b n (Nat.log b n) = digitsOf b n := by
  unfold digitsOf
  split
  · next h =>
    rw [h, Nat.log_zero_right, divided, Nat.zero_mod]
  · next h =>
    rw [divided_eq_map, digits_eq_map b n hb, Nat.length_digits b n hb h]

theorem length_digitsOf (b n : Nat) (hb : 2 ≤ b) : (digitsOf b n).length = Nat.log b n + 1 := by
  rw [← divided_log b n hb, divided_eq_map, List.length_reverse, List.length_map,
    List.length_range]

theorem digitsOf_lt (b n : Nat) (hb : 2 ≤ b) : ∀ d ∈ digitsOf b n, d < b := by
  intro d hd
  rw [← divided_log b n hb, divided_eq_map, List.mem_reverse, List.mem_map] at hd
  obtain ⟨i, -, rfl⟩ := hd
  exact Nat.mod_lt _ (by omega)

/-- The digits determine the number. -/
theorem ofDigits_digitsOf (b n : Nat) : Nat.ofDigits b (digitsOf b n).reverse = n := by
  unfold digitsOf
  split
  · next h => simp [h]
  · rw [List.reverse_reverse, Nat.ofDigits_digits]

theorem digitsOf_inj {b n m : Nat} (h : digitsOf b n = digitsOf b m) : n = m := by
  rw [← ofDigits_digitsOf b n, h, ofDigits_digitsOf]

/-- Reading the digits from the left gives the number. -/
theorem foldl_digitsOf (b n : Nat) : (digitsOf b n).foldl (fun v d => v * b + d) 0 = n := by
  have hvalue (ds : List Nat) :
      ds.foldl (fun v d => v * b + d) 0 = Nat.ofDigits b ds.reverse := by
    rw [Nat.ofDigits_eq_foldr, List.foldr_reverse]
    congr 1
    funext v d
    rw [Nat.cast_id, Nat.mul_comm, Nat.add_comm]
  rw [hvalue, ofDigits_digitsOf]

theorem digitsOf_eq_cons {b n : Nat} (hn : n ≠ 0) : ∃ d ds, digitsOf b n = d :: ds ∧ d ≠ 0 := by
  have hne : Nat.digits b n ≠ [] := Nat.digits_ne_nil_iff_ne_zero.mpr hn
  have hlast := Nat.getLast_digit_ne_zero b hn
  refine ⟨(Nat.digits b n).getLast hne, (Nat.digits b n).dropLast.reverse, ?_, hlast⟩
  rw [digitsOf, if_neg hn]
  have hsplit := List.dropLast_append_getLast hne
  conv_lhs => rw [← hsplit]
  rw [List.reverse_append]
  rfl

section Bytes

/-- Each byte as two digits in base 16. -/
def nibbles (bs : List UInt8) : List Nat := bs.flatMap fun b => [b.toNat / 16, b.toNat % 16]

def ofNibbles : List Nat → List UInt8
  | high :: low :: ds => UInt8.ofNat (16 * high + low) :: ofNibbles ds
  | _ => []

theorem ofNibbles_nibbles (bs : List UInt8) : ofNibbles (nibbles bs) = bs := by
  induction bs with
  | nil => rfl
  | cons b bs ih =>
    have hb : UInt8.ofNat (16 * (b.toNat / 16) + b.toNat % 16) = b := by
      rw [Nat.div_add_mod, UInt8.ofNat_toNat]
    have hcons : nibbles (b :: bs) = b.toNat / 16 :: b.toNat % 16 :: nibbles bs := rfl
    rw [hcons, ofNibbles, hb, ih]

theorem nibbles_lt (bs : List UInt8) : ∀ d ∈ nibbles bs, d < 16 := by
  intro d hd
  obtain ⟨b, -, hb⟩ := List.mem_flatMap.mp hd
  have hlt := b.toNat_lt
  simp only [List.mem_cons, List.not_mem_nil, or_false] at hb
  omega

end Bytes

section Text
variable (digit : Nat → UInt8)

/-- A numeral in the characters of a digit table. -/
def text (b n : Nat) : List UInt8 := (digitsOf b n).map digit

/-- A table that has a character of its own for each digit of the base. -/
def Distinct (b : Nat) : Prop := ∀ d < b, ∀ e < b, digit d = digit e → d = e

variable {digit}

theorem map_digit_inj {b : Nat} (hdigit : Distinct digit b) {ds es : List Nat}
    (hds : ∀ d ∈ ds, d < b) (hes : ∀ e ∈ es, e < b) (h : ds.map digit = es.map digit) :
    ds = es := by
  induction ds generalizing es with
  | nil => simpa using h.symm
  | cons d ds ih =>
    cases es with
    | nil => simp at h
    | cons e es =>
      rw [List.map_cons, List.map_cons, List.cons.injEq] at h
      have hd := hdigit d (hds d (by simp)) e (hes e (by simp)) h.1
      have hrest := ih (fun x hx => hds x (by simp [hx])) (fun x hx => hes x (by simp [hx])) h.2
      rw [hd, hrest]

theorem text_inj {b n m : Nat} (hb : 2 ≤ b) (hdigit : Distinct digit b)
    (h : text digit b n = text digit b m) : n = m :=
  digitsOf_inj (map_digit_inj hdigit (digitsOf_lt b n hb) (digitsOf_lt b m hb) h)

theorem length_text (b n : Nat) (hb : 2 ≤ b) : (text digit b n).length = Nat.log b n + 1 := by
  rw [text, List.length_map, length_digitsOf b n hb]

/-- Bytes in base 16 can be read back. -/
theorem hex_inj (hdigit : Distinct digit 16) {bs cs : List UInt8}
    (h : (nibbles bs).map digit = (nibbles cs).map digit) : bs = cs := by
  have hn := map_digit_inj hdigit (nibbles_lt bs) (nibbles_lt cs) h
  rw [← ofNibbles_nibbles bs, hn, ofNibbles_nibbles]

end Text
end Numeral
