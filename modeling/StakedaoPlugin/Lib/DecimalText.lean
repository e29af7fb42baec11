import Mathlib.Data.Nat.Digits.Lemmas
import Mathlib.Data.List.TakeWhile

/-! Canonical decimal notation of `n * 10^(-k)` in ASCII, and the big-endian
value of a byte string. Nothing here depends on how a program computes them. -/
namespace DecimalText

def digitByte (d : Nat) : UInt8 := UInt8.ofNat (48 + d)

theorem digitByte_toNat (d : Nat) (h : d < 10) : (digitByte d).toNat = 48 + d := by
  rw [digitByte, UInt8.toNat_ofNat']
  omega

theorem digitByte_inj (d e : Nat) (hd : d < 10) (he : e < 10)
    (h : digitByte d = digitByte e) : d = e := by
  have ht := congrArg UInt8.toNat h
  rw [digitByte_toNat d hd, digitByte_toNat e he] at ht
  omega

/-- Digits of a number, most significant first; zero is written with one digit. -/
def natText (n : Nat) : List UInt8 :=
  if n = 0 then [48] else (Nat.digits 10 n).reverse.map digitByte

/-- The `k` digits behind the point, least significant first, up to the last nonzero one. -/
def fracDigits (k f : Nat) : List Nat :=
  (Nat.digitsAppend 10 k f).dropWhile (· == 0)

def fracText (k f : Nat) : List UInt8 :=
  match fracDigits k f with
  | [] => []
  | d :: ds => 46 :: ((d :: ds).reverse.map digitByte)

/-- `n` scaled down by `k` decimals, without trailing zeros or a trailing point. -/
def decimalText (k n : Nat) : List UInt8 :=
  natText (n / 10 ^ k) ++ fracText k (n % 10 ^ k)

def IsDigit (b : UInt8) : Prop := 48 ≤ b.toNat ∧ b.toNat ≤ 57

theorem digitByte_isDigit (d : Nat) (h : d < 10) : IsDigit (digitByte d) := by
  rw [IsDigit, digitByte_toNat d h]
  omega

theorem map_digitByte_isDigit (ds : List Nat) (h : ∀ d ∈ ds, d < 10) :
    ∀ b ∈ ds.map digitByte, IsDigit b := by
  intro b hb
  obtain ⟨d, hd, rfl⟩ := List.mem_map.mp hb
  exact digitByte_isDigit d (h d hd)

theorem natText_isDigit (n : Nat) : ∀ b ∈ natText n, IsDigit b := by
  unfold natText
  split
  · simp [IsDigit]
  · refine map_digitByte_isDigit _ ?_
    intro d hd
    exact Nat.digits_lt_base (by omega) (List.mem_reverse.mp hd)

theorem fracDigits_lt (k f d : Nat) (h : d ∈ fracDigits k f) : d < 10 :=
  Nat.lt_of_mem_digitsAppend (by omega) k d ((List.dropWhile_suffix _).mem h)

/-- Every character is a digit or the point. -/
theorem decimalText_chars (k n : Nat) : ∀ b ∈ decimalText k n, IsDigit b ∨ b = 46 := by
  intro b hb
  rw [decimalText, List.mem_append] at hb
  cases hb with
  | inl h => exact Or.inl (natText_isDigit _ b h)
  | inr h =>
    unfold fracText at h
    split at h
    · simp at h
    · next d ds hds =>
      cases List.mem_cons.mp h with
      | inl h46 => exact Or.inr h46
      | inr hmem =>
        refine Or.inl (map_digitByte_isDigit _ ?_ b hmem)
        intro e he
        exact fracDigits_lt k _ e (by rw [hds]; exact List.mem_reverse.mp he)

theorem decimalText_ne_nul (k n : Nat) : ∀ b ∈ decimalText k n, b ≠ 0 := by
  intro b hb h0
  subst h0
  cases decimalText_chars k n 0 hb with
  | inl h => simp [IsDigit] at h
  | inr h => simp at h

theorem natText_length_le (n d : Nat) (hd : 1 ≤ d) (h : n < 10 ^ d) :
    (natText n).length ≤ d := by
  unfold natText
  split
  · simpa using hd
  · simpa using (Nat.digits_length_le_iff (by omega) n).mpr h

theorem fracText_length_le (k f : Nat) (h : f < 10 ^ k) : (fracText k f).length ≤ k + 1 := by
  have hl : (fracDigits k f).length ≤ k := by
    have ha := Nat.length_digitsAppend (by omega) k h
    have hs : (fracDigits k f).length ≤ (Nat.digitsAppend 10 k f).length :=
      (List.dropWhile_suffix _).length_le
    omega
  unfold fracText
  split
  · simp
  · next d ds hds =>
    rw [hds] at hl
    simpa using hl

theorem decimalText_length_le (k n d : Nat) (hd : 1 ≤ d) (h : n < 10 ^ d) :
    (decimalText k n).length ≤ d + k + 1 := by
  have hq : n / 10 ^ k < 10 ^ d := Nat.lt_of_le_of_lt (Nat.div_le_self n _) h
  have hi := natText_length_le _ d hd hq
  have hf := fracText_length_le k (n % 10 ^ k) (Nat.mod_lt _ (Nat.pow_pos (by omega)))
  rw [decimalText, List.length_append]
  omega

theorem map_digitByte_inj (xs ys : List Nat) (hx : ∀ d ∈ xs, d < 10) (hy : ∀ d ∈ ys, d < 10)
    (h : xs.map digitByte = ys.map digitByte) : xs = ys := by
  induction xs generalizing ys with
  | nil => simpa using h.symm
  | cons x xs ih =>
    cases ys with
    | nil => simp at h
    | cons y ys =>
      simp only [List.map_cons, List.cons.injEq] at h
      have hxy := digitByte_inj x y (hx x (by simp)) (hy y (by simp)) h.1
      have ht := ih ys (fun d hd => hx d (by simp [hd])) (fun d hd => hy d (by simp [hd])) h.2
      rw [hxy, ht]

theorem natText_zero_ne (n : Nat) (h : n ≠ 0) : natText n ≠ natText 0 := by
  intro he
  rw [natText, if_neg h, natText, if_pos rfl] at he
  have hd : (Nat.digits 10 n).reverse = [0] := by
    refine map_digitByte_inj _ _ ?_ ?_ ?_
    · intro d hd
      exact Nat.digits_lt_base (by omega) (List.mem_reverse.mp hd)
    · simp
    · simpa [digitByte] using he
  have hv : n = 0 := by
    have := Nat.ofDigits_digits 10 n
    rw [List.reverse_eq_iff.mp hd] at this
    simpa using this.symm
  exact h hv

theorem natText_inj (n m : Nat) (h : natText n = natText m) : n = m := by
  by_cases hn : n = 0
  · by_contra hne
    exact natText_zero_ne m (by omega) (by rw [← h, hn])
  · by_cases hm : m = 0
    · exact absurd (by rw [h, hm]) (natText_zero_ne n hn)
    · rw [natText, if_neg hn, natText, if_neg hm] at h
      have hd := map_digitByte_inj _ _
        (fun d hd => Nat.digits_lt_base (by omega) (List.mem_reverse.mp hd))
        (fun d hd => Nat.digits_lt_base (by omega) (List.mem_reverse.mp hd)) h
      exact Nat.digits_inj_iff.mp (List.reverse_injective hd)

/-- The zeros that `fracDigits` drops are determined by the number of decimals. -/
theorem digitsAppend_eq_replicate_append (k f : Nat) (h : f < 10 ^ k) :
    Nat.digitsAppend 10 k f =
      List.replicate (k - (fracDigits k f).length) 0 ++ fracDigits k f := by
  have hs := List.takeWhile_append_dropWhile (p := (· == 0)) (l := Nat.digitsAppend 10 k f)
  have hl := congrArg List.length hs
  rw [List.length_append, Nat.length_digitsAppend (by omega) k h] at hl
  have hz : (Nat.digitsAppend 10 k f).takeWhile (· == 0) =
      List.replicate (k - (fracDigits k f).length) 0 := by
    rw [List.eq_replicate_iff]
    constructor
    · unfold fracDigits
      omega
    · intro b hb
      simpa using List.mem_takeWhile_imp hb
  rw [← hz]
  exact hs.symm

theorem fracDigits_inj (k f g : Nat) (hf : f < 10 ^ k) (hg : g < 10 ^ k)
    (h : fracDigits k f = fracDigits k g) : f = g := by
  have hd : Nat.digitsAppend 10 k f = Nat.digitsAppend 10 k g := by
    rw [digitsAppend_eq_replicate_append k f hf, digitsAppend_eq_replicate_append k g hg, h]
  have hv := congrArg (Nat.ofDigits 10) hd
  simpa [Nat.digitsAppend, Nat.ofDigits_append_replicate_zero, Nat.ofDigits_digits] using hv

theorem fracText_inj (k f g : Nat) (hf : f < 10 ^ k) (hg : g < 10 ^ k)
    (h : fracText k f = fracText k g) : f = g := by
  refine fracDigits_inj k f g hf hg ?_
  unfold fracText at h
  split at h
  · next hnil =>
    split at h
    · next hnil' => rw [hnil, hnil']
    · simp at h
  · next d ds hds =>
    split at h
    · simp at h
    · next e es hes =>
      rw [hds, hes]
      refine List.reverse_injective (map_digitByte_inj _ _ ?_ ?_ ?_)
      · intro b hb
        exact fracDigits_lt k f b (by rw [hds]; exact List.mem_reverse.mp hb)
      · intro b hb
        exact fracDigits_lt k g b (by rw [hes]; exact List.mem_reverse.mp hb)
      · exact (List.cons.inj h).2

/-- The point ends the integer part, so both parts can be read back. -/
theorem takeWhile_decimalText (k n : Nat) :
    (decimalText k n).takeWhile (· ≠ 46) = natText (n / 10 ^ k) := by
  have hd : ∀ b ∈ natText (n / 10 ^ k), (decide (b ≠ 46)) = true := by
    intro b hb
    have hb' := natText_isDigit _ b hb
    rw [decide_eq_true_eq]
    rintro rfl
    simp [IsDigit] at hb'
  rw [decimalText, List.takeWhile_append_of_pos hd]
  unfold fracText
  split <;> simp

/-- At a fixed number of decimals distinct numbers have distinct texts. -/
theorem decimalText_inj (k n m : Nat) (h : decimalText k n = decimalText k m) : n = m := by
  have hint : natText (n / 10 ^ k) = natText (m / 10 ^ k) := by
    rw [← takeWhile_decimalText k n, ← takeWhile_decimalText k m, h]
  have hfrac : fracText k (n % 10 ^ k) = fracText k (m % 10 ^ k) := by
    rw [decimalText, decimalText, hint] at h
    exact List.append_cancel_left h
  have hpos : 0 < 10 ^ k := Nat.pow_pos (by omega)
  have hq := natText_inj _ _ hint
  have hr := fracText_inj k _ _ (Nat.mod_lt _ hpos) (Nat.mod_lt _ hpos) hfrac
  rw [← Nat.div_add_mod n (10 ^ k), ← Nat.div_add_mod m (10 ^ k), hq, hr]

/-- Big-endian value of a byte string. -/
def beNat (bs : List UInt8) : Nat := Nat.ofDigits 256 (bs.reverse.map UInt8.toNat)

theorem beNat_lt (bs : List UInt8) : beNat bs < 256 ^ bs.length := by
  have hlt : ∀ d ∈ bs.reverse.map UInt8.toNat, d < 256 := by
    intro d hd
    obtain ⟨b, _, rfl⟩ := List.mem_map.mp hd
    exact b.toNat_lt
  simpa [beNat] using Nat.ofDigits_lt_base_pow_length (by omega) hlt

theorem beNat_append (xs ys : List UInt8) :
    beNat (xs ++ ys) = beNat xs * 256 ^ ys.length + beNat ys := by
  simp only [beNat, List.reverse_append, List.map_append, Nat.ofDigits_append, List.length_map,
    List.length_reverse]
  rw [Nat.add_comm, Nat.mul_comm]

/-- The bytes that remain carry the residue of the value. -/
theorem beNat_drop (bs : List UInt8) (k : Nat) :
    beNat (bs.drop k) = beNat bs % 256 ^ (bs.drop k).length := by
  have hsplit := beNat_append (bs.take k) (bs.drop k)
  rw [List.take_append_drop] at hsplit
  rw [hsplit, Nat.mul_add_mod_self_right, Nat.mod_eq_of_lt (beNat_lt _)]

theorem beNat_inj (xs ys : List UInt8) (hl : xs.length = ys.length)
    (h : beNat xs = beNat ys) : xs = ys := by
  have hlt (bs : List UInt8) : ∀ d ∈ bs.reverse.map UInt8.toNat, d < 256 := by
    intro d hd
    obtain ⟨b, _, rfl⟩ := List.mem_map.mp hd
    exact b.toNat_lt
  have hd := Nat.ofDigits_inj_of_len_eq (by omega) (by simpa using hl) (hlt xs) (hlt ys) h
  have hu : Function.Injective UInt8.toNat := fun _ _ => UInt8.toNat.inj
  exact List.reverse_injective (List.map_injective_iff.mpr hu hd)

theorem beNat_toList_inj {n : Nat} (a b : Vector UInt8 n)
    (h : beNat a.toList = beNat b.toList) : a = b := by
  have hl : a.toList.length = b.toList.length := by
    rw [Vector.length_toList, Vector.length_toList]
  exact Vector.toList_inj.mp (beNat_inj _ _ hl h)

end DecimalText
