import StakedaoPlugin.Debug.Prints
import StakedaoPlugin.Lib.Numeral

/-! The number conversions of `semihosted_printf`: the label `convert`, where the
digits are counted, padded and written to the 16 bytes of `pcBuf`. -/
namespace StakedaoPlugin.Debug
open CMemory Numeral

/-- `g_pcHex` and `g_pcHex_cap`. -/
def pcHex : List UInt8 := literal "0123456789abcdef"
def pcHexCap : List UInt8 := literal "0123456789ABCDEF"

/-- The digit at an index that is masked or reduced before. -/
def hexDigit (cap : Bool) (i : Nat) : UInt8 :=
  (if cap then pcHexCap else pcHex)[i]?.getD 0

/-- `pcBuf[ulPos++] = c`; the buffer is kept up to `ulPos`. -/
def put (c : UInt8) (buf : List UInt8) : Except Fault (List UInt8) :=
  if buf.length < 16 then .ok (buf ++ [c]) else .error .overflow

section Loops
variable (base value : UInt32)

/-- The loop for the largest power of the base that is not above the value, with
the pad count going down. The power at least doubles, so 32 rounds are enough. -/
def magnitude : Nat → UInt32 → UInt32 → UInt32 × UInt32
  | 0, idx, count => (idx, count)
  | rounds + 1, idx, count =>
    if idx * base ≤ value ∧ idx * base / base = idx then
      magnitude rounds (idx * base) (count - 1)
    else (idx, count)

/-- `for (ulCount--; ulCount; ulCount--)`, from the decremented count. -/
def padding (fill : UInt8) : Nat → List UInt8 → Except Fault (List UInt8)
  | 0, buf => .ok buf
  | count + 1, buf => (put fill buf).bind (padding fill count)

/-- `for (; ulIdx; ulIdx /= ulBase)` -/
def digitLoop (cap : Bool) : Nat → UInt32 → List UInt8 → Except Fault (List UInt8)
  | 0, _, buf => .ok buf
  | rounds + 1, idx, buf =>
    if idx = 0 then .ok buf
    else (put (hexDigit cap (value / idx % base).toNat) buf).bind
      (digitLoop cap rounds (idx / base))

end Loops

/-- The variables of one directive. `strlenSet` says where the length of a string
comes from; `idx` is what the last loop left in `ulIdx`. -/
inductive StrlenSet where
  | strlen
  | given
  | prepad
deriving DecidableEq

structure Directive where
  count : UInt32
  fill : UInt8
  strlen : UInt32
  strlenSet : StrlenSet
  cap : Bool
  base : UInt32
  idx : UInt32
deriving DecidableEq

/-- What is written to `pcBuf`. -/
def pcBuf (d : Directive) (value : UInt32) (neg : Bool) : Except Fault (List UInt8) :=
  let power := magnitude d.base value 32 1 d.count
  let count := if neg then power.2 - 1 else power.2
  let first := neg && decide (d.fill = 48)
  let buf := if first then put 45 [] else .ok []
  let buf := if 1 < count ∧ count < 16 then buf.bind (padding d.fill (count - 1).toNat) else buf
  let buf := if neg && !first then buf.bind (put 45) else buf
  buf.bind (digitLoop d.base value d.cap 32 power.1)

/-- The label `convert`. -/
def convert (d : Directive) (value : UInt32) (neg : Bool) : Printed :=
  match pcBuf d value neg with
  | .ok buf => prints buf (UInt16.ofNat buf.length)
  | .error fault => .stopped fault

section Spec
variable {base value : UInt32}

/-- Several bytes in turn. -/
def puts (cs buf : List UInt8) : Except Fault (List UInt8) :=
  if buf.length + cs.length ≤ 16 then .ok (buf ++ cs) else .error .overflow

theorem put_eq (c : UInt8) (buf : List UInt8) : put c buf = puts [c] buf := by
  simp only [put, puts, List.length_singleton, Nat.lt_iff_add_one_le]

/-- Writing on after bytes that fit. -/
theorem puts_bind (cs ds buf : List UInt8) (f : List UInt8 → Except Fault (List UInt8))
    (hf : ∀ b : List UInt8, b.length ≤ 16 → f b = puts ds b) :
    (puts cs buf).bind f = puts (cs ++ ds) buf := by
  unfold puts
  by_cases hcs : buf.length + cs.length ≤ 16
  · have hlen : (buf ++ cs).length ≤ 16 := by rwa [List.length_append]
    rw [if_pos hcs]
    refine (hf _ hlen).trans ?_
    simp only [puts, List.length_append, List.append_assoc, Nat.add_assoc]
  · have hall : ¬ buf.length + (cs ++ ds).length ≤ 16 := by
      rw [List.length_append]
      omega
    rw [if_neg hcs, if_neg hall]
    rfl

theorem padding_eq (fill : UInt8) (count : Nat) (buf : List UInt8) (hbuf : buf.length ≤ 16) :
    padding fill count buf = puts (List.replicate count fill) buf := by
  induction count generalizing buf with
  | zero => simp [padding, puts, hbuf]
  | succ count ih =>
    rw [padding, put_eq, List.replicate_succ, ← List.singleton_append]
    exact puts_bind [fill] _ buf _ (fun b hb => ih b hb)

/-- One round of the power loop: it goes on while the next power is not above the
value, also where that power does not fit in 32 bits. -/
theorem magnitude_step (idx value : UInt32) (hbase : 2 ≤ base.toNat) :
    (idx * base ≤ value ∧ idx * base / base = idx) ↔ idx.toNat * base.toNat ≤ value.toNat := by
  have hvalue := value.toNat_lt
  rw [UInt32.le_iff_toNat_le, ← UInt32.toNat_inj, UInt32.toNat_div, UInt32.toNat_mul]
  by_cases hfit : idx.toNat * base.toNat < 2 ^ 32
  · rw [Nat.mod_eq_of_lt hfit, Nat.mul_div_cancel _ (by omega)]
    simp
  · -- the product wraps, and dividing gives less than the power that was multiplied
    have hwrap : idx.toNat * base.toNat % 2 ^ 32 / base.toNat < idx.toNat := by
      rw [Nat.div_lt_iff_lt_mul (by omega)]
      have hmod := Nat.mod_lt (idx.toNat * base.toNat) (y := 2 ^ 32) (by omega)
      omega
    constructor
    · intro h
      omega
    · intro h
      omega

theorem log_lt (value : UInt32) (hbase : 2 ≤ base.toNat) : Nat.log base.toNat value.toNat < 32 := by
  have hvalue := value.toNat_lt
  have hpow : value.toNat < base.toNat ^ 32 := by
    calc
      value.toNat < 2 ^ 32 := hvalue
      _ ≤ base.toNat ^ 32 := Nat.pow_le_pow_left hbase 32
  exact Nat.log_lt_of_lt_pow' (by omega) hpow

/-- The loop ends with the largest power that is not above the value, and has
taken one from the count for each digit behind the first. -/
theorem magnitude_eq (value : UInt32) (hbase : 2 ≤ base.toNat) (rounds j : Nat)
    (idx count : UInt32)
    (hidx : idx.toNat = base.toNat ^ j) (hj : j ≤ Nat.log base.toNat value.toNat)
    (hrounds : Nat.log base.toNat value.toNat ≤ j + rounds) :
    (magnitude base value rounds idx count).1.toNat =
        base.toNat ^ Nat.log base.toNat value.toNat ∧
      (magnitude base value rounds idx count).2 =
        count - UInt32.ofNat (Nat.log base.toNat value.toNat - j) := by
  induction rounds generalizing j idx count with
  | zero =>
    have he : j = Nat.log base.toNat value.toNat := by omega
    rw [magnitude, ← he, Nat.sub_self]
    exact ⟨hidx, (UInt32.sub_zero count).symm⟩
  | succ rounds ih =>
    have hstep := magnitude_step idx value hbase
    rw [hidx, ← pow_succ] at hstep
    rw [magnitude]
    by_cases hgo : base.toNat ^ (j + 1) ≤ value.toNat
    · have hlt : j + 1 ≤ Nat.log base.toNat value.toNat := Nat.le_log_of_pow_le (by omega) hgo
      have hnext : (idx * base).toNat = base.toNat ^ (j + 1) := by
        have hvalue := value.toNat_lt
        rw [UInt32.toNat_mul, hidx, ← pow_succ, Nat.mod_eq_of_lt (by omega)]
      obtain ⟨hpower, hcount⟩ := ih (j + 1) (idx * base) (count - 1) hnext hlt (by omega)
      rw [if_pos (hstep.mpr hgo)]
      refine ⟨hpower, ?_⟩
      have hone : Nat.log base.toNat value.toNat - j =
          1 + (Nat.log base.toNat value.toNat - (j + 1)) := by omega
      have hcomm : count - 1 - UInt32.ofNat (Nat.log base.toNat value.toNat - (j + 1)) =
          count - (UInt32.ofNat 1 + UInt32.ofNat (Nat.log base.toNat value.toNat - (j + 1))) := by
        simp only [UInt32.sub_eq_add_neg, UInt32.neg_add, UInt32.add_assoc]
        rfl
      rw [hcount, hone, UInt32.ofNat_add, hcomm]
    · have he : j = Nat.log base.toNat value.toNat := by
        by_contra hne
        have hle : j + 1 ≤ Nat.log base.toNat value.toNat := by omega
        have hvalue : value.toNat ≠ 0 := by
          intro h0
          rw [h0, Nat.log_zero_right] at hle
          omega
        exact hgo (Nat.pow_le_of_le_log hvalue hle)
      have hstop : ¬ (idx * base ≤ value ∧ idx * base / base = idx) := fun h => hgo (hstep.mp h)
      rw [if_neg hstop, ← he, Nat.sub_self]
      exact ⟨hidx, (UInt32.sub_zero count).symm⟩

theorem digitLoop_zero (cap : Bool) (rounds : Nat) (buf : List UInt8) :
    digitLoop base value cap rounds 0 buf = .ok buf := by
  cases rounds with
  | zero => rfl
  | succ rounds => rw [digitLoop, if_pos rfl]

/-- The loop ends behind the digit at the power one. -/
theorem digitLoop_eq (cap : Bool) (hbase : 2 ≤ base.toNat) (k rounds : Nat) (idx : UInt32)
    (buf : List UInt8) (hidx : idx.toNat = base.toNat ^ k) (hrounds : k + 1 ≤ rounds) :
    digitLoop base value cap rounds idx buf =
      puts ((divided base.toNat value.toNat k).map (hexDigit cap)) buf := by
  induction k generalizing rounds idx buf with
  | zero =>
    obtain ⟨rounds, rfl⟩ := Nat.exists_eq_succ_of_ne_zero (Nat.ne_of_gt hrounds)
    obtain rfl : idx = 1 := UInt32.toNat_inj.mp hidx
    have hlast : (1 : UInt32) / base = 0 := by
      rw [← UInt32.toNat_inj, UInt32.toNat_div]
      exact Nat.div_eq_of_lt hbase
    have hdigit : (value / 1 % base).toNat = value.toNat % base.toNat := by
      rw [UInt32.toNat_mod, UInt32.toNat_div]
      exact congrArg (· % base.toNat) (Nat.div_one value.toNat)
    rw [digitLoop, if_neg (by decide), hdigit, put_eq, hlast]
    refine puts_bind _ [] buf _ ?_
    intro b hb
    have hfits : b.length + ([] : List UInt8).length ≤ 16 := hb
    rw [digitLoop_zero, puts, List.append_nil, if_pos hfits]
  | succ k ih =>
    obtain ⟨rounds, rfl⟩ := Nat.exists_eq_succ_of_ne_zero (Nat.ne_of_gt (Nat.zero_lt_of_lt hrounds))
    have hpos : 0 < base.toNat ^ (k + 1) := Nat.pow_pos (by omega)
    have hne : idx ≠ 0 := by
      intro h0
      rw [h0] at hidx
      exact absurd hidx (Nat.ne_of_lt hpos)
    have hdigit : (value / idx % base).toNat =
        value.toNat / base.toNat ^ (k + 1) % base.toNat := by
      rw [UInt32.toNat_mod, UInt32.toNat_div, hidx]
    have hnext : (idx / base).toNat = base.toNat ^ k := by
      rw [UInt32.toNat_div, hidx, pow_succ, Nat.mul_div_cancel _ (by omega)]
    rw [digitLoop, if_neg hne, hdigit, put_eq]
    refine puts_bind _ ((divided base.toNat value.toNat k).map (hexDigit cap)) buf _ ?_
    intro b _
    exact ih rounds (idx / base) b hnext (by omega)

/-- The characters before a number of the given length: a number with its sign is
brought to the width, unless 15 or more would be missing. -/
def padCount (width len : Nat) : Nat := if len < width ∧ width ≤ len + 14 then width - len else 0

def numberText (fill : UInt8) (width : Nat) (sign digits : List UInt8) : List UInt8 :=
  let pad := List.replicate (padCount width (sign.length + digits.length)) fill
  if fill = 48 then sign ++ pad ++ digits else pad ++ sign ++ digits

def signText (neg : Bool) : List UInt8 := if neg then [45] else []

/-- The count that is left is one more than the pad characters, or not in the range
that is padded. -/
theorem pad_eq (width count : UInt32) (len : Nat) (hpos : 1 ≤ len) (hlen : len ≤ 64)
    (hcount : count = width - UInt32.ofNat (len - 1)) (fill : UInt8)
    (buf : Except Fault (List UInt8)) :
    (if 1 < count ∧ count < 16 then buf.bind (padding fill (count - 1).toNat) else buf) =
      buf.bind (padding fill (padCount width.toNat len)) := by
  have hwidth := width.toNat_lt
  have hmod : (UInt32.ofNat (len - 1)).toNat = len - 1 := by
    rw [UInt32.toNat_ofNat']
    omega
  have hnat : count.toNat = (2 ^ 32 - (len - 1) + width.toNat) % 2 ^ 32 := by
    rw [hcount, UInt32.toNat_sub, hmod]
  have hrange : (1 < count ∧ count < 16) ↔ len < width.toNat ∧ width.toNat ≤ len + 14 := by
    have hone : (1 : UInt32).toNat = 1 := rfl
    have hsixteen : (16 : UInt32).toNat = 16 := rfl
    rw [UInt32.lt_iff_toNat_lt, UInt32.lt_iff_toNat_lt, hnat, hone, hsixteen]
    omega
  unfold padCount
  by_cases hpad : len < width.toNat ∧ width.toNat ≤ len + 14
  · have hone : (count - 1).toNat = width.toNat - len := by
      have h1 : (1 : UInt32).toNat = 1 := rfl
      rw [UInt32.toNat_sub, hnat, h1]
      omega
    rw [if_pos (hrange.mpr hpad), if_pos hpad, hone]
  · have hnil : ∀ b : List UInt8, padding fill 0 b = .ok b := fun _ => rfl
    rw [if_neg (fun h => hpad (hrange.mp h)), if_neg hpad]
    cases buf <;> rfl

/-- What is in `pcBuf` before it is printed: the sign before zeros, or behind
blanks; and more than 16 bytes run over. -/
theorem pcBuf_eq (d : Directive) (value : UInt32) (neg : Bool) (hbase : 2 ≤ d.base.toNat) :
    pcBuf d value neg =
      puts (numberText d.fill d.count.toNat (signText neg)
        (text (hexDigit d.cap) d.base.toNat value.toNat)) [] := by
  have hlog := log_lt value hbase
  obtain ⟨hpower, hcount⟩ := magnitude_eq value hbase 32 0 1 d.count rfl (Nat.zero_le _)
    (by omega)
  have hdigits (b : List UInt8) :
      digitLoop d.base value d.cap 32 (magnitude d.base value 32 1 d.count).1 b =
        puts (text (hexDigit d.cap) d.base.toNat value.toNat) b := by
    rw [digitLoop_eq d.cap hbase _ 32 _ b hpower (by omega), text, divided_log _ _ hbase]
  have hlen : (signText neg).length + (text (hexDigit d.cap) d.base.toNat value.toNat).length =
      neg.toNat + Nat.log d.base.toNat value.toNat + 1 := by
    rw [length_text _ _ hbase]
    cases neg with
    | false => simp [signText]
    | true =>
      simp only [signText, if_true, List.length_singleton, Bool.toNat_true]
      omega
  have hleft : (if neg then (magnitude d.base value 32 1 d.count).2 - 1
      else (magnitude d.base value 32 1 d.count).2) =
      d.count - UInt32.ofNat ((signText neg).length +
        (text (hexDigit d.cap) d.base.toNat value.toNat).length - 1) := by
    rw [hcount, hlen, Nat.sub_zero, Nat.add_sub_cancel]
    cases neg with
    | false => rw [Bool.toNat_false, Nat.zero_add, if_neg Bool.false_ne_true]
    | true =>
      rw [if_pos rfl, Bool.toNat_true, Nat.add_comm, UInt32.ofNat_add]
      simp only [UInt32.sub_eq_add_neg, UInt32.neg_add, UInt32.add_assoc]
      rfl
  have hloop : digitLoop d.base value d.cap 32 (magnitude d.base value 32 1 d.count).1 =
      puts (text (hexDigit d.cap) d.base.toNat value.toNat) := funext hdigits
  simp only [pcBuf]
  have hsign : neg.toNat ≤ 1 := Bool.toNat_le neg
  rw [hleft, pad_eq d.count _ _ (by omega) (by omega) rfl, hloop]
  generalize text (hexDigit d.cap) d.base.toNat value.toNat = digits
  generalize d.fill = fill
  have hpadding (cs : List UInt8) (n : Nat) :
      (puts cs []).bind (padding fill n) = puts (cs ++ List.replicate n fill) [] :=
    puts_bind cs _ [] _ fun b hb => padding_eq fill n b hb
  have hdigitsEnd (cs : List UInt8) : (puts cs []).bind (puts digits) = puts (cs ++ digits) [] :=
    puts_bind cs digits [] _ fun _ _ => rfl
  have hminus (cs : List UInt8) : (puts cs []).bind (put 45) = puts (cs ++ [45]) [] :=
    puts_bind cs [45] [] _ fun b _ => put_eq 45 b
  have hempty : (Except.ok [] : Except Fault (List UInt8)) = puts [] [] := rfl
  unfold numberText
  cases neg with
  | false =>
    simp only [Bool.false_and, Bool.false_eq_true, if_false, hempty, hpadding, hdigitsEnd,
      signText, List.nil_append, List.append_nil, ite_self]
  | true =>
    by_cases hfill : fill = 48
    · subst hfill
      simp [put_eq, hpadding, hdigitsEnd, signText]
    · simp [hfill, hempty, hpadding, hminus, hdigitsEnd, signText]

theorem hexDigit_ne_nul (cap : Bool) : ∀ i < 16, hexDigit cap i ≠ 0 := by
  cases cap <;> decide +kernel

/-- The two tables have a character for each digit. -/
theorem hexDigit_distinct (cap : Bool) : Distinct (hexDigit cap) 16 := by
  unfold Distinct
  cases cap <;> decide +kernel

theorem text_ne_nul (cap : Bool) {b : Nat} (n : Nat) (hb : 2 ≤ b) (hle : b ≤ 16) :
    ∀ c ∈ text (hexDigit cap) b n, c ≠ 0 := by
  intro c hc
  obtain ⟨d, hd, rfl⟩ := List.mem_map.mp hc
  have hlt := digitsOf_lt b n hb d hd
  exact hexDigit_ne_nul cap d (by omega)

theorem numberText_ne_nul {fill : UInt8} (hfill : fill ≠ 0) (width : Nat)
    {sign digits : List UInt8} (hsign : ∀ c ∈ sign, c ≠ 0) (hdigits : ∀ c ∈ digits, c ≠ 0) :
    ∀ c ∈ numberText fill width sign digits, c ≠ 0 := by
  have hpad (n : Nat) : ∀ c ∈ List.replicate n fill, c ≠ 0 := by
    intro c hc
    rwa [(List.mem_replicate.mp hc).2]
  intro c hc
  unfold numberText at hc
  split at hc <;> simp only [List.mem_append] at hc <;> grind

theorem length_numberText (fill : UInt8) (width : Nat) (sign digits : List UInt8) :
    (numberText fill width sign digits).length =
      padCount width (sign.length + digits.length) + (sign.length + digits.length) := by
  unfold numberText
  split <;> simp only [List.length_append, List.length_replicate] <;> omega

/-- A number with its sign that has room itself runs over exactly for a width from
17 on that is still padded to. -/
theorem length_numberText_le_iff (fill : UInt8) (width : Nat) (sign digits : List UInt8)
    (hlen : sign.length + digits.length ≤ 16) :
    (numberText fill width sign digits).length ≤ 16 ↔
      ¬ (17 ≤ width ∧ width ≤ sign.length + digits.length + 14) := by
  rw [length_numberText, padCount]
  split_ifs <;> omega

/-- A 32-bit number has at most 10 digits in base 10 or 16. -/
theorem length_text_le {d : Directive} (hbase : d.base = 10 ∨ d.base = 16) (value : UInt32) :
    (text (hexDigit d.cap) d.base.toNat value.toNat).length ≤ 10 := by
  have hvalue := value.toNat_lt
  have hten : 10 ≤ d.base.toNat := by
    obtain h | h := hbase <;> rw [h] <;> decide
  have hlog : Nat.log d.base.toNat value.toNat < 10 := by
    refine Nat.log_lt_of_lt_pow' (by omega) ?_
    calc
      value.toNat < 10 ^ 10 := by omega
      _ ≤ d.base.toNat ^ 10 := Nat.pow_le_pow_left hten 10
  rw [length_text _ _ (by omega)]
  omega

theorem signText_ne_nul (neg : Bool) : ∀ c ∈ signText neg, c ≠ 0 := by
  intro c hc
  cases neg with
  | false => cases hc
  | true =>
    obtain rfl : c = 45 := List.mem_singleton.mp hc
    decide

/-- Every number is printed in its base, with its sign and brought to its width,
unless this does not fit in `pcBuf`. -/
theorem convert_eq (d : Directive) (value : UInt32) (neg : Bool)
    (hbase : d.base = 10 ∨ d.base = 16) (hfill : d.fill ≠ 0) :
    convert d value neg =
      if 17 ≤ d.count.toNat ∧ d.count.toNat ≤ (signText neg).length +
          (text (hexDigit d.cap) d.base.toNat value.toNat).length + 14 then .stopped .overflow
      else .done (numberText d.fill d.count.toNat (signText neg)
        (text (hexDigit d.cap) d.base.toNat value.toNat)) := by
  have htwo : 2 ≤ d.base.toNat ∧ d.base.toNat ≤ 16 := by
    obtain h | h := hbase <;> rw [h] <;> decide
  have hdigits := length_text_le hbase value
  have hsign : (signText neg).length ≤ 1 := by cases neg <;> decide
  have hiff := length_numberText_le_iff d.fill d.count.toNat (signText neg)
    (text (hexDigit d.cap) d.base.toNat value.toNat) (by omega)
  have hnul : ∀ c ∈ numberText d.fill d.count.toNat (signText neg)
      (text (hexDigit d.cap) d.base.toNat value.toNat), c ≠ 0 :=
    numberText_ne_nul hfill _ (signText_ne_nul neg) (text_ne_nul d.cap _ htwo.1 htwo.2)
  rw [convert, pcBuf_eq d value neg htwo.1, puts]
  simp only [List.length_nil, Nat.zero_add, List.nil_append]
  by_cases hover : 17 ≤ d.count.toNat ∧ d.count.toNat ≤ (signText neg).length +
      (text (hexDigit d.cap) d.base.toNat value.toNat).length + 14
  · rw [if_neg (fun h => hiff.mp h hover), if_pos hover]
  · have hfits := hiff.mpr hover
    rw [if_pos hfits, if_neg hover]
    exact prints_all _ (by omega) hnul

end Spec
end StakedaoPlugin.Debug
