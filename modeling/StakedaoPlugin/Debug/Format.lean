import StakedaoPlugin.Debug.Printf

/-! What a format means: the pieces it is made of, the text that these show, and
that `semihosted_printf` prints this text. -/
namespace StakedaoPlugin.Debug
open CMemory Numeral

/-- The digits between the percent sign and the conversion. -/
structure Pad where
  zero : Bool
  width : Nat
deriving DecidableEq

namespace Pad

def fill (pad : Pad) : UInt8 := if pad.zero then 48 else 32

def spell (pad : Pad) : List UInt8 :=
  (if pad.zero then [48] else []) ++
    if pad.width = 0 then [] else text (hexDigit false) 10 pad.width

end Pad

/-- A text, or a directive with its argument. What lies behind a string in memory
is not part of what is shown. -/
inductive Piece where
  | text (bytes : List UInt8)
  | percent
  | char (v : UInt32)
  | signed (pad : Pad) (v : UInt32)
  | unsigned (pad : Pad) (v : UInt32)
  | hex (cap : Bool) (pad : Pad) (v : UInt32)
  | string (pad : Pad) (bytes behind : List UInt8)
  | bounded (bytes behind : List UInt8)
  | blanks (count : UInt32) (behind : List UInt8)
  | dump (cap : Bool) (bytes behind : List UInt8)

def isNegative (v : UInt32) : Bool := decide (2 ^ 31 ≤ v.toNat)

/-- The distance of a 32-bit number in two's complement from zero. -/
def magnitudeOf (v : UInt32) : Nat := if isNegative v then 2 ^ 32 - v.toNat else v.toNat

namespace Piece

/-- The bytes behind the percent sign. -/
def directive : Piece → List UInt8
  | text _ => []
  | percent => ['%'.toUInt8]
  | char _ => ['c'.toUInt8]
  | signed pad _ => pad.spell ++ ['d'.toUInt8]
  | unsigned pad _ => pad.spell ++ ['u'.toUInt8]
  | hex cap pad _ => pad.spell ++ [if cap then 'X'.toUInt8 else 'x'.toUInt8]
  | string pad _ _ => pad.spell ++ ['s'.toUInt8]
  | bounded _ _ => ['.'.toUInt8, '*'.toUInt8, 's'.toUInt8]
  | blanks _ _ => ['*'.toUInt8, 's'.toUInt8]
  | dump cap _ _ => ['.'.toUInt8, '*'.toUInt8, if cap then 'H'.toUInt8 else 'h'.toUInt8]

def spell : Piece → List UInt8
  | text bytes => bytes
  | p => 37 :: p.directive

def args : Piece → List Arg
  | text _ | percent => []
  | char v | signed _ v | unsigned _ v | hex _ _ v => [.value v]
  | string _ bytes behind => [.pointer (bytes ++ 0 :: behind)]
  | blanks count behind => [.value count, .pointer (0 :: behind)]
  | bounded bytes behind | dump _ bytes behind =>
    [.value (UInt32.ofNat bytes.length), .pointer (bytes ++ behind)]

/-- The sign and the digits of a number. -/
def sign : Piece → List UInt8
  | signed _ v => signText (isNegative v)
  | _ => []

def digits : Piece → List UInt8
  | signed _ v => Numeral.text (hexDigit false) 10 (magnitudeOf v)
  | unsigned _ v => Numeral.text (hexDigit false) 10 v.toNat
  | hex cap _ v => Numeral.text (hexDigit cap) 16 v.toNat
  | _ => []

/-- The blanks in place of an empty string are one more than its count. -/
def shows : Piece → List UInt8
  | text bytes => bytes
  | percent => [37]
  | char v => cstr [v.toUInt8]
  | signed pad v => numberText pad.fill pad.width (signed pad v).sign (signed pad v).digits
  | unsigned pad v => numberText pad.fill pad.width [] (unsigned pad v).digits
  | hex cap pad v => numberText pad.fill pad.width [] (hex cap pad v).digits
  | string pad bytes _ => bytes ++ List.replicate (pad.width - bytes.length) 32
  | bounded bytes _ => bytes
  | blanks count _ => List.replicate (count.toNat + 1) 32
  | dump cap bytes _ => (nibbles bytes).map (hexDigit cap)

def pad? : Piece → Option Pad
  | signed pad _ | unsigned pad _ | hex _ pad _ => some pad
  | _ => none

/-- The number is padded to more than the 16 bytes of `pcBuf`. -/
def RunsOver (pad : Pad) (p : Piece) : Prop :=
  17 ≤ pad.width ∧ pad.width ≤ p.sign.length + p.digits.length + 14

instance (pad : Pad) (p : Piece) : Decidable (p.RunsOver pad) :=
  inferInstanceAs (Decidable (_ ∧ _))

/-- Texts without NUL or percent sign, strings without NUL in them that are not
too long for a `uint16_t`, and widths that `pcBuf` has room for. -/
def Valid : Piece → Prop
  | text bytes => ∀ b ∈ bytes, b ≠ 0 ∧ b ≠ 37
  | percent | char _ | blanks _ _ => True
  | signed pad v => pad.width < 2 ^ 32 ∧ ¬ (signed pad v).RunsOver pad
  | unsigned pad v => pad.width < 2 ^ 32 ∧ ¬ (unsigned pad v).RunsOver pad
  | hex cap pad v => pad.width < 2 ^ 32 ∧ ¬ (hex cap pad v).RunsOver pad
  | string pad bytes _ => pad.width < 2 ^ 32 ∧ bytes.length < 2 ^ 16 ∧ ∀ b ∈ bytes, b ≠ 0
  | bounded bytes _ => bytes.length < 2 ^ 16 ∧ ∀ b ∈ bytes, b ≠ 0
  | dump _ bytes _ => bytes.length < 2 ^ 32

end Piece

section Digits

theorem command_digit : ∀ n < 10, command (hexDigit false n) = .digit (UInt32.ofNat n) := by
  decide +kernel

/-- A directive goes through its digits one by one. -/
theorem printfLoop_digits (ds : List Nat) (hds : ∀ n ∈ ds, n < 10) (d : Directive)
    (format : List UInt8) (args : List Arg) :
    printfLoop (.again d) (ds.map (hexDigit false) ++ format) args =
      printfLoop (.again (ds.foldl (fun d n => d.digit (UInt32.ofNat n)) d)) format args := by
  induction ds generalizing d with
  | nil => rfl
  | cons n ds ih =>
    have hn := command_digit n (hds n (by simp))
    rw [List.map_cons, List.cons_append, printfLoop_digit _ _ hn]
    exact ih (fun m hm => hds m (by simp [hm])) (d.digit (UInt32.ofNat n))

/-- The count is the number read so far; once it is not zero the fill stays. -/
theorem foldl_digit (ds : List Nat) (d : Directive) (v : Nat) (hv : v ≠ 0)
    (hcount : d.count = UInt32.ofNat v)
    (hlt : ds.foldl (fun v n => v * 10 + n) v < 2 ^ 32) :
    ds.foldl (fun d n => d.digit (UInt32.ofNat n)) d =
      { d with count := UInt32.ofNat (ds.foldl (fun v n => v * 10 + n) v) } := by
  induction ds generalizing d v with
  | nil =>
    rw [List.foldl_nil, List.foldl_nil, ← hcount]
  | cons n ds ih =>
    have hle (w : Nat) (es : List Nat) : w ≤ es.foldl (fun v n => v * 10 + n) w := by
      induction es generalizing w with
      | nil => exact Nat.le_refl w
      | cons m es ihes => exact Nat.le_trans (by omega) (ihes (w * 10 + m))
    have hvlt : v < 2 ^ 32 := by
      have h := hle v (n :: ds)
      omega
    have hne : d.count ≠ 0 := by
      rw [hcount]
      intro h0
      have htoNat := congrArg UInt32.toNat h0
      rw [UInt32.toNat_ofNat', Nat.mod_eq_of_lt hvlt] at htoNat
      exact hv htoNat
    have hnext : (d.digit (UInt32.ofNat n)).count = UInt32.ofNat (v * 10 + n) := by
      rw [UInt32.ofNat_add, UInt32.ofNat_mul, Directive.digit, hcount]
      rfl
    have hfill : (d.digit (UInt32.ofNat n)).fill = d.fill := by
      simp [Directive.digit, hne]
    rw [List.foldl_cons, List.foldl_cons, ih (d.digit (UInt32.ofNat n)) (v * 10 + n) (by omega)
      hnext hlt]
    rw [← hfill]
    rfl

/-- The fill and the width that are spelled are what the conversion finds. -/
theorem printfLoop_pad (pad : Pad) (hwidth : pad.width < 2 ^ 32) (d : Directive)
    (hcount : d.count = 0) (hfill : d.fill = 32) (format : List UInt8) (args : List Arg) :
    printfLoop (.again d) (pad.spell ++ format) args =
      printfLoop (.again { d with count := UInt32.ofNat pad.width, fill := pad.fill })
        format args := by
  have hzero (rest : List UInt8) :
      printfLoop (.again d) ((if pad.zero then [48] else []) ++ rest) args =
        printfLoop (.again { d with fill := pad.fill }) rest args := by
    cases hz : pad.zero with
    | false =>
      have hf : pad.fill = d.fill := by rw [Pad.fill, hz, hfill]; rfl
      rw [hf]
      rfl
    | true =>
      have hf : pad.fill = 48 := by rw [Pad.fill, hz]; rfl
      have h48 : command 48 = .digit 0 := by decide
      have hd : d.digit 0 = { d with fill := 48 } := by
        simp [Directive.digit, hcount]
      rw [hf, ← hd]
      exact printfLoop_digit rest args h48
  rw [Pad.spell, List.append_assoc, hzero]
  by_cases hw : pad.width = 0
  · have hc : UInt32.ofNat pad.width = d.count := by rw [hw, hcount]; rfl
    rw [if_pos hw, hc, List.nil_append]
  · obtain ⟨n, ds, hds, hn⟩ := digitsOf_eq_cons (b := 10) hw
    have hvalue := foldl_digitsOf 10 pad.width
    have hlt := digitsOf_lt 10 pad.width (by omega)
    rw [hds] at hvalue hlt
    have hn10 := hlt n (by simp)
    have hn0 : UInt32.ofNat n ≠ 0 := by
      intro h0
      have htoNat := congrArg UInt32.toNat h0
      rw [UInt32.toNat_ofNat', Nat.mod_eq_of_lt (by omega)] at htoNat
      exact hn htoNat
    have hfirst : ({ d with fill := pad.fill } : Directive).digit (UInt32.ofNat n) =
        { d with fill := pad.fill, count := UInt32.ofNat n } := by
      simp [Directive.digit, hcount, hn0]
    rw [List.foldl_cons, Nat.zero_mul, Nat.zero_add] at hvalue
    rw [if_neg hw, Numeral.text, hds, printfLoop_digits (n :: ds) hlt, List.foldl_cons, hfirst,
      foldl_digit ds _ n hn rfl (by rw [hvalue]; exact hwidth), hvalue]

end Digits

section Conversions

theorem spaces_eq (n : Nat) : spaces n = .done (List.replicate n 32) := by
  induction n with
  | zero => rfl
  | succ n ih =>
    have hblank : cstr [32] = [32] := by decide
    rw [spaces, prints_one, ih, hblank, List.replicate_succ]
    rfl

theorem sPad_eq (count idx : UInt32) :
    sPad count idx = .done (List.replicate (count.toNat - idx.toNat) 32) := by
  unfold sPad
  by_cases h : count > idx
  · have hle : idx ≤ count := UInt32.le_of_lt h
    rw [if_pos h, spaces_eq, UInt32.toNat_sub_of_le _ _ hle]
  · have hle : count.toNat ≤ idx.toNat :=
      Nat.not_lt.mp fun hlt => h (UInt32.lt_iff_toNat_lt.mpr hlt)
    rw [if_neg h, Nat.sub_eq_zero_of_le hle]
    rfl

/-- A dump shows two digits for each byte that it is asked for. -/
theorem hexDump_eq (cap : Bool) (bytes behind : List UInt8) :
    hexDump cap bytes.length (bytes ++ behind) =
      .done ((nibbles bytes).map (hexDigit cap)) := by
  induction bytes with
  | nil => rfl
  | cons b bytes ih =>
    have hb := b.toNat_lt
    have hhigh : (b >>> 4 &&& 15).toNat = b.toNat / 16 := by
      have h15 : (15 : UInt8).toNat = 2 ^ 4 - 1 := rfl
      have h4 : (4 : UInt8).toNat % 8 = 4 := rfl
      rw [UInt8.toNat_and, UInt8.toNat_shiftRight, h15, h4, Nat.and_two_pow_sub_one_eq_mod,
        Nat.shiftRight_eq_div_pow]
      omega
    have hlow : (b &&& 15).toNat = b.toNat % 16 := by
      have h15 : (15 : UInt8).toNat = 2 ^ 4 - 1 := rfl
      rw [UInt8.toNat_and, h15, Nat.and_two_pow_sub_one_eq_mod]
    have hne (i : Nat) (hi : i < 16) : printc (hexDigit cap i) = .done [hexDigit cap i] :=
      printc_eq (hexDigit_ne_nul cap i hi)
    have hcons : nibbles (b :: bytes) = b.toNat / 16 :: b.toNat % 16 :: nibbles bytes := rfl
    rw [List.length_cons, List.cons_append, hexDump, hhigh, hlow, hne _ (by omega),
      hne _ (by omega), ih, hcons]
    rfl

/-- A string of this length, printed from memory that goes on behind it. -/
theorem prints_string (bytes behind : List UInt8) (hlen : bytes.length < 2 ^ 16)
    (hnul : ∀ b ∈ bytes, b ≠ 0) :
    prints (bytes ++ behind) (UInt32.ofNat bytes.length).toUInt16 = .done bytes := by
  have hsize : (UInt32.ofNat bytes.length).toUInt16.toNat = bytes.length := by
    rw [UInt32.toNat_toUInt16, UInt32.toNat_ofNat']
    omega
  have htake : (bytes ++ behind).take bytes.length = bytes := List.take_left' rfl
  have h := printsLoop_eq (bytes ++ behind) bytes.length (by simp) (by rwa [htake])
  rw [prints, hsize, h, htake]

theorem printSigned_eq (d : Directive) (v : UInt32) :
    printSigned d v =
      convert { d with base := 10 } (if isNegative v then 0 - v else v) (isNegative v) := by
  unfold printSigned isNegative
  by_cases h : 2 ^ 31 ≤ v.toNat
  · rw [if_pos h, decide_eq_true h, if_pos rfl]
  · rw [if_neg h, decide_eq_false h, if_neg Bool.false_ne_true]

theorem toNat_magnitude (v : UInt32) :
    (if isNegative v then 0 - v else v).toNat = magnitudeOf v := by
  have hv := v.toNat_lt
  unfold magnitudeOf
  by_cases h : isNegative v = true
  · have hle : 2 ^ 31 ≤ v.toNat := of_decide_eq_true h
    have h0 : (0 : UInt32).toNat = 0 := rfl
    rw [if_pos h, if_pos h, UInt32.toNat_sub, h0]
    omega
  · rw [if_neg h, if_neg h]

/-- A string that is measured, and brought to its width behind it. -/
theorem printString_strlen (d : Directive) (bytes behind : List UInt8)
    (hset : d.strlenSet = .strlen) (hbase : d.base = 10) (hlen : bytes.length < 2 ^ 16)
    (hnul : ∀ b ∈ bytes, b ≠ 0) :
    printString d (bytes ++ 0 :: behind) =
      .done (bytes ++ List.replicate (d.count.toNat - bytes.length) 32) := by
  have h0 : (0 : UInt8) ∈ bytes ++ 0 :: behind := by simp
  have hcstr : cstr (bytes ++ 0 :: behind) = bytes := by
    rw [cstr_append _ hnul, cstr_cons_zero, List.append_nil]
  have hidx : (UInt32.ofNat bytes.length).toNat = bytes.length := by
    rw [UInt32.toNat_ofNat']
    omega
  have hne : ¬ d.base = 16 := by
    rw [hbase]
    decide
  simp only [printString, hset]
  rw [if_pos h0, hcstr, writeString, if_neg hne, prints_string bytes _ hlen hnul, sPad_eq, hidx]
  rfl

theorem printString_given (d : Directive) (bytes behind : List UInt8)
    (hset : d.strlenSet = .given) (hstrlen : d.strlen = UInt32.ofNat bytes.length)
    (hbase : d.base = 10) (hcount : d.count = 0) (hlen : bytes.length < 2 ^ 16)
    (hnul : ∀ b ∈ bytes, b ≠ 0) : printString d (bytes ++ behind) = .done bytes := by
  have hne : ¬ d.base = 16 := by
    rw [hbase]
    decide
  have h0 : (0 : UInt32).toNat = 0 := rfl
  simp only [printString, hset]
  rw [writeString, if_neg hne, hstrlen, prints_string bytes _ hlen hnul, sPad_eq, hcount, h0,
    Nat.zero_sub]
  exact congrArg Printed.done (List.append_nil bytes)

theorem printString_prepad (d : Directive) (behind : List UInt8) (hset : d.strlenSet = .prepad)
    (hcount : d.count = 0) :
    printString d (0 :: behind) = .done (List.replicate (d.strlen.toNat + 1) 32) := by
  have h0 : (0 : UInt32).toNat = 0 := rfl
  simp only [printString, hset, if_true]
  rw [spaces_eq, sPad_eq, hcount, h0, Nat.zero_sub]
  exact congrArg Printed.done (List.append_nil _)

theorem printString_dump (d : Directive) (bytes behind : List UInt8)
    (hset : d.strlenSet = .given) (hstrlen : d.strlen = UInt32.ofNat bytes.length)
    (hbase : d.base = 16) (hlen : bytes.length < 2 ^ 32) :
    printString d (bytes ++ behind) = .done ((nibbles bytes).map (hexDigit d.cap)) := by
  have hidx : (UInt32.ofNat bytes.length).toNat = bytes.length := by
    rw [UInt32.toNat_ofNat', Nat.mod_eq_of_lt hlen]
  simp only [printString, hset]
  rw [writeString, if_pos hbase, hstrlen, hidx, hexDump_eq, sPad_eq, Nat.sub_self]
  exact congrArg Printed.done (List.append_nil _)

end Conversions

section Pieces
variable {idx : UInt32} (format : List UInt8) (rest : List Arg)

theorem Pad.fill_ne_nul (pad : Pad) : pad.fill ≠ 0 := by
  unfold Pad.fill
  split <;> decide

/-- The directive of a number, in whichever base. -/
theorem printfLoop_number (pad : Pad) (cap neg : Bool) (base value : UInt32) {c : UInt8}
    {v : UInt32} (hwidth : pad.width < 2 ^ 32) (hbase : base = 10 ∨ base = 16)
    (hc : ∀ d : Directive, d.cap = false → d.base = 10 →
      printValue d v (command c) = some (convert { d with cap := cap, base := base } value neg)) :
    printfLoop (.again (.start idx)) (pad.spell ++ c :: format) (.value v :: rest) =
      if 17 ≤ pad.width ∧ pad.width ≤ (signText neg).length +
          (Numeral.text (hexDigit cap) base.toNat value.toNat).length + 14 then .stopped .overflow
      else (Printed.done (numberText pad.fill pad.width (signText neg)
        (Numeral.text (hexDigit cap) base.toNat value.toNat))).andThen
          (printfLoop (.text []) format rest) := by
  have hcount : (UInt32.ofNat pad.width).toNat = pad.width := by
    rw [UInt32.toNat_ofNat', Nat.mod_eq_of_lt hwidth]
  have hd := hc { Directive.start idx with count := UInt32.ofNat pad.width, fill := pad.fill }
    rfl rfl
  rw [convert_eq _ value neg hbase pad.fill_ne_nul] at hd
  simp only [hcount] at hd
  rw [printfLoop_pad pad hwidth _ rfl rfl, printfLoop_value _ _ hd]
  split_ifs <;> rfl

/-- Wherever a number stands in a format, it is printed with its sign and padding,
or, for exactly these widths, written past `pcBuf`. -/
theorem printfLoop_number_exact {p : Piece} {pad : Pad} (hpad : p.pad? = some pad)
    (hwidth : pad.width < 2 ^ 32) :
    printfLoop (.again (.start idx)) (p.directive ++ format) (p.args ++ rest) =
      if p.RunsOver pad then .stopped .overflow
      else (Printed.done p.shows).andThen (printfLoop (.text []) format rest) := by
  cases p with
  | signed pad' v =>
    obtain rfl : pad' = pad := Option.some.inj hpad
    have hmagnitude : Numeral.text (hexDigit false) 10 (magnitudeOf v) =
        Numeral.text (hexDigit false) (10 : UInt32).toNat
          (if isNegative v then 0 - v else v).toNat := by rw [toNat_magnitude]; rfl
    simp only [Piece.directive, Piece.args, Piece.shows, Piece.RunsOver, Piece.sign, Piece.digits,
      hmagnitude, List.append_assoc]
    refine printfLoop_number format rest pad' false (isNegative v) 10 _ hwidth (Or.inl rfl) ?_
    intro d hcap _
    have hc : command 'd'.toUInt8 = .d := by decide
    have hd : { d with cap := false, base := 10 } = { d with base := 10 } := by rw [← hcap]
    rw [hd, ← printSigned_eq, hc, printValue]
  | unsigned pad' v =>
    obtain rfl : pad' = pad := Option.some.inj hpad
    simp only [Piece.directive, Piece.args, List.append_assoc]
    refine printfLoop_number format rest pad' false false 10 v hwidth (Or.inl rfl) ?_
    intro d hcap _
    have hc : command 'u'.toUInt8 = .u := by decide
    have hd : { d with cap := false, base := 10 } = { d with base := 10 } := by rw [← hcap]
    rw [hd, hc, printValue]
  | hex cap pad' v =>
    obtain rfl : pad' = pad := Option.some.inj hpad
    simp only [Piece.directive, Piece.args, List.append_assoc]
    refine printfLoop_number format rest pad' cap false 16 v hwidth (Or.inr rfl) ?_
    intro d hcap _
    cases cap with
    | false =>
      have hc : command 'x'.toUInt8 = .x := by decide
      have hd : { d with cap := false, base := 16 } = { d with base := 16 } := by rw [← hcap]
      rw [hd, if_neg Bool.false_ne_true, hc, printValue]
    | true =>
      have hc : command 'X'.toUInt8 = .X := by decide
      rw [if_pos rfl, hc, printValue]
  | _ => cases hpad

/-- A number of eight digits brought to 17 characters is written past `pcBuf`. -/
theorem printfLoop_wide :
    printfLoop (.again (.start 0)) (literal "17d" ++ [0]) [.value 12345678] =
      .stopped .overflow := by
  have hwidth : (17 : Nat) < 2 ^ 32 := by decide
  have hover : (Piece.signed ⟨false, 17⟩ 12345678).RunsOver ⟨false, 17⟩ := by decide +kernel
  have hspell : (Piece.signed ⟨false, 17⟩ 12345678).directive = literal "17d" := by
    decide +kernel
  have h : printfLoop (.again (.start 0))
      ((Piece.signed ⟨false, 17⟩ 12345678).directive ++ [0]) [.value 12345678] = _ :=
    printfLoop_number_exact [0] [] rfl hwidth
  rwa [if_pos hover, hspell] at h

/-- Each directive prints what it shows, and takes its own arguments. -/
theorem printfLoop_directive {p : Piece} (hp : p.Valid) (htext : ∀ bytes, p ≠ .text bytes) :
    printfLoop (.again (.start idx)) (p.directive ++ format) (p.args ++ rest) =
      (Printed.done p.shows).andThen (printfLoop (.text []) format rest) := by
  cases p with
  | text bytes => exact absurd rfl (htext bytes)
  | percent => exact printfLoop_literalPercent format rest
  | char v =>
    have hc : command 'c'.toUInt8 = .c := by decide
    refine printfLoop_value format rest ?_
    rw [hc, printValue, printChar, prints_one]
    rfl
  | signed pad v => rw [printfLoop_number_exact format rest rfl hp.1, if_neg hp.2]
  | unsigned pad v => rw [printfLoop_number_exact format rest rfl hp.1, if_neg hp.2]
  | hex cap pad v => rw [printfLoop_number_exact format rest rfl hp.1, if_neg hp.2]
  | string pad bytes behind =>
    obtain ⟨hwidth, hlen, hnul⟩ := hp
    have hcount : (UInt32.ofNat pad.width).toNat = pad.width := by
      rw [UInt32.toNat_ofNat', Nat.mod_eq_of_lt hwidth]
    have hc : command 's'.toUInt8 = .s := by decide
    simp only [Piece.directive, Piece.args, Piece.shows, List.append_assoc]
    rw [printfLoop_pad pad hwidth _ rfl rfl]
    refine printfLoop_pointer format rest ?_
    rw [hc, printPointer, printString_strlen _ bytes behind rfl rfl hlen hnul]
    simp only [hcount]
  | bounded bytes behind =>
    obtain ⟨hlen, hnul⟩ := hp
    have hc : command 's'.toUInt8 = .s := by decide
    refine (printfLoop_given format _ _ (Or.inl rfl)).trans ?_
    refine printfLoop_pointer format rest ?_
    rw [hc, printPointer, printString_given _ bytes behind rfl rfl rfl rfl hlen hnul]
    rfl
  | blanks count behind =>
    have hc : command 's'.toUInt8 = .s := by decide
    refine (printfLoop_prepad format _ count).trans ?_
    refine printfLoop_pointer format rest ?_
    rw [hc, printPointer, printString_prepad _ behind rfl rfl]
    rfl
  | dump cap bytes behind =>
    cases cap with
    | false =>
      have hc : command 'h'.toUInt8 = .h := by decide
      refine (printfLoop_given format _ _ (Or.inr (Or.inr rfl))).trans ?_
      refine printfLoop_pointer format rest ?_
      rw [hc, printPointer, printString_dump _ bytes behind rfl rfl rfl hp]
      rfl
    | true =>
      have hc : command 'H'.toUInt8 = .H := by decide
      refine (printfLoop_given format _ _ (Or.inr (Or.inl rfl))).trans ?_
      refine printfLoop_pointer format rest ?_
      rw [hc, printPointer, printString_dump _ bytes behind rfl rfl rfl hp]
      rfl

/-- A text without percent sign is collected as a whole. -/
theorem printfLoop_bytes (bytes : List UInt8) (hbytes : ∀ b ∈ bytes, b ≠ 0 ∧ b ≠ 37)
    (portion : List UInt8) :
    printfLoop (.text portion) (bytes ++ format) rest =
      printfLoop (.text (portion ++ bytes)) format rest := by
  induction bytes generalizing portion with
  | nil => rw [List.nil_append, List.append_nil]
  | cons b bytes ih =>
    obtain ⟨hnul, hpercent⟩ := hbytes b (by simp)
    rw [List.cons_append, printfLoop_text _ _ portion hpercent hnul,
      ih (fun c hc => hbytes c (by simp [hc])), List.append_assoc]
    rfl

/-- Text that was collected and the pieces behind it, up to the end of the format. -/
theorem printfLoop_pieces (ps : List Piece) (hps : ∀ p ∈ ps, p.Valid) (portion : List UInt8)
    (hportion : ∀ b ∈ portion, b ≠ 0)
    (hlen : portion.length + (ps.flatMap Piece.spell).length < 2 ^ 16) (behind : List UInt8) :
    printfLoop (.text portion) (ps.flatMap Piece.spell ++ 0 :: behind)
        (ps.flatMap Piece.args ++ rest) =
      .done (portion ++ ps.flatMap Piece.shows) := by
  induction ps generalizing portion with
  | nil =>
    rw [List.flatMap_nil, List.flatMap_nil, List.flatMap_nil, List.nil_append, List.append_nil,
      printfLoop_nul]
    exact prints_all portion (by simpa using hlen) hportion
  | cons p ps ih =>
    have hp := hps p (by simp)
    have hrest : ∀ q ∈ ps, q.Valid := fun q hq => hps q (by simp [hq])
    rw [List.flatMap_cons, List.length_append] at hlen
    rw [List.flatMap_cons, List.flatMap_cons, List.flatMap_cons, List.append_assoc,
      List.append_assoc]
    by_cases htext : ∃ bytes, p = .text bytes
    · obtain ⟨bytes, rfl⟩ := htext
      have hall : ∀ b ∈ portion ++ bytes, b ≠ 0 := by
        intro b hb
        cases List.mem_append.mp hb with
        | inl h => exact hportion b h
        | inr h => exact (hp b h).1
      simp only [Piece.spell] at hlen
      simp only [Piece.spell, Piece.args, Piece.shows, List.nil_append]
      rw [printfLoop_bytes _ _ bytes hp, ih hrest (portion ++ bytes) hall
        (by rw [List.length_append]; omega), List.append_assoc]
    · have hdirective : ∀ bytes, p ≠ .text bytes := fun bytes h => htext ⟨bytes, h⟩
      have hspell : p.spell = 37 :: p.directive := by
        cases p with
        | text bytes => exact absurd rfl (hdirective bytes)
        | _ => rfl
      have hprints := prints_all portion (by omega) hportion
      have hshort : ([] : List UInt8).length + (ps.flatMap Piece.spell).length < 2 ^ 16 := by
        rw [List.length_nil]
        omega
      rw [hspell, List.cons_append]
      refine (printfLoop_percent _ _ portion).trans ?_
      rw [hprints, printfLoop_directive _ _ hp hdirective, ih hrest [] (by simp) hshort]
      rfl

/-- Formats of less than 64 KiB that are made of texts and of these directives print
what they mean, with every 32-bit number and every string in its place. They take no other argument and
read nothing behind their end. -/
theorem semihostedPrintf_pieces (ps : List Piece) (hps : ∀ p ∈ ps, p.Valid)
    (hlen : (ps.flatMap Piece.spell).length < 2 ^ 16) (behind : List UInt8) (rest : List Arg) :
    semihostedPrintf (some (ps.flatMap Piece.spell ++ 0 :: behind))
        (ps.flatMap Piece.args ++ rest) = .done (ps.flatMap Piece.shows) :=
  printfLoop_pieces rest ps hps [] (by simp) (by simpa using hlen) behind

/-- A padded negative number, one in base 16, a string brought to its width and a dump. -/
def mixedPieces : List Piece :=
  [.signed ⟨true, 5⟩ 4294967254, .text [32], .hex false ⟨false, 0⟩ 48879, .text [32, 91],
    .string ⟨false, 4⟩ (literal "ab") [], .text [93, 32], .dump true [1, 255] [7], .percent]

theorem mixedPieces_valid : ∀ p ∈ mixedPieces, p.Valid := by
  have htexts : ∀ t ∈ [[32], [32, 91], [93, 32]], ∀ b ∈ t, b ≠ (0 : UInt8) ∧ b ≠ 37 := by
    decide +kernel
  have hstring : (literal "ab").length < 2 ^ 16 ∧ ∀ b ∈ literal "ab", b ≠ 0 := by decide +kernel
  have hdump : ([1, 255] : List UInt8).length < 2 ^ 32 := by decide
  intro p hp
  simp only [mixedPieces, List.mem_cons, List.not_mem_nil, or_false] at hp
  obtain rfl | rfl | rfl | rfl | rfl | rfl | rfl | rfl := hp
  · exact ⟨by decide, by decide +kernel⟩
  · exact htexts _ (by simp)
  · exact ⟨by decide, by decide +kernel⟩
  · exact htexts _ (by simp)
  · exact ⟨by decide, hstring⟩
  · exact htexts _ (by simp)
  · exact hdump
  · trivial

theorem semihostedPrintf_mixed :
    semihostedPrintf (some (literal "%05d %x [%4s] %.*H%%" ++ [0]))
        [.value 4294967254, .value 48879, .pointer (literal "ab" ++ [0]), .value 2,
          .pointer [1, 255, 7]] =
      .done (literal "-0042 beef [ab  ] 01FF%") := by
  have hspell : mixedPieces.flatMap Piece.spell = literal "%05d %x [%4s] %.*H%%" := by
    decide +kernel
  have hargs : mixedPieces.flatMap Piece.args ++ [] =
      [.value 4294967254, .value 48879, .pointer (literal "ab" ++ [0]), .value 2,
        .pointer [1, 255, 7]] := by decide +kernel
  have hshows : mixedPieces.flatMap Piece.shows = literal "-0042 beef [ab  ] 01FF%" := by
    decide +kernel
  have h := semihostedPrintf_pieces mixedPieces mixedPieces_valid (by decide +kernel) [] []
  rwa [hspell, hargs, hshows] at h

end Pieces
end StakedaoPlugin.Debug
