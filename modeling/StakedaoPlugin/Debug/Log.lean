import StakedaoPlugin.Debug.Format
import StakedaoPlugin.Lib.Records
import StakedaoPlugin.Parameters

/-! The lines that the handlers write with `PRINTF`, which is `semihosted_printf` in
a debug build: what each of them shows, and that it can be read back. -/
namespace StakedaoPlugin.Debug
open CMemory Numeral Records

/-- The calls of `PRINTF`, with the values that they pass. -/
inductive Line where
  | parameter (offset : UInt32) (word : Word)
  | paramNotSupported
  | paramNotSupportedAt (nextParam : UInt8)
  | selectorIndexNotSupported (selectorIndex : UInt32)
  | idNotSupported (selectorIndex : UInt32)
  | missingSelectorIndex
  | invalidScreenIndex
  | unhandledMessage (message : UInt32)
deriving DecidableEq

namespace Line

def format : Line → String
  | parameter _ _ => "plugin provide parameter %d %.*H\n"
  | paramNotSupported => "Param not supported\n"
  | paramNotSupportedAt _ => "Param not supported: %d\n"
  | selectorIndexNotSupported _ => "Selector Index %d not supported\n"
  | idNotSupported _ => "Selector Index :%d not supported\n"
  | missingSelectorIndex => "Missing selectorIndex\n"
  | invalidScreenIndex => "Received an invalid screenIndex\n"
  | unhandledMessage _ => "Unhandled message %d\n"

def args : Line → List Arg
  | parameter offset word =>
    [.value offset, .value (UInt32.ofNat parameterLength), .pointer word.toList]
  | paramNotSupportedAt nextParam => [.value nextParam.toUInt32]
  | selectorIndexNotSupported selectorIndex | idNotSupported selectorIndex =>
    [.value selectorIndex]
  | unhandledMessage message => [.value message]
  | paramNotSupported | missingSelectorIndex | invalidScreenIndex => []

/-- What the call sends to the host. -/
def printed (l : Line) : Printed := semihostedPrintf (some (literal l.format ++ [0])) l.args

/-- A number as `%d` writes it without a width. -/
def decimal (v : UInt32) : Piece := .signed ⟨false, 0⟩ v

def newline : Piece := .text [10]

def numbered (lead : String) (v : UInt32) (tail : String) : List Piece :=
  [.text (literal lead), decimal v, .text (literal tail), newline]

def pieces : Line → List Piece
  | parameter offset word =>
    [.text (literal "plugin provide parameter "), decimal offset, .text [32],
      .dump true word.toList [], newline]
  | paramNotSupported => [.text (literal "Param not supported"), newline]
  | paramNotSupportedAt nextParam => numbered "Param not supported: " nextParam.toUInt32 ""
  | selectorIndexNotSupported selectorIndex =>
    numbered "Selector Index " selectorIndex " not supported"
  | idNotSupported selectorIndex => numbered "Selector Index :" selectorIndex " not supported"
  | missingSelectorIndex => [.text (literal "Missing selectorIndex"), newline]
  | invalidScreenIndex => [.text (literal "Received an invalid screenIndex"), newline]
  | unhandledMessage message => numbered "Unhandled message " message ""

def text (l : Line) : List UInt8 := l.pieces.flatMap Piece.shows

end Line

section Numbers

theorem decimal_valid (v : UInt32) : (Line.decimal v).Valid := by
  refine ⟨Nat.two_pow_pos 32, ?_⟩
  intro h
  exact absurd h.1 (by decide)

theorem shows_decimal (v : UInt32) :
    (Line.decimal v).shows =
      signText (isNegative v) ++ Numeral.text (hexDigit false) 10 (magnitudeOf v) := by
  have hfill : (Pad.fill ⟨false, 0⟩) = 32 := rfl
  have hne : ¬ (32 : UInt8) = 48 := by decide
  have hpad (len : Nat) : padCount 0 len = 0 := if_neg fun h => absurd h.1 (Nat.not_lt_zero len)
  simp only [Line.decimal, Piece.shows, numberText, hfill, if_neg hne, hpad, Piece.sign,
    Piece.digits, List.replicate_zero, List.nil_append]

theorem mem_decimalText {n : Nat} {c : UInt8} (hc : c ∈ Numeral.text (hexDigit false) 10 n) :
    48 ≤ c ∧ c ≤ 57 := by
  have hdigit : ∀ d < 10, 48 ≤ hexDigit false d ∧ hexDigit false d ≤ 57 := by decide +kernel
  obtain ⟨d, hd, rfl⟩ := List.mem_map.mp hc
  exact hdigit d (digitsOf_lt 10 n (by omega) d hd)

/-- A number has no blank, no colon and no newline in it. -/
theorem mem_decimal {v : UInt32} {c : UInt8} (hc : c ∈ (Line.decimal v).shows) :
    c = 45 ∨ 48 ≤ c ∧ c ≤ 57 := by
  rw [shows_decimal, List.mem_append] at hc
  cases hc with
  | inl hsign =>
    cases hneg : isNegative v with
    | false =>
      rw [hneg] at hsign
      cases hsign
    | true =>
      rw [hneg] at hsign
      exact Or.inl (List.mem_singleton.mp hsign)
  | inr hdigits => exact Or.inr (mem_decimalText hdigits)

theorem decimalText_ne_nil (n : Nat) : Numeral.text (hexDigit false) 10 n ≠ [] := by
  have hlen : (Numeral.text (hexDigit false) 10 n).length = Nat.log 10 n + 1 :=
    length_text 10 n (by omega)
  intro h
  rw [h] at hlen
  cases hlen

/-- Every 32-bit number has a text of its own. -/
theorem decimal_inj {v w : UInt32} (h : (Line.decimal v).shows = (Line.decimal w).shows) :
    v = w := by
  have hdistinct : Distinct (hexDigit false) 10 := by
    intro d hd e he
    exact hexDigit_distinct false d (by omega) e (by omega)
  have hminus (n : Nat) : ∀ rest, Numeral.text (hexDigit false) 10 n ≠ 45 :: rest := by
    intro rest hn
    have hmem : (45 : UInt8) ∈ Numeral.text (hexDigit false) 10 n := by
      rw [hn]
      exact List.mem_cons_self
    exact absurd (mem_decimalText hmem).1 (by decide)
  have hsign : isNegative v = isNegative w ∧ magnitudeOf v = magnitudeOf w := by
    rw [shows_decimal, shows_decimal] at h
    cases hv : isNegative v <;> cases hw : isNegative w <;> rw [hv, hw] at h
    · exact ⟨rfl, text_inj (by omega) hdistinct h⟩
    · exact absurd h (hminus _ _)
    · exact absurd h.symm (hminus _ _)
    · exact ⟨rfl, text_inj (by omega) hdistinct (List.append_cancel_left h)⟩
  obtain ⟨hneg, hmagnitude⟩ := hsign
  have hvlt := v.toNat_lt
  have hwlt := w.toNat_lt
  rw [← UInt32.toNat_inj]
  unfold magnitudeOf at hmagnitude
  rw [hneg] at hmagnitude
  split_ifs at hmagnitude <;> omega

end Numbers

section Lines

/-- The texts of the formats have no NUL, no percent sign and no newline. -/
theorem plain_literals : ∀ t ∈ ["plugin provide parameter ", "Param not supported",
    "Param not supported: ", "Selector Index ", "Selector Index :", " not supported",
    "Missing selectorIndex", "Received an invalid screenIndex", "Unhandled message ", ""],
    ∀ b ∈ literal t, (b ≠ 0 ∧ b ≠ 37) ∧ b ≠ 10 := by
  decide +kernel

theorem newline_valid : Line.newline.Valid := by
  intro b hb
  obtain rfl := List.mem_singleton.mp hb
  decide

theorem numbered_valid {lead tail : String} (v : UInt32)
    (hlead : ∀ b ∈ literal lead, (b ≠ 0 ∧ b ≠ 37) ∧ b ≠ 10)
    (htail : ∀ b ∈ literal tail, (b ≠ 0 ∧ b ≠ 37) ∧ b ≠ 10) :
    ∀ p ∈ Line.numbered lead v tail, p.Valid := by
  intro p hp
  simp only [Line.numbered, List.mem_cons, List.not_mem_nil, or_false] at hp
  obtain rfl | rfl | rfl | rfl := hp
  · exact fun b hb => (hlead b hb).1
  · exact decimal_valid v
  · exact fun b hb => (htail b hb).1
  · exact newline_valid

theorem fixed_valid {t : String} (ht : ∀ b ∈ literal t, (b ≠ 0 ∧ b ≠ 37) ∧ b ≠ 10) :
    ∀ p ∈ [Piece.text (literal t), Line.newline], p.Valid := by
  intro p hp
  simp only [List.mem_cons, List.not_mem_nil, or_false] at hp
  obtain rfl | rfl := hp
  · exact fun b hb => (ht b hb).1
  · exact newline_valid

theorem pieces_valid (l : Line) : ∀ p ∈ l.pieces, p.Valid := by
  have ht := plain_literals
  cases l with
  | parameter offset word =>
    intro p hp
    simp only [Line.pieces, List.mem_cons, List.not_mem_nil, or_false] at hp
    obtain rfl | rfl | rfl | rfl | rfl := hp
    · exact fun b hb => (ht _ (by simp) b hb).1
    · exact decimal_valid offset
    · intro b hb
      obtain rfl := List.mem_singleton.mp hb
      decide
    · have hlen : word.toList.length < 2 ^ 32 := by
        rw [Vector.length_toList]
        omega
      exact hlen
    · exact newline_valid
  | paramNotSupported => exact fixed_valid (ht _ (by simp))
  | paramNotSupportedAt nextParam => exact numbered_valid _ (ht _ (by simp)) (ht _ (by simp))
  | selectorIndexNotSupported selectorIndex =>
    exact numbered_valid _ (ht _ (by simp)) (ht _ (by simp))
  | idNotSupported selectorIndex => exact numbered_valid _ (ht _ (by simp)) (ht _ (by simp))
  | missingSelectorIndex => exact fixed_valid (ht _ (by simp))
  | invalidScreenIndex => exact fixed_valid (ht _ (by simp))
  | unhandledMessage message => exact numbered_valid _ (ht _ (by simp)) (ht _ (by simp))

theorem spell_decimal (v : UInt32) : (Line.decimal v).spell = [37, 100] := by
  simp [Line.decimal, Piece.spell, Piece.directive, Pad.spell]
  decide

/-- The pieces are those of the source's format, and take its arguments. -/
theorem spell_pieces (l : Line) : l.pieces.flatMap Piece.spell = literal l.format := by
  cases l with
  | _ =>
    simp only [Line.pieces, Line.numbered, List.flatMap_cons, List.flatMap_nil, spell_decimal]
    simp only [Line.newline, Piece.spell, Piece.directive, if_true, Line.format]
    decide +kernel

theorem args_pieces (l : Line) : l.pieces.flatMap Piece.args = l.args := by
  cases l with
  | parameter offset word =>
    simp [Line.pieces, Line.decimal, Line.newline, Piece.args, Line.args, parameterLength]
  | _ => rfl

/-- Each line is printed as its pieces show it. -/
theorem printed_eq (l : Line) : l.printed = .done l.text := by
  have hlen : (l.pieces.flatMap Piece.spell).length < 2 ^ 16 := by
    rw [spell_pieces]
    cases l with
    | _ =>
      rw [Line.format]
      decide +kernel
  have h := semihostedPrintf_pieces l.pieces (pieces_valid l) hlen [] []
  rwa [spell_pieces, args_pieces, List.append_nil] at h

theorem shows_numbered (lead : String) (v : UInt32) (tail : String) :
    (Line.numbered lead v tail).flatMap Piece.shows =
      literal lead ++ ((Line.decimal v).shows ++ (literal tail ++ [10])) := by
  simp only [Line.numbered, Line.newline, List.flatMap_cons, List.flatMap_nil, Piece.shows,
    List.append_nil]

theorem shows_parameter (offset : UInt32) (word : Word) :
    (Line.parameter offset word).text =
      literal "plugin provide parameter " ++
        ((Line.decimal offset).shows ++ 32 ::
          ((nibbles word.toList).map (hexDigit true) ++ [10])) := by
  simp [Line.text, Line.pieces, Line.newline, Piece.shows]

theorem not_mem_decimal {c : UInt8} (hminus : c ≠ 45) (hc : c < 48 ∨ 57 < c) (v : UInt32) :
    c ∉ (Line.decimal v).shows := by
  intro hmem
  cases mem_decimal hmem with
  | inl h => exact hminus h
  | inr h =>
    cases hc with
    | inl hlow => exact absurd h.1 (UInt8.not_le.mpr hlow)
    | inr hhigh => exact absurd h.2 (UInt8.not_le.mpr hhigh)

theorem newline_not_mem_decimal (v : UInt32) : 10 ∉ (Line.decimal v).shows :=
  not_mem_decimal (by decide) (by decide) v

theorem numbered_terminated {lead tail : String} (v : UInt32)
    (hlead : ∀ b ∈ literal lead, (b ≠ 0 ∧ b ≠ 37) ∧ b ≠ 10)
    (htail : ∀ b ∈ literal tail, (b ≠ 0 ∧ b ≠ 37) ∧ b ≠ 10) :
    ∃ body, (Line.numbered lead v tail).flatMap Piece.shows = body ++ [10] ∧ 10 ∉ body := by
  refine ⟨literal lead ++ ((Line.decimal v).shows ++ literal tail), ?_, ?_⟩
  · rw [shows_numbered, List.append_assoc, List.append_assoc]
  · simp only [List.mem_append, not_or]
    exact ⟨fun h => (hlead 10 h).2 rfl, newline_not_mem_decimal v, fun h => (htail 10 h).2 rfl⟩

/-- Each line ends in a newline, and has none inside. -/
theorem text_terminated (l : Line) : ∃ body, l.text = body ++ [10] ∧ 10 ∉ body := by
  have ht := plain_literals
  cases l with
  | parameter offset word =>
    have hhex : ∀ i < 16, hexDigit true i ≠ 10 := by decide +kernel
    refine ⟨literal "plugin provide parameter " ++ ((Line.decimal offset).shows ++ 32 ::
      (nibbles word.toList).map (hexDigit true)), ?_, ?_⟩
    · rw [shows_parameter, List.append_assoc, List.append_assoc, List.cons_append]
    · have hblank : (10 : UInt8) ≠ 32 := by decide
      simp only [List.mem_append, List.mem_cons, List.mem_map, not_or, not_exists, not_and]
      refine ⟨fun h => (ht _ (by simp) 10 h).2 rfl, newline_not_mem_decimal offset, hblank, ?_⟩
      intro d hd
      exact hhex d (nibbles_lt _ d hd)
  | paramNotSupported => exact ⟨literal "Param not supported", rfl, by decide +kernel⟩
  | paramNotSupportedAt nextParam => exact numbered_terminated _ (ht _ (by simp)) (ht _ (by simp))
  | selectorIndexNotSupported selectorIndex =>
    exact numbered_terminated _ (ht _ (by simp)) (ht _ (by simp))
  | idNotSupported selectorIndex =>
    exact numbered_terminated _ (ht _ (by simp)) (ht _ (by simp))
  | missingSelectorIndex => exact ⟨literal "Missing selectorIndex", rfl, by decide +kernel⟩
  | invalidScreenIndex =>
    exact ⟨literal "Received an invalid screenIndex", rfl, by decide +kernel⟩
  | unhandledMessage message => exact numbered_terminated _ (ht _ (by simp)) (ht _ (by simp))

theorem numbered_inj {lead tail : String} {v w : UInt32}
    (h : (Line.numbered lead v tail).flatMap Piece.shows =
      (Line.numbered lead w tail).flatMap Piece.shows) : v = w := by
  rw [shows_numbered, shows_numbered] at h
  exact decimal_inj (List.append_cancel_right (List.append_cancel_left h))

/-- The two lines about a selector index differ in the colon, which no number has. -/
theorem selectorIndex_ne_id (v w : UInt32) :
    (Line.selectorIndexNotSupported v).text ≠ (Line.idNotSupported w).text := by
  intro h
  have hcolon : literal "Selector Index :" = literal "Selector Index " ++ [58] := by
    decide +kernel
  simp only [Line.text, Line.pieces, shows_numbered, hcolon, List.append_assoc] at h
  have hrest := List.append_cancel_left h
  have hmem : (58 : UInt8) ∈ (Line.decimal v).shows := by
    cases hv : (Line.decimal v).shows with
    | nil =>
      rw [shows_decimal] at hv
      exact absurd (List.append_eq_nil_iff.mp hv).2 (decimalText_ne_nil _)
    | cons c cs =>
      rw [hv] at hrest
      obtain ⟨rfl, -⟩ := List.cons.inj hrest
      exact List.mem_cons_self
  exact not_mem_decimal (by decide) (by decide) v hmem

/-- One line about a parameter ends where the other has a colon. -/
theorem paramNotSupported_ne_at (nextParam : UInt8) :
    Line.paramNotSupported.text ≠ (Line.paramNotSupportedAt nextParam).text := by
  intro h
  have hcolon : literal "Param not supported: " = literal "Param not supported" ++ [58, 32] := by
    decide +kernel
  have hfixed : Line.paramNotSupported.text = literal "Param not supported" ++ [10] := rfl
  rw [hfixed, Line.text, Line.pieces, shows_numbered, hcolon, List.append_assoc] at h
  have hne : (10 : UInt8) ≠ 58 := by decide
  exact hne (List.cons.inj (List.append_cancel_left h)).1

/-- The first letter of a line. -/
def Line.initial : Line → UInt8
  | parameter _ _ => 112
  | paramNotSupported | paramNotSupportedAt _ => 80
  | selectorIndexNotSupported _ | idNotSupported _ => 83
  | missingSelectorIndex => 77
  | invalidScreenIndex => 82
  | unhandledMessage _ => 85

theorem head?_text (l : Line) : l.text.head? = some l.initial := by
  cases l with
  | _ => rfl

/-- Every line has a text of its own. -/
theorem text_inj {l m : Line} (h : l.text = m.text) : l = m := by
  have hinitial : l.initial = m.initial := by
    have hhead := congrArg List.head? h
    rw [head?_text, head?_text] at hhead
    exact Option.some.inj hhead
  cases l with
  | parameter offset word =>
    cases m with
    | parameter offset' word' =>
      have hblank (v : UInt32) : 32 ∉ (Line.decimal v).shows :=
        not_mem_decimal (by decide) (by decide) v
      rw [shows_parameter, shows_parameter] at h
      obtain ⟨hoffset, hword⟩ :=
        append_cons_inj (hblank offset) (hblank offset') (List.append_cancel_left h)
      have hhex := hex_inj (hexDigit_distinct true) (List.append_cancel_right hword)
      rw [decimal_inj hoffset, Vector.toList_inj.mp hhex]
    | _ => simp [Line.initial] at hinitial
  | paramNotSupported =>
    cases m with
    | paramNotSupported => rfl
    | paramNotSupportedAt nextParam => exact absurd h (paramNotSupported_ne_at nextParam)
    | _ => simp [Line.initial] at hinitial
  | paramNotSupportedAt nextParam =>
    cases m with
    | paramNotSupported => exact absurd h.symm (paramNotSupported_ne_at nextParam)
    | paramNotSupportedAt nextParam' => rw [UInt8.toUInt32_inj.mp (numbered_inj h)]
    | _ => simp [Line.initial] at hinitial
  | selectorIndexNotSupported v =>
    cases m with
    | selectorIndexNotSupported w => rw [numbered_inj h]
    | idNotSupported w => exact absurd h (selectorIndex_ne_id v w)
    | _ => simp [Line.initial] at hinitial
  | idNotSupported v =>
    cases m with
    | selectorIndexNotSupported w => exact absurd h.symm (selectorIndex_ne_id w v)
    | idNotSupported w => rw [numbered_inj h]
    | _ => simp [Line.initial] at hinitial
  | missingSelectorIndex =>
    cases m with
    | missingSelectorIndex => rfl
    | _ => simp [Line.initial] at hinitial
  | invalidScreenIndex =>
    cases m with
    | invalidScreenIndex => rfl
    | _ => simp [Line.initial] at hinitial
  | unhandledMessage v =>
    cases m with
    | unhandledMessage w => rw [numbered_inj h]
    | _ => simp [Line.initial] at hinitial

/-- What is printed determines the lines, each of them and their order. -/
theorem lines_inj {ls ms : List Line} (h : ls.flatMap Line.text = ms.flatMap Line.text) :
    ls = ms := by
  have hfree : PrefixFree Line.text :=
    prefixFree_of_terminated 10 text_terminated fun _ _ => text_inj
  refine hfree.flatMap_inj ?_ h
  intro l hl
  have hhead := head?_text l
  rw [hl] at hhead
  cases hhead

/-- One call of `PRINTF` after the other. -/
def printLines : List Line → Printed
  | [] => .done []
  | l :: ls => l.printed.andThen (printLines ls)

theorem printLines_eq (ls : List Line) : printLines ls = .done (ls.flatMap Line.text) := by
  induction ls with
  | nil => rfl
  | cons l ls ih =>
    rw [printLines, printed_eq, ih, List.flatMap_cons]
    rfl

end Lines
end StakedaoPlugin.Debug
