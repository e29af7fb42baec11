import StakedaoPlugin.Debug.Convert

/-! `semihosted_printf`: the loop over the format, and the directives behind a
percent sign with the label `again`. -/
namespace StakedaoPlugin.Debug
open CMemory

/-- What the caller passes: an `unsigned long`, or a pointer to these bytes. -/
inductive Arg where
  | value (v : UInt32)
  | pointer (bytes : List UInt8)
deriving DecidableEq

/-- The cases of `switch (*format++)`. -/
inductive Command where
  | digit (n : UInt32)
  | c
  | d
  | dot
  | star
  | minus
  | H
  | h
  | s
  | u
  | X
  | x
  | percent
  | other
deriving DecidableEq

def command (c : UInt8) : Command :=
  match Char.ofUInt8 c with
  | '0' | '1' | '2' | '3' | '4' | '5' | '6' | '7' | '8' | '9' => .digit (c - 48).toUInt32
  | 'c' => .c
  | 'd' => .d
  | '.' => .dot
  | '*' => .star
  | '-' => .minus
  | 'H' => .H
  | 'h' => .h
  | 's' => .s
  | 'u' => .u
  | 'X' => .X
  | 'x' | 'p' => .x
  | '%' => .percent
  | _ => .other

/-- The variables behind a percent sign; `ulIdx` is still the length of the text before. -/
def Directive.start (idx : UInt32) : Directive where
  count := 0
  fill := 32
  strlen := 0
  strlenSet := .strlen
  cap := false
  base := 10
  idx := idx

/-- The case of a digit: a leading zero also selects the fill character. -/
def Directive.digit (n : UInt32) (d : Directive) : Directive :=
  { d with
    fill := if n = 0 ∧ d.count = 0 then 48 else d.fill
    count := d.count * 10 + n }

/-- `format[0] == '*' && (format[1] == 's' || format[1] == 'H' || format[1] == 'h')`,
where the second byte is read only behind a star. -/
def starred (first : UInt8) (rest : List UInt8) : Except Fault Bool :=
  if first = '*'.toUInt8 then
    match rest with
    | [] => .error .readPast
    | kind :: _ => .ok (kind = 's'.toUInt8 ∨ kind = 'H'.toUInt8 ∨ kind = 'h'.toUInt8)
  else .ok false

section Strings

def errorText : Printed := prints (literal "ERROR" ++ [0]) 5

/-- `prints(" ", 1)`, repeated. -/
def spaces : Nat → Printed
  | 0 => .done []
  | n + 1 => (prints [32, 0] 1).andThen (spaces n)

/-- The label `s_pad`. -/
def sPad (count idx : UInt32) : Printed :=
  if count > idx then spaces (count - idx).toNat else .done []

/-- The loop that prints two digits for each byte. -/
def hexDump (cap : Bool) : Nat → List UInt8 → Printed
  | 0, _ => .done []
  | _ + 1, [] => .stopped .readPast
  | n + 1, b :: pcStr =>
    (printc (hexDigit cap (b >>> 4 &&& 15).toNat)).andThen
      ((printc (hexDigit cap (b &&& 15).toNat)).andThen (hexDump cap n pcStr))

/-- The string with its length known; the loop of a dump leaves no pad count. -/
def writeString (d : Directive) (pcStr : List UInt8) (idx : UInt32) : Printed :=
  if d.base = 16 then (hexDump d.cap idx.toNat pcStr).andThen (sPad idx idx)
  else (prints pcStr idx.toUInt16).andThen (sPad d.count idx)

/-- The label `case_s`. The blanks of an empty string are one more than asked
for, and what follows them is padded to the length of the text before. -/
def printString (d : Directive) (pcStr : List UInt8) : Printed :=
  match d.strlenSet with
  | .strlen =>
    if 0 ∈ pcStr then writeString d pcStr (UInt32.ofNat (cstr pcStr).length)
    else .stopped .readPast
  | .given => writeString d pcStr d.strlen
  | .prepad =>
    match pcStr with
    | [] => .stopped .readPast
    | b :: _ =>
      if b = 0 then (spaces (d.strlen.toNat + 1)).andThen (sPad d.count d.idx)
      else errorText

/-- `prints((char *) &ulValue, 1)`, from the lowest byte. -/
def printChar (v : UInt32) : Printed :=
  prints [v.toUInt8, (v >>> 8).toUInt8, (v >>> 16).toUInt8, (v >>> 24).toUInt8] 1

/-- `%d`: the sign is taken off before the conversion. -/
def printSigned (d : Directive) (v : UInt32) : Printed :=
  if 2 ^ 31 ≤ v.toNat then convert { d with base := 10 } (0 - v) true
  else convert { d with base := 10 } v false

end Strings

/-- Where the function is: in a text that it looks for the end of, or behind a
percent sign, at the label `again`. -/
inductive Control where
  | text (portion : List UInt8)
  | again (d : Directive)

/-- The bytes of the format, read one after the other. -/
def printfLoop : Control → List UInt8 → List Arg → Printed
  | _, [], _ => .stopped .readPast
  | .text portion, c :: format, args =>
    if c = '%'.toUInt8 then
      (prints portion (UInt16.ofNat portion.length)).andThen
        (printfLoop (.again (.start (UInt32.ofNat portion.length))) format args)
    else if c = 0 then prints portion (UInt16.ofNat portion.length)
    else printfLoop (.text (portion ++ [c])) format args
  | .again d, c :: format, args =>
    match command c with
    | .digit n => printfLoop (.again (d.digit n)) format args
    | .c =>
      match args with
      | .value v :: args => (printChar v).andThen (printfLoop (.text []) format args)
      | _ => .stopped .argument
    | .d =>
      match args with
      | .value v :: args => (printSigned d v).andThen (printfLoop (.text []) format args)
      | _ => .stopped .argument
    | .dot =>
      match format with
      | [] => .stopped .readPast
      | first :: rest =>
        match starred first rest with
        | .error fault => .stopped fault
        | .ok true =>
          match args with
          | .value v :: args =>
            printfLoop (.again { d with strlen := v, strlenSet := .given }) rest args
          | _ => .stopped .argument
        | .ok false => errorText.andThen (printfLoop (.text []) (first :: rest) args)
    | .star =>
      match format with
      | [] => .stopped .readPast
      | kind :: rest =>
        if kind = 's'.toUInt8 then
          match args with
          | .value v :: args =>
            printfLoop (.again { d with strlen := v, strlenSet := .prepad }) (kind :: rest) args
          | _ => .stopped .argument
        else errorText.andThen (printfLoop (.text []) (kind :: rest) args)
    | .minus => printfLoop (.again { d with strlenSet := .strlen }) format args
    | .H =>
      match args with
      | .pointer pcStr :: args =>
        (printString { d with cap := true, base := 16 } pcStr).andThen
          (printfLoop (.text []) format args)
      | _ => .stopped .argument
    | .h =>
      match args with
      | .pointer pcStr :: args =>
        (printString { d with cap := false, base := 16 } pcStr).andThen
          (printfLoop (.text []) format args)
      | _ => .stopped .argument
    | .s =>
      match args with
      | .pointer pcStr :: args =>
        (printString d pcStr).andThen (printfLoop (.text []) format args)
      | _ => .stopped .argument
    | .u =>
      match args with
      | .value v :: args =>
        (convert { d with base := 10 } v false).andThen (printfLoop (.text []) format args)
      | _ => .stopped .argument
    | .X =>
      match args with
      | .value v :: args =>
        (convert { d with cap := true, base := 16 } v false).andThen
          (printfLoop (.text []) format args)
      | _ => .stopped .argument
    | .x =>
      match args with
      | .value v :: args =>
        (convert { d with base := 16 } v false).andThen (printfLoop (.text []) format args)
      | _ => .stopped .argument
    | .percent => (prints (c :: format) 1).andThen (printfLoop (.text []) format args)
    | .other => errorText.andThen (printfLoop (.text []) format args)

/-- `semihosted_printf`; a null format is ignored. -/
def semihostedPrintf (format : Option (List UInt8)) (args : List Arg) : Printed :=
  match format with
  | none => .done []
  | some format => printfLoop (.text []) format args

section Equations
variable {c : UInt8} {d : Directive} (format : List UInt8) (args : List Arg)

theorem printfLoop_text (portion : List UInt8) (hpercent : c ≠ '%'.toUInt8) (hnul : c ≠ 0) :
    printfLoop (.text portion) (c :: format) args =
      printfLoop (.text (portion ++ [c])) format args := by
  rw [printfLoop, if_neg hpercent, if_neg hnul]

theorem printfLoop_percent (portion : List UInt8) :
    printfLoop (.text portion) ('%'.toUInt8 :: format) args =
      (prints portion (UInt16.ofNat portion.length)).andThen
        (printfLoop (.again (.start (UInt32.ofNat portion.length))) format args) := by
  rw [printfLoop, if_pos rfl]

theorem printfLoop_nul (portion : List UInt8) :
    printfLoop (.text portion) (0 :: format) args =
      prints portion (UInt16.ofNat portion.length) := by
  rw [printfLoop, if_neg (by decide), if_pos rfl]

theorem printfLoop_digit {n : UInt32} (h : command c = .digit n) :
    printfLoop (.again d) (c :: format) args = printfLoop (.again (d.digit n)) format args := by
  rw [printfLoop.eq_def]
  simp only [h]

/-- What a conversion prints for a value. -/
def printValue (d : Directive) (v : UInt32) : Command → Option Printed
  | .c => some (printChar v)
  | .d => some (printSigned d v)
  | .u => some (convert { d with base := 10 } v false)
  | .X => some (convert { d with cap := true, base := 16 } v false)
  | .x => some (convert { d with base := 16 } v false)
  | _ => none

/-- What a conversion prints for a pointer. -/
def printPointer (d : Directive) (pcStr : List UInt8) : Command → Option Printed
  | .s => some (printString d pcStr)
  | .H => some (printString { d with cap := true, base := 16 } pcStr)
  | .h => some (printString { d with cap := false, base := 16 } pcStr)
  | _ => none

theorem printfLoop_value {v : UInt32} {p : Printed} (h : printValue d v (command c) = some p) :
    printfLoop (.again d) (c :: format) (.value v :: args) =
      p.andThen (printfLoop (.text []) format args) := by
  rw [printfLoop.eq_def]
  cases hc : command c <;> rw [hc] at h <;> cases h <;> simp only [hc]

theorem printfLoop_pointer {pcStr : List UInt8} {p : Printed}
    (h : printPointer d pcStr (command c) = some p) :
    printfLoop (.again d) (c :: format) (.pointer pcStr :: args) =
      p.andThen (printfLoop (.text []) format args) := by
  rw [printfLoop.eq_def]
  cases hc : command c <;> rw [hc] at h <;> cases h <;> simp only [hc]

/-- The length before a string or a dump. -/
theorem printfLoop_given {kind : UInt8} (v : UInt32)
    (hkind : kind = 's'.toUInt8 ∨ kind = 'H'.toUInt8 ∨ kind = 'h'.toUInt8) :
    printfLoop (.again d) ('.'.toUInt8 :: '*'.toUInt8 :: kind :: format) (.value v :: args) =
      printfLoop (.again { d with strlen := v, strlenSet := .given }) (kind :: format) args := by
  have hdot : command '.'.toUInt8 = .dot := by decide
  have hstar : starred '*'.toUInt8 (kind :: format) = .ok true := by
    rw [starred, if_pos rfl]
    simp only [hkind, decide_true]
  rw [printfLoop.eq_def]
  simp only [hdot, hstar]

/-- The count of blanks before an empty string. -/
theorem printfLoop_prepad (v : UInt32) :
    printfLoop (.again d) ('*'.toUInt8 :: 's'.toUInt8 :: format) (.value v :: args) =
      printfLoop (.again { d with strlen := v, strlenSet := .prepad }) ('s'.toUInt8 :: format)
        args := by
  have hstar : command '*'.toUInt8 = .star := by decide
  rw [printfLoop.eq_def]
  simp only [hstar, if_true]

/-- One byte is printed, unless it is NUL. -/
theorem prints_one (b : UInt8) (rest : List UInt8) : prints (b :: rest) 1 = .done (cstr [b]) := by
  have hone : (1 : UInt16).toNat = 1 := rfl
  have hlong : ¬ (b :: rest).length < min 63 1 := by simp
  have hcstr : cstr [b, 0] = cstr [b] := cstr_append_zeros [b] 1
  rw [prints, hone, printsLoop, if_pos Nat.one_pos]
  simp only [hlong, if_false]
  have h0 : (0 : UInt8) ∈ [b, 0] := by simp
  have htake : List.take (min 63 1) (b :: rest) ++ [0] = [b, 0] := rfl
  rw [htake, debugWrite, if_pos h0, hcstr, if_pos (by decide)]
  exact congrArg Printed.done (List.append_nil _)

theorem printfLoop_literalPercent :
    printfLoop (.again d) ('%'.toUInt8 :: format) args =
      (Printed.done ['%'.toUInt8]).andThen (printfLoop (.text []) format args) := by
  have hc : command '%'.toUInt8 = .percent := by decide
  have hcstr : cstr ['%'.toUInt8] = ['%'.toUInt8] := by decide
  rw [printfLoop.eq_def]
  simp only [hc]
  rw [prints_one, hcstr]

end Equations
end StakedaoPlugin.Debug
