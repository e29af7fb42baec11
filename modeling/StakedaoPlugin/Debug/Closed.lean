import StakedaoPlugin.Debug.Format

/-! Which formats are read up to their end and no further: those that do not end
inside a directive. Behind the others, the bytes that follow in memory are
taken for the rest of the format. -/
namespace StakedaoPlugin.Debug
open CMemory Numeral

/-- Where the reading of a format is. -/
inductive Scan where
  | text
  | again
deriving DecidableEq

def Control.scan : Control → Scan
  | .text _ => .text
  | .again _ => .again

/-- Behind a period, a star and one of the three kinds. -/
def starredIn (first : UInt8) (rest : List UInt8) : Bool :=
  decide (first = '*'.toUInt8) && rest.head?.any fun kind =>
    decide (kind = 's'.toUInt8 ∨ kind = 'H'.toUInt8 ∨ kind = 'h'.toUInt8)

/-- Where the format leaves the reading at its end. -/
def scan : Scan → List UInt8 → Scan
  | s, [] => s
  | .text, c :: format => if c = '%'.toUInt8 then scan .again format else scan .text format
  | .again, c :: format =>
    match command c with
    | .digit _ | .minus => scan .again format
    | .dot =>
      match format with
      | [] => .text
      | first :: rest =>
        if starredIn first rest then scan .again rest else scan .text (first :: rest)
    | .star =>
      match format with
      | [] => .text
      | kind :: rest =>
        if kind = 's'.toUInt8 then scan .again (kind :: rest) else scan .text (kind :: rest)
    | .c | .d | .H | .h | .s | .u | .X | .x | .percent | .other => scan .text format

namespace Printed

theorem andThen_assoc (p q r : Printed) : (p.andThen q).andThen r = p.andThen (q.andThen r) := by
  cases p with
  | mk out fault =>
    cases fault with
    | some f => rfl
    | none =>
      cases q with
      | mk out' fault' =>
        cases fault' with
        | some f => rfl
        | none => simp [andThen, List.append_assoc]

theorem andThen_of_fault {p : Printed} (h : p.fault ≠ none) (q : Printed) : p.andThen q = p := by
  unfold andThen
  cases hf : p.fault with
  | none => exact absurd hf h
  | some f => rfl

end Printed

/-- What a call does with what lies behind its format: nothing, or it reports the
terminator as an unknown command and goes on there as with a new format, with
the arguments that are left. -/
def EndsAs (s : Scan) (args : List Arg) (f : List UInt8 → Printed) : Prop :=
  match s with
  | .text => ∃ p : Printed, ∀ behind, f behind = p
  | .again => ∃ (p : Printed) (left : List Arg), left <:+ args ∧ ∀ behind,
    f behind = (p.andThen errorText).andThen (printfLoop (.text []) behind left)

section EndsAs
variable {s : Scan} {args : List Arg} {f : List UInt8 → Printed}

theorem endsAs_stopped (s : Scan) (args : List Arg) {p : Printed} (hp : p.fault ≠ none) :
    EndsAs s args fun _ => p := by
  cases s with
  | text => exact ⟨p, fun _ => rfl⟩
  | again =>
    refine ⟨p, args, List.suffix_refl args, ?_⟩
    intro behind
    rw [Printed.andThen_of_fault hp, Printed.andThen_of_fault hp]

theorem EndsAs.andThen (p : Printed) {left : List Arg} (hleft : left <:+ args)
    (h : EndsAs s left f) : EndsAs s args fun b => p.andThen (f b) := by
  cases s with
  | text =>
    obtain ⟨q, hq⟩ := h
    exact ⟨p.andThen q, fun b => congrArg p.andThen (hq b)⟩
  | again =>
    obtain ⟨q, left', hsuffix, hq⟩ := h
    refine ⟨p.andThen q, left', hsuffix.trans hleft, ?_⟩
    intro b
    calc
      p.andThen (f b)
          = p.andThen ((q.andThen errorText).andThen (printfLoop (.text []) b left')) :=
        congrArg p.andThen (hq b)
      _ = ((p.andThen q).andThen errorText).andThen (printfLoop (.text []) b left') := by
        rw [Printed.andThen_assoc p q errorText, Printed.andThen_assoc p]

end EndsAs

/-- The look ahead behind a period sees the terminator as another byte. -/
theorem starred_append (first : UInt8) (rest behind : List UInt8) :
    starred first (rest ++ 0 :: behind) = .ok (starredIn first rest) := by
  have h0 : ¬ ((0 : UInt8) = 's'.toUInt8 ∨ (0 : UInt8) = 'H'.toUInt8 ∨
      (0 : UInt8) = 'h'.toUInt8) := by decide
  unfold starred starredIn
  by_cases hstar : first = '*'.toUInt8
  · rw [if_pos hstar, decide_eq_true hstar]
    cases rest with
    | nil => simp only [List.nil_append, h0, decide_false, List.head?_nil, Option.any_none,
        Bool.and_false]
    | cons kind rest => simp only [List.cons_append, List.head?_cons, Option.any_some,
        Bool.true_and]
  · rw [if_neg hstar, decide_eq_false hstar, Bool.false_and]

section Step

/-- One byte of a directive: what is printed, and where the reading is then; none
if the argument is missing. The byte behind a star is seen, and so are the two
behind a period. -/
def againStep (d : Directive) (c : UInt8) (format : List UInt8) (args : List Arg) :
    Option (Printed × Control × List UInt8 × List Arg) :=
  match command c with
  | .digit n => some (.done [], .again (d.digit n), format, args)
  | .minus => some (.done [], .again { d with strlenSet := .strlen }, format, args)
  | .dot =>
    match format with
    | [] => some (errorText, .text [], [], args)
    | first :: rest =>
      if starredIn first rest then
        match args with
        | .value v :: args =>
          some (.done [], .again { d with strlen := v, strlenSet := .given }, rest, args)
        | _ => none
      else some (errorText, .text [], first :: rest, args)
  | .star =>
    match format with
    | [] => some (errorText, .text [], [], args)
    | kind :: rest =>
      if kind = 's'.toUInt8 then
        match args with
        | .value v :: args =>
          some (.done [], .again { d with strlen := v, strlenSet := .prepad }, kind :: rest, args)
        | _ => none
      else some (errorText, .text [], kind :: rest, args)
  | .percent => some (.done (cstr [c]), .text [], format, args)
  | .other => some (errorText, .text [], format, args)
  | .c | .d | .H | .h | .s | .u | .X | .x =>
    match args with
    | .value v :: args =>
      (printValue d v (command c)).map fun p => (p, .text [], format, args)
    | .pointer pcStr :: args =>
      (printPointer d pcStr (command c)).map fun p => (p, .text [], format, args)
    | [] => none

theorem printfLoop_step (d : Directive) (c : UInt8) (format behind : List UInt8)
    (args : List Arg) :
    printfLoop (.again d) (c :: (format ++ 0 :: behind)) args =
      match againStep d c format args with
      | none => .stopped .argument
      | some (p, c', format', args') =>
        p.andThen (printfLoop c' (format' ++ 0 :: behind) args') := by
  have h0 : ¬ (0 : UInt8) = 's'.toUInt8 := by decide
  have hstar0 : ¬ (0 : UInt8) = '*'.toUInt8 := by decide
  rw [printfLoop.eq_def, againStep.eq_def]
  cases hc : command c with
  | dot =>
    cases format with
    | nil => simp only [hc, List.nil_append, starred, if_neg hstar0]
    | cons first rest =>
      simp only [hc, List.cons_append, starred_append]
      cases starredIn first rest with
      | false => rfl
      | true => rcases args with _ | ⟨_ | _, args⟩ <;> rfl
  | star =>
    cases format with
    | nil => simp only [hc, List.nil_append, if_neg h0]
    | cons kind rest =>
      simp only [hc, List.cons_append]
      split_ifs
      · rcases args with _ | ⟨_ | _, args⟩ <;> rfl
      · rfl
  | percent => simp only [hc, prints_one]
  | digit n => simp only [hc]; rfl
  | minus => simp only [hc]; rfl
  | other => simp only [hc]
  | _ => rcases args with _ | ⟨_ | _, args⟩ <;> simp only [hc] <;> rfl

/-- A step leaves the reading of the format where `scan` says, and goes back neither
in the format nor in the arguments. -/
theorem againStep_scan {d : Directive} {c : UInt8} {format : List UInt8} {args : List Arg}
    {p : Printed} {c' : Control} {format' : List UInt8} {args' : List Arg}
    (h : againStep d c format args = some (p, c', format', args')) :
    scan .again (c :: format) = scan c'.scan format' ∧ format' <:+ format ∧ args' <:+ args := by
  rw [againStep.eq_def] at h
  rw [scan.eq_def]
  have hself : format <:+ format := List.suffix_refl format
  have hargs : args <:+ args := List.suffix_refl args
  cases hc : command c with
  | dot =>
    cases format with
    | nil =>
      simp only [hc, Option.some.injEq, Prod.mk.injEq] at h ⊢
      obtain ⟨-, rfl, rfl, rfl⟩ := h
      exact ⟨rfl, hself, hargs⟩
    | cons first rest =>
      simp only [hc] at h ⊢
      cases hs : starredIn first rest with
      | false =>
        simp only [hs, Bool.false_eq_true, if_false, Option.some.injEq, Prod.mk.injEq] at h ⊢
        obtain ⟨-, rfl, rfl, rfl⟩ := h
        exact ⟨rfl, hself, hargs⟩
      | true =>
        rcases args with _ | ⟨v | _, args⟩ <;>
          simp only [hs, if_true, Option.some.injEq, Prod.mk.injEq, reduceCtorEq] at h ⊢
        obtain ⟨-, rfl, rfl, rfl⟩ := h
        exact ⟨rfl, List.suffix_cons first rest, List.suffix_cons _ args⟩
  | star =>
    cases format with
    | nil =>
      simp only [hc, Option.some.injEq, Prod.mk.injEq] at h ⊢
      obtain ⟨-, rfl, rfl, rfl⟩ := h
      exact ⟨rfl, hself, hargs⟩
    | cons kind rest =>
      simp only [hc] at h ⊢
      split_ifs at h ⊢
      · rcases args with _ | ⟨v | _, args⟩ <;>
          simp only [Option.some.injEq, Prod.mk.injEq, reduceCtorEq] at h
        obtain ⟨-, rfl, rfl, rfl⟩ := h
        exact ⟨rfl, hself, List.suffix_cons _ args⟩
      · simp only [Option.some.injEq, Prod.mk.injEq] at h
        obtain ⟨-, rfl, rfl, rfl⟩ := h
        exact ⟨rfl, hself, hargs⟩
  | digit n =>
    simp only [hc, Option.some.injEq, Prod.mk.injEq] at h ⊢
    obtain ⟨-, rfl, rfl, rfl⟩ := h
    exact ⟨rfl, hself, hargs⟩
  | minus =>
    simp only [hc, Option.some.injEq, Prod.mk.injEq] at h ⊢
    obtain ⟨-, rfl, rfl, rfl⟩ := h
    exact ⟨rfl, hself, hargs⟩
  | percent =>
    simp only [hc, Option.some.injEq, Prod.mk.injEq] at h ⊢
    obtain ⟨-, rfl, rfl, rfl⟩ := h
    exact ⟨rfl, hself, hargs⟩
  | other =>
    simp only [hc, Option.some.injEq, Prod.mk.injEq] at h ⊢
    obtain ⟨-, rfl, rfl, rfl⟩ := h
    exact ⟨rfl, hself, hargs⟩
  | _ =>
    rcases args with _ | ⟨v | pcStr, args⟩ <;>
      simp only [hc, printValue, printPointer, Option.map_some, Option.map_none,
        Option.some.injEq, Prod.mk.injEq, reduceCtorEq] at h ⊢
    exact ⟨h.2.1 ▸ h.2.2.1 ▸ rfl, h.2.2.1 ▸ hself, h.2.2.2 ▸ List.suffix_cons _ args⟩

theorem printfLoop_openEnd (d : Directive) (behind : List UInt8) (args : List Arg) :
    printfLoop (.again d) (0 :: behind) args =
      errorText.andThen (printfLoop (.text []) behind args) := by
  have hc : command 0 = .other := by decide
  rw [printfLoop.eq_def]
  simp only [hc]

end Step

/-- Read to its end, a format either stops there or is read on behind it. -/
theorem endsAs_scan (format : List UInt8) (hnul : ∀ b ∈ format, b ≠ 0) (c : Control)
    (args : List Arg) :
    EndsAs (scan c.scan format) args fun behind =>
      printfLoop c (format ++ 0 :: behind) args := by
  induction hn : format.length using Nat.strong_induction_on generalizing format c args with
  | _ n ih =>
    cases format with
    | nil =>
      cases c with
      | text portion => exact ⟨_, fun behind => printfLoop_nul behind args portion⟩
      | again d =>
        refine ⟨.done [], args, List.suffix_refl args, ?_⟩
        intro behind
        exact printfLoop_openEnd d behind args
    | cons b format =>
      have hlen : format.length < n := Nat.lt_of_succ_le (Nat.le_of_eq hn)
      have hrest : ∀ x ∈ format, x ≠ 0 := fun x hx => hnul x (by simp [hx])
      cases c with
      | text portion =>
        by_cases hb : b = '%'.toUInt8
        · subst hb
          simp only [Control.scan, scan, if_true, List.cons_append, printfLoop_percent]
          exact (ih _ hlen format hrest (.again _) args rfl).andThen _ (List.suffix_refl args)
        · simp only [Control.scan, scan, if_neg hb, List.cons_append,
            printfLoop_text _ _ portion hb (hnul b (by simp))]
          exact ih _ hlen format hrest (.text _) args rfl
      | again d =>
        simp only [List.cons_append, printfLoop_step]
        cases hstep : againStep d b format args with
        | none => exact endsAs_stopped _ args (Option.some_ne_none Fault.argument)
        | some next =>
          obtain ⟨p, c', format', args'⟩ := next
          obtain ⟨hscan, hsuf, hleft⟩ := againStep_scan hstep
          have hshort := hsuf.length_le
          simp only [Control.scan] at hscan ⊢
          rw [hscan]
          exact (ih format'.length (by omega) format' (fun x hx => hrest x (hsuf.subset hx)) c'
            args' rfl).andThen p hleft

section Zeros

/-- With a zero for each number and an empty string for each pointer, no directive
fails; the length of a string is then zero as well. -/
def Control.Plain : Control → Prop
  | .text _ => True
  | .again d => d.strlen = 0 ∧ d.fill ≠ 0

theorem errorText_fault : errorText.fault = none := by
  have hlen : (5 : UInt16).toNat ≤ (literal "ERROR" ++ [0]).length := by decide +kernel
  rw [errorText, prints, printsLoop_fault, if_pos hlen]

theorem convert_zero {d : Directive} (hbase : d.base = 10 ∨ d.base = 16) (hfill : d.fill ≠ 0) :
    (convert d 0 false).fault = none := by
  have htwo : 2 ≤ d.base.toNat := by
    obtain h | h := hbase <;> rw [h] <;> decide
  have hlen : (text (hexDigit d.cap) d.base.toNat (0 : UInt32).toNat).length = 1 := by
    have hlog : Nat.log d.base.toNat (0 : UInt32).toNat = 0 := Nat.log_zero_right _
    rw [length_text _ _ htwo, hlog]
  have hover : ¬ (17 ≤ d.count.toNat ∧ d.count.toNat ≤ (signText false).length +
      (text (hexDigit d.cap) d.base.toNat (0 : UInt32).toNat).length + 14) := by
    rw [hlen]
    simp only [signText, Bool.false_eq_true, if_false, List.length_nil]
    omega
  rw [convert_eq d 0 false hbase hfill, if_neg hover]
  rfl

theorem writeString_zero (d : Directive) : (writeString d [0] 0).fault = none := by
  have hprints : (prints [0] (0 : UInt32).toUInt16).fault = none := by
    rw [prints, printsLoop_fault]
    rfl
  unfold writeString
  split_ifs
  · rw [Printed.andThen_fault, sPad_eq]
    rfl
  · rw [Printed.andThen_fault, hprints, sPad_eq]
    rfl

theorem printString_zero {d : Directive} (hstrlen : d.strlen = 0) :
    (printString d [0]).fault = none := by
  unfold printString
  cases d.strlenSet with
  | strlen => exact writeString_zero d
  | given =>
    simp only [hstrlen]
    exact writeString_zero d
  | prepad =>
    simp only [if_true]
    rw [Printed.andThen_fault, spaces_eq, sPad_eq]
    rfl

/-- A step that is given a zero goes on without fault. -/
theorem againStep_zero {d : Directive} (hd : (Control.again d).Plain) (c : UInt8)
    (format : List UInt8) :
    ∃ args p c' format', p.fault = none ∧ c'.Plain ∧
      ∀ rest, againStep d c format (args ++ rest) = some (p, c', format', rest) := by
  obtain ⟨hstrlen, hfill⟩ := hd
  simp only [againStep.eq_def]
  cases hc : command c with
  | digit n =>
    refine ⟨[], .done [], .again (d.digit n), format, rfl, ⟨hstrlen, ?_⟩, fun _ => rfl⟩
    simp only [Directive.digit]
    split_ifs
    · decide
    · exact hfill
  | minus =>
    exact ⟨[], .done [], .again { d with strlenSet := .strlen }, format, rfl, ⟨hstrlen, hfill⟩,
      fun _ => rfl⟩
  | dot =>
    cases format with
    | nil => exact ⟨[], errorText, .text [], [], errorText_fault, trivial, fun _ => rfl⟩
    | cons first rest =>
      cases hs : starredIn first rest with
      | false =>
        refine ⟨[], errorText, .text [], first :: rest, errorText_fault, trivial, ?_⟩
        intro args
        simp [hs]
      | true =>
        refine ⟨[.value 0], .done [], .again { d with strlen := 0, strlenSet := .given }, rest, rfl,
          ⟨rfl, hfill⟩, ?_⟩
        intro args
        simp [hs]
  | star =>
    cases format with
    | nil => exact ⟨[], errorText, .text [], [], errorText_fault, trivial, fun _ => rfl⟩
    | cons kind rest =>
      by_cases hkind : kind = 's'.toUInt8
      · refine ⟨[.value 0], .done [], .again { d with strlen := 0, strlenSet := .prepad },
          kind :: rest, rfl, ⟨rfl, hfill⟩, ?_⟩
        intro args
        simp [hkind]
      · refine ⟨[], errorText, .text [], kind :: rest, errorText_fault, trivial, ?_⟩
        intro args
        simp [hkind]
  | percent => exact ⟨[], _, .text [], format, rfl, trivial, fun _ => rfl⟩
  | other => exact ⟨[], errorText, .text [], format, errorText_fault, trivial, fun _ => rfl⟩
  | c =>
    have hp : (printChar 0).fault = none := by
      rw [printChar, prints_one]
      rfl
    exact ⟨[.value 0], _, .text [], format, hp, trivial, fun _ => rfl⟩
  | d =>
    have hp : (printSigned d 0).fault = none := by
      rw [printSigned_eq]
      exact convert_zero (Or.inl rfl) hfill
    exact ⟨[.value 0], _, .text [], format, hp, trivial, fun _ => rfl⟩
  | u =>
    exact ⟨[.value 0], convert { d with base := 10 } 0 false, .text [], format,
      convert_zero (Or.inl rfl) hfill, trivial, fun _ => rfl⟩
  | X =>
    exact ⟨[.value 0], convert { d with cap := true, base := 16 } 0 false, .text [], format,
      convert_zero (Or.inr rfl) hfill, trivial, fun _ => rfl⟩
  | x =>
    exact ⟨[.value 0], convert { d with base := 16 } 0 false, .text [], format,
      convert_zero (Or.inr rfl) hfill, trivial, fun _ => rfl⟩
  | s =>
    exact ⟨[.pointer [0]], printString d [0], .text [], format, printString_zero hstrlen, trivial,
      fun _ => rfl⟩
  | H =>
    exact ⟨[.pointer [0]], printString { d with cap := true, base := 16 } [0], .text [], format,
      printString_zero hstrlen, trivial, fun _ => rfl⟩
  | h =>
    exact ⟨[.pointer [0]], printString { d with cap := false, base := 16 } [0], .text [], format,
      printString_zero hstrlen, trivial, fun _ => rfl⟩

theorem prints_portion_fault (portion : List UInt8) :
    (prints portion (UInt16.ofNat portion.length)).fault = none := by
  have hle : (UInt16.ofNat portion.length).toNat ≤ portion.length := by
    rw [UInt16.toNat_ofNat']
    exact Nat.mod_le _ _
  rw [prints, printsLoop_fault, if_pos hle]

/-- There are arguments with which a format is printed up to its end, and then
stopped at, or read on behind it. -/
theorem exists_args (format : List UInt8) (hnul : ∀ b ∈ format, b ≠ 0) {c : Control}
    (hc : c.Plain) :
    ∃ args p, p.fault = none ∧ ∀ behind, printfLoop c (format ++ 0 :: behind) args =
      match scan c.scan format with
      | .text => p
      | .again => p.andThen (printfLoop (.text []) behind []) := by
  induction hn : format.length using Nat.strong_induction_on generalizing format c with
  | _ n ih =>
    cases format with
    | nil =>
      cases c with
      | text portion =>
        exact ⟨[], _, prints_portion_fault portion, fun behind => printfLoop_nul behind [] portion⟩
      | again d =>
        exact ⟨[], errorText, errorText_fault, fun behind => printfLoop_openEnd d behind []⟩
    | cons b format =>
      have hlen : format.length < n := Nat.lt_of_succ_le (Nat.le_of_eq hn)
      have hrest : ∀ x ∈ format, x ≠ 0 := fun x hx => hnul x (by simp [hx])
      cases c with
      | text portion =>
        by_cases hb : b = '%'.toUInt8
        · subst hb
          have hblank : (32 : UInt8) ≠ 0 := by decide
          have hplain : (Control.again (.start (UInt32.ofNat portion.length))).Plain :=
            ⟨rfl, hblank⟩
          obtain ⟨args, p, hp, hargs⟩ := ih _ hlen format hrest hplain rfl
          have hportion := prints_portion_fault portion
          refine ⟨args, (prints portion (UInt16.ofNat portion.length)).andThen p, ?_, ?_⟩
          · rw [Printed.andThen_fault, hportion, hp]
            rfl
          · intro behind
            simp only [Control.scan] at hargs
            simp only [Control.scan, scan, if_true]
            rw [List.cons_append, printfLoop_percent, hargs behind]
            cases scan .again format with
            | text => rfl
            | again => exact (Printed.andThen_assoc _ _ _).symm
        · obtain ⟨args, p, hp, hargs⟩ := ih _ hlen format hrest
            (c := .text (portion ++ [b])) trivial rfl
          refine ⟨args, p, hp, ?_⟩
          intro behind
          simp only [Control.scan] at hargs
          simp only [Control.scan, scan, if_neg hb]
          exact (printfLoop_text _ args portion hb (hnul b (by simp))).trans (hargs behind)
      | again d =>
        obtain ⟨args, p, c', format', hp, hplain, hstep⟩ := againStep_zero hc b format
        obtain ⟨hscan, hsuf, -⟩ := againStep_scan (hstep [])
        have hshort := hsuf.length_le
        obtain ⟨args', q, hq, hargs⟩ := ih format'.length (by omega) format'
          (fun x hx => hrest x (hsuf.subset hx)) hplain rfl
        refine ⟨args ++ args', p.andThen q, ?_, ?_⟩
        · rw [Printed.andThen_fault, hp, hq]
          rfl
        · intro behind
          have hs : scan (Control.again d).scan (b :: format) = scan c'.scan format' := hscan
          rw [hs, List.cons_append, printfLoop_step, hstep args']
          simp only [hargs behind]
          cases scan c'.scan format' with
          | text => rfl
          | again => exact (Printed.andThen_assoc _ _ _).symm

end Zeros

/-- What lies behind a format is not read exactly if the format does not end inside
a directive. If it does, the terminator is an unknown command, and the reading
goes on behind it with the arguments that are left. -/
theorem reads_behind_iff (format : List UInt8) (hnul : ∀ b ∈ format, b ≠ 0) :
    ((∀ args behind behind', semihostedPrintf (some (format ++ 0 :: behind)) args =
        semihostedPrintf (some (format ++ 0 :: behind')) args) ↔ scan .text format = .text) ∧
    (scan .text format = .again → ∀ args, ∃ (p : Printed) (left : List Arg), left <:+ args ∧
      ∀ behind, semihostedPrintf (some (format ++ 0 :: behind)) args =
        (p.andThen errorText).andThen (semihostedPrintf (some behind) left)) := by
  have hends := endsAs_scan format hnul (.text [])
  refine ⟨⟨?_, ?_⟩, ?_⟩
  · intro h
    cases hs : scan .text format with
    | text => rfl
    | again =>
      -- with nothing behind it the call is stopped, with one more terminator it is not
      obtain ⟨args, p, hp, hargs⟩ := exists_args format hnul (c := .text []) trivial
      simp only [Control.scan, hs] at hargs
      have heq := h args [] [0]
      simp only [semihostedPrintf, hargs] at heq
      have hfault := congrArg Printed.fault heq
      have hstop : (printfLoop (.text []) [] []).fault = some .readPast := rfl
      have hdone : (printfLoop (.text []) [0] []).fault = none := by
        rw [printfLoop_nul]
        exact prints_portion_fault []
      rw [Printed.andThen_fault, Printed.andThen_fault, hp, hstop, hdone] at hfault
      cases hfault
  · intro hs args behind behind'
    have h := hends args
    simp only [Control.scan, hs] at h
    obtain ⟨p, hp⟩ := h
    exact (hp behind).trans (hp behind').symm
  · intro hs args
    have h := hends args
    simp only [Control.scan, hs] at h
    exact h

/-- A format that ends in a percent sign is read on. -/
theorem reads_behind_percent :
    ¬ (∀ args behind behind',
        semihostedPrintf (some (literal "100%" ++ 0 :: behind)) args =
          semihostedPrintf (some (literal "100%" ++ 0 :: behind')) args) := by
  have hnul : ∀ b ∈ literal "100%", b ≠ 0 := by decide +kernel
  have hscan : scan .text (literal "100%") ≠ .text := by decide +kernel
  intro h
  exact hscan ((reads_behind_iff (literal "100%") hnul).1.mp h)

end StakedaoPlugin.Debug
