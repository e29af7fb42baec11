import StakedaoPlugin.Lib.CMemory
import Mathlib.Data.List.Basic

/-! `debug_write`, `printc` and `prints` of `dbg/printf.c`: what they send to the
host, and where they would leave the memory they are given. -/
namespace StakedaoPlugin.Debug
open CMemory

/-- What stops a call: a read behind a string, a write behind `pcBuf`, or an
argument that is not there. -/
inductive Fault where
  | readPast
  | overflow
  | argument
deriving DecidableEq

/-- The bytes that are printed, and the fault that ended this, if there was one. -/
structure Printed where
  out : List UInt8
  fault : Option Fault
deriving DecidableEq

namespace Printed

def done (out : List UInt8) : Printed := ⟨out, none⟩

def stopped (fault : Fault) : Printed := ⟨[], some fault⟩

/-- Nothing is printed any more after a fault. -/
def andThen (p q : Printed) : Printed :=
  match p.fault with
  | none => ⟨p.out ++ q.out, q.fault⟩
  | some _ => p

@[simp] theorem done_andThen (out : List UInt8) (q : Printed) :
    (done out).andThen q = ⟨out ++ q.out, q.fault⟩ := rfl

theorem andThen_fault (p q : Printed) : (p.andThen q).fault = p.fault.or q.fault := by
  unfold andThen
  cases h : p.fault with
  | none => rfl
  | some f => exact h

end Printed

/-- The host prints up to the first NUL. -/
def debugWrite (buf : List UInt8) : Printed :=
  if 0 ∈ buf then .done (cstr buf) else .stopped .readPast

def printc (c : UInt8) : Printed := debugWrite [c, 0]

/-- The loop of `prints`; `memcpy` reads its bytes whether or not they are printed. -/
def printsLoop (str : List UInt8) (size : Nat) : Printed :=
  if 0 < size then
    let written := min 63 size
    if str.length < written then .stopped .readPast
    else
      (debugWrite (str.take written ++ [0])).andThen
        (if size ≤ written then .done []
        else printsLoop (str.drop written) (size - written))
  else .done []
termination_by size
decreasing_by omega

/-- `prints(str, size)`; every length is passed as a `uint16_t`. -/
def prints (str : List UInt8) (size : UInt16) : Printed := printsLoop str size.toNat

section Spec

theorem debugWrite_terminated (s : List UInt8) (h : ∀ b ∈ s, b ≠ 0) :
    debugWrite (s ++ [0]) = .done s := by
  have h0 : (0 : UInt8) ∈ s ++ [0] := by simp
  rw [debugWrite, if_pos h0, cstr_append _ h, cstr_cons_zero, List.append_nil]

theorem printc_eq {c : UInt8} (h : c ≠ 0) : printc c = .done [c] :=
  debugWrite_terminated [c] (by simpa using h)

/-- A text without NUL is printed as it is, in however many pieces. -/
theorem printsLoop_eq (str : List UInt8) (size : Nat) (hsize : size ≤ str.length)
    (hnul : ∀ b ∈ str.take size, b ≠ 0) : printsLoop str size = .done (str.take size) := by
  induction size using Nat.strong_induction_on generalizing str with
  | _ size ih =>
    unfold printsLoop
    by_cases hpos : 0 < size
    · have hlong : ¬ str.length < min 63 size := by omega
      have hhead : ∀ b ∈ str.take (min 63 size), b ≠ 0 := by
        intro b hb
        exact hnul b ((List.take_prefix_take_left (Nat.min_le_right 63 size)).subset hb)
      rw [if_pos hpos, if_neg hlong, debugWrite_terminated _ hhead, Printed.done_andThen]
      by_cases hlast : size ≤ min 63 size
      · have hmin : min 63 size = size := by omega
        rw [if_pos hlast, hmin]
        exact congrArg Printed.done (List.append_nil _)
      · have hmin : min 63 size = 63 := by omega
        have hsplit : str.take size = str.take 63 ++ (str.drop 63).take (size - 63) := by
          rw [← List.take_add]
          congr 1
          omega
        have hrest : ∀ b ∈ (str.drop 63).take (size - 63), b ≠ 0 := by
          intro b hb
          exact hnul b (hsplit ▸ List.mem_append_right _ hb)
        have hlen : size - 63 ≤ (str.drop 63).length := by
          rw [List.length_drop]
          omega
        rw [if_neg hlast, hmin, ih (size - 63) (by omega) (str.drop 63) hlen hrest, hsplit]
        rfl
    · have hzero : size = 0 := by omega
      rw [if_neg hpos, hzero, List.take_zero]

/-- Nothing but the length decides whether `prints` stays in its string. -/
theorem printsLoop_fault (str : List UInt8) (size : Nat) :
    (printsLoop str size).fault = if size ≤ str.length then none else some .readPast := by
  induction size using Nat.strong_induction_on generalizing str with
  | _ size ih =>
    unfold printsLoop
    by_cases hpos : 0 < size
    · by_cases hshort : str.length < min 63 size
      · have hlong : ¬ size ≤ str.length := by omega
        rw [if_pos hpos, if_pos hshort, if_neg hlong]
        rfl
      · have hwrite : (debugWrite (str.take (min 63 size) ++ [0])).fault = none := by
          have h0 : (0 : UInt8) ∈ str.take (min 63 size) ++ [0] := by simp
          rw [debugWrite, if_pos h0]
          rfl
        rw [if_pos hpos, if_neg hshort, Printed.andThen_fault, hwrite, Option.none_or]
        by_cases hlast : size ≤ min 63 size
        · have hlong : size ≤ str.length := by omega
          rw [if_pos hlast, if_pos hlong]
          rfl
        · have hmin : min 63 size = 63 := by omega
          have hiff : size - 63 ≤ (str.drop 63).length ↔ size ≤ str.length := by
            rw [List.length_drop]
            omega
          rw [if_neg hlast, hmin, ih (size - 63) (by omega) (str.drop 63)]
          simp only [hiff]
    · have hzero : size ≤ str.length := by omega
      rw [if_neg hpos, if_pos hzero]
      rfl

/-- What is printed of a text as long as its size says. -/
theorem prints_all (str : List UInt8) (hlen : str.length < 65536) (hnul : ∀ b ∈ str, b ≠ 0) :
    prints str (UInt16.ofNat str.length) = .done str := by
  have hsize : (UInt16.ofNat str.length).toNat = str.length := by
    rw [UInt16.toNat_ofNat']
    omega
  have h := printsLoop_eq str str.length (Nat.le_refl _) (by rwa [List.take_length])
  rw [prints, hsize, h, List.take_length]

end Spec
end StakedaoPlugin.Debug
