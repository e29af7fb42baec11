import Mathlib.Data.List.TakeWhile
import Mathlib.Tactic.SplitIfs

/-! C character data: string literals, fixed-size arrays, and output buffers
owned by a caller. Writes outside a buffer are recorded, not forbidden. -/
namespace CMemory

/-- The characters of a string literal, without its terminator. -/
def literal (s : String) : List UInt8 := s.toList.map fun c => UInt8.ofNat c.toNat

/-- What `strlen` and `strlcpy` read: the bytes before the first NUL. -/
def cstr (bs : List UInt8) : List UInt8 := bs.takeWhile (· ≠ 0)

/-- `char a[n] = "..."`. A literal as long as the array drops its terminator. -/
def charArray (n : Nat) (s : String) : Vector UInt8 n :=
  Vector.ofFn fun i => (literal s)[i.val]?.getD 0

/-- `memcpy(dst, &src[off], len)` between two arrays. -/
def arrayCopy {n m : Nat} (dst : Vector UInt8 n) (src : Vector UInt8 m) (off len : Nat) :
    Vector UInt8 n :=
  Vector.ofFn fun i => if i.val < len then src[off + i.val]?.getD 0 else dst[i.val]

theorem arrayCopy_full {n : Nat} (dst src : Vector UInt8 n) : arrayCopy dst src 0 n = src := by
  refine Vector.ext ?_
  intro i hi
  simp [arrayCopy]

theorem cstr_append {s : List UInt8} (t : List UInt8) (h : ∀ b ∈ s, b ≠ 0) :
    cstr (s ++ t) = s ++ cstr t := by
  apply List.takeWhile_append_of_pos
  simpa using h

theorem cstr_eq_self {s : List UInt8} (h : ∀ b ∈ s, b ≠ 0) : cstr s = s := by
  simpa [cstr] using cstr_append [] h

theorem cstr_cons_zero (t : List UInt8) : cstr (0 :: t) = [] := by
  simp [cstr]

theorem mem_cstr {bs : List UInt8} {b : UInt8} (h : b ∈ cstr bs) : b ≠ 0 := by
  simpa using List.mem_takeWhile_imp h

/-- Behind the first NUL nothing is read. -/
theorem cstr_append_of_mem {s : List UInt8} (t : List UInt8) (h : 0 ∈ s) :
    cstr (s ++ t) = cstr s := by
  induction s with
  | nil => simp at h
  | cons b s ih =>
    by_cases hb : b = 0
    · simp [cstr, hb]
    · have ht : 0 ∈ s := by simpa [Ne.symm hb] using h
      simpa [cstr, hb] using ih ht

/-- Only what is read of the rest counts. -/
theorem cstr_append_congr (s : List UInt8) {t u : List UInt8} (h : cstr t = cstr u) :
    cstr (s ++ t) = cstr (s ++ u) := by
  by_cases h0 : 0 ∈ s
  · rw [cstr_append_of_mem t h0, cstr_append_of_mem u h0]
  · have hs : ∀ b ∈ s, b ≠ 0 := by
      rintro b hb rfl
      exact h0 hb
    rw [cstr_append t hs, cstr_append u hs, h]

theorem cstr_eq_self_iff (s : List UInt8) : cstr s = s ↔ 0 ∉ s := by
  constructor
  · intro h h0
    rw [← h] at h0
    exact mem_cstr h0 rfl
  · intro h
    refine cstr_eq_self ?_
    rintro b hb rfl
    exact h hb

theorem cstr_append_zeros (s : List UInt8) (k : Nat) :
    cstr (s ++ List.replicate k 0) = cstr s := by
  cases k with
  | zero => rw [List.replicate_zero, List.append_nil]
  | succ k =>
    have h := cstr_append_congr s (t := 0 :: List.replicate k 0) (u := []) (cstr_cons_zero _)
    rwa [List.append_nil] at h

theorem cstr_take (s : List UInt8) (k : Nat) : cstr (s.take k) = (cstr s).take k :=
  List.take_takeWhile.symm

/-- How a call that may throw ends, with the memory it leaves. -/
inductive Outcome (σ : Type*) where
  | returned (s : σ)
  | thrown (s : σ)
deriving DecidableEq

namespace Outcome
variable {σ τ : Type*}

def state : Outcome σ → σ
  | returned s | thrown s => s

def map (f : σ → τ) : Outcome σ → Outcome τ
  | returned s => returned (f s)
  | thrown s => thrown (f s)

@[simp] theorem state_returned (s : σ) : (returned s).state = s := rfl

@[simp] theorem state_thrown (s : σ) : (thrown s).state = s := rfl

@[simp] theorem map_returned (f : σ → τ) (s : σ) : (returned s).map f = returned (f s) := rfl

@[simp] theorem map_thrown (f : σ → τ) (s : σ) : (thrown s).map f = thrown (f s) := rfl

@[simp] theorem state_map (f : σ → τ) (o : Outcome σ) : (o.map f).state = f o.state := by
  cases o <;> rfl

theorem map_injective {f : σ → τ} (hf : ∀ s t, f s = f t → s = t) {o p : Outcome σ}
    (h : o.map f = p.map f) : o = p := by
  cases o with
  | returned s =>
    cases p with
    | returned t => rw [hf s t (returned.inj h)]
    | thrown t => cases h
  | thrown s =>
    cases p with
    | returned t => cases h
    | thrown t => rw [hf s t (thrown.inj h)]

theorem map_eq_returned {f : σ → τ} {o : Outcome σ} {t : τ} (h : o.map f = returned t) :
    ∃ s, o = returned s ∧ f s = t := by
  cases o with
  | returned s => exact ⟨s, rfl, by simpa using h⟩
  | thrown s => simp at h

end Outcome

/-- A buffer and the length its owner declares, here the number of its bytes.
`stray` records that some write fell outside of it. -/
structure Buffer where
  bytes : List UInt8
  stray : Bool := false
deriving DecidableEq

namespace Buffer

def length (b : Buffer) : Nat := b.bytes.length

def memset (b : Buffer) (v : UInt8) : Buffer :=
  { b with bytes := List.replicate b.length v }

/-- `memcpy(buffer + off, src, |src|)`; what falls outside leaves the bytes alone. -/
def write (b : Buffer) (off : Nat) (src : List UInt8) : Buffer where
  bytes := (b.bytes.take off ++ src ++ b.bytes.drop (off + src.length)).take b.length
  stray := b.stray || decide (0 < src.length ∧ b.length < off + src.length)

/-- `buffer[i] = v` at an `int` index. -/
def poke (b : Buffer) : Int → UInt8 → Buffer
  | .ofNat i, v => b.write i [v]
  | .negSucc _, _ => { b with stray := true }

/-- `strlcpy(buffer, src, length)`. -/
def strlcpy (b : Buffer) (src : List UInt8) : Buffer :=
  if b.length = 0 then b else b.write 0 ((cstr src).take (b.length - 1) ++ [0])

@[simp] theorem length_memset (b : Buffer) (v : UInt8) : (b.memset v).length = b.length := by
  simp [memset, length]

@[simp] theorem length_write (b : Buffer) (off : Nat) (src : List UInt8) :
    (b.write off src).length = b.length := by
  simp only [write, length, List.length_take, List.length_append, List.length_drop]
  omega

@[simp] theorem length_poke (b : Buffer) (i : Int) (v : UInt8) :
    (b.poke i v).length = b.length := by
  cases i with
  | ofNat i => exact length_write b i [v]
  | negSucc i => rfl

theorem write_stray (b : Buffer) (off : Nat) (src : List UInt8) :
    (b.write off src).stray =
      (b.stray || decide (0 < src.length ∧ b.length < off + src.length)) := rfl

theorem stray_write (b : Buffer) (off : Nat) (src : List UInt8)
    (h : off + src.length ≤ b.length) : (b.write off src).stray = b.stray := by
  have hn : ¬ b.length < off + src.length := by omega
  simp [write, hn]

/-- One byte after a write: inside the written range, or as before. -/
theorem getElem?_write (b : Buffer) (off : Nat) (s : List UInt8) (i : Nat) :
    (b.write off s).bytes[i]? =
      if off ≤ i ∧ i < off + s.length ∧ i < b.length then s[i - off]? else b.bytes[i]? := by
  simp only [write, length, List.getElem?_take, List.append_assoc, List.getElem?_append,
    List.length_take, List.getElem?_drop]
  by_cases hi : i < b.bytes.length
  · by_cases ho : i < off
    · have hlt : i < min off b.bytes.length := by omega
      simp [hi, hlt, ho, Nat.not_le.mpr ho]
    · have hle : ¬ i < min off b.bytes.length := by omega
      have hmin : min off b.bytes.length = off := by omega
      by_cases hs : i < off + s.length
      · have hs' : i - off < s.length := by omega
        simp [hi, hmin, ho, hs, hs', Nat.not_lt.mp ho]
      · have hs' : ¬ i - off < s.length := by omega
        have he : off + s.length + (i - off - s.length) = i := by omega
        simp [hi, hmin, ho, hs, hs', he]
  · simp [hi]

/-- Two writes, the second where the first ends, are one write. -/
theorem write_write (b : Buffer) (off : Nat) (s t : List UInt8) :
    (b.write off s).write (off + s.length) t = b.write off (s ++ t) := by
  have hb : ((b.write off s).write (off + s.length) t).bytes = (b.write off (s ++ t)).bytes := by
    refine List.ext_getElem? ?_
    intro i
    simp only [getElem?_write, length_write, List.length_append, List.getElem?_append]
    split_ifs <;> first | rfl | omega | (congr 1; omega)
  have hs : ((b.write off s).write (off + s.length) t).stray = (b.write off (s ++ t)).stray := by
    rw [Bool.eq_iff_iff]
    simp only [write_stray, length_write, List.length_append, Bool.or_eq_true, decide_eq_true_eq]
    cases b.stray with
    | true => simp
    | false =>
      simp only [reduceCtorEq, false_or]
      omega
  calc
    (b.write off s).write (off + s.length) t
        = ⟨((b.write off s).write (off + s.length) t).bytes,
            ((b.write off s).write (off + s.length) t).stray⟩ := rfl
    _ = b.write off (s ++ t) := by rw [hb, hs]

theorem bytes_write_zero (n : Nat) (s : List UInt8) (stray : Bool) (h : s.length ≤ n) :
    (write ⟨List.replicate n 0, stray⟩ 0 s).bytes = s ++ List.replicate (n - s.length) 0 := by
  simp only [write, length, List.take_zero, List.nil_append, List.length_replicate, Nat.zero_add,
    List.drop_replicate]
  rw [List.take_of_length_le]
  simp only [List.length_append, List.length_replicate]
  omega

/-- A terminated text at the start of a zeroed buffer. -/
theorem cstr_write_terminated (n : Nat) (s : List UInt8) (stray : Bool) (h : s.length < n) :
    cstr (write ⟨List.replicate n 0, stray⟩ 0 (s ++ [0])).bytes = cstr s := by
  have hl : (s ++ [0]).length ≤ n := by
    rw [List.length_append, List.length_singleton]
    exact h
  have hz : [0] ++ List.replicate (n - (s ++ [0]).length) 0 =
      List.replicate (n - (s ++ [0]).length + 1) (0 : UInt8) := rfl
  rw [bytes_write_zero n _ stray hl, List.append_assoc, hz, cstr_append_zeros]

theorem poke_pred (b : Buffer) (k : Nat) (v : UInt8) (h : 1 ≤ k) :
    b.poke ((k : Int) - 1) v = b.write (k - 1) [v] := by
  have hk : (k : Int) - 1 = Int.ofNat (k - 1) := by
    rw [Int.ofNat_eq_natCast]
    omega
  rw [hk]
  rfl

/-- A write from the start into a zeroed buffer, its last byte then set to NUL:
the string read back is cut to `length - 1`, also when the write ran over. -/
theorem cstr_write_poke (n : Nat) (s : List UInt8) (stray : Bool) (h : 1 ≤ n) :
    cstr ((write ⟨List.replicate n 0, stray⟩ 0 s).poke ((n : Int) - 1) 0).bytes =
      (cstr s).take (n - 1) := by
  have hb : ((write ⟨List.replicate n 0, stray⟩ 0 s).poke ((n : Int) - 1) 0).bytes =
      s.take (n - 1) ++ List.replicate (n - min (n - 1) s.length) 0 := by
    rw [poke_pred _ n 0 h]
    refine List.ext_getElem? fun i => ?_
    have hlen : length ⟨List.replicate n 0, stray⟩ = n := List.length_replicate
    simp only [getElem?_write, length_write, hlen, List.getElem?_append, List.length_take,
      List.getElem?_take, List.getElem?_replicate, List.length_singleton, Nat.zero_le, true_and,
      Nat.zero_add, Nat.sub_zero]
    grind
  obtain ⟨k, hk⟩ : ∃ k, n - min (n - 1) s.length = k + 1 :=
    ⟨n - min (n - 1) s.length - 1, by omega⟩
  have h0 : (0 : UInt8) ∈ s.take (n - 1) ++ List.replicate (k + 1) 0 := by simp
  rw [hb, hk, ← cstr_take]
  by_cases hz : 0 ∈ s.take (n - 1)
  · exact cstr_append_of_mem _ hz
  · have hs : ∀ b ∈ s.take (n - 1), b ≠ 0 := by
      rintro b hb rfl
      exact hz hb
    rw [cstr_append _ hs, List.replicate_succ, cstr_cons_zero, List.append_nil, cstr_eq_self hs]

theorem stray_write_poke (n : Nat) (s : List UInt8) (stray : Bool) (h : 1 ≤ n) :
    ((write ⟨List.replicate n 0, stray⟩ 0 s).poke ((n : Int) - 1) 0).stray =
      (stray || decide (n < s.length)) := by
  have hn : ¬ n < n - 1 + 1 := by omega
  rw [poke_pred _ n 0 h, write_stray, write_stray]
  have hlen : length ⟨List.replicate n 0, stray⟩ = n := List.length_replicate
  simp only [length_write, hlen, List.length_singleton, hn]
  by_cases hs : n < s.length
  · have h0 : 0 < s.length := by omega
    simp [hs, h0]
  · simp [hs]

theorem strlcpy_congr (b : Buffer) {s t : List UInt8} (h : cstr s = cstr t) :
    b.strlcpy s = b.strlcpy t := by
  simp only [strlcpy, h]

theorem stray_strlcpy (b : Buffer) (src : List UInt8) : (b.strlcpy src).stray = b.stray := by
  unfold strlcpy
  split
  · rfl
  · next h =>
    refine stray_write b 0 _ ?_
    simp only [List.length_append, List.length_take, List.length_singleton]
    omega

theorem length_strlcpy (b : Buffer) (src : List UInt8) : (b.strlcpy src).length = b.length := by
  unfold strlcpy
  split
  · rfl
  · exact length_write b 0 _

theorem bytes_write_head (b : Buffer) (src : List UInt8) (h : src.length ≤ b.length) :
    (b.write 0 src).bytes = src ++ b.bytes.drop src.length := by
  simp only [write, length] at h ⊢
  rw [List.take_zero, List.nil_append, Nat.zero_add, List.take_of_length_le]
  rw [List.length_append, List.length_drop]
  omega

/-- `strlcpy` terminates whatever the buffer held before. -/
theorem cstr_strlcpy_over (b : Buffer) (src : List UInt8) :
    cstr (b.strlcpy src).bytes = (cstr src).take (b.length - 1) := by
  unfold strlcpy
  split
  · next h =>
    have hnil : b.bytes = [] := List.eq_nil_of_length_eq_zero h
    simp [hnil, h, cstr]
  · next h =>
    have hz : ∀ c ∈ (cstr src).take (b.length - 1), c ≠ 0 := by
      intro c hc
      exact mem_cstr (List.mem_of_mem_take hc)
    have hl : ((cstr src).take (b.length - 1) ++ [0]).length ≤ b.length := by
      simp only [List.length_append, List.length_take, List.length_singleton]
      omega
    rw [bytes_write_head b _ hl, List.append_assoc, cstr_append _ hz, List.singleton_append,
      cstr_cons_zero, List.append_nil]

/-- `strlcpy` into a zeroed buffer shows the source cut to `length - 1`. -/
theorem cstr_strlcpy (b : Buffer) (src : List UInt8) :
    cstr ((b.memset 0).strlcpy src).bytes = (cstr src).take (b.length - 1) := by
  rw [cstr_strlcpy_over, length_memset]

end Buffer
end CMemory
