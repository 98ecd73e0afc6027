import Mathlib.Data.List.TakeWhile
import Mathlib.Data.Nat.Bitwise

/-!
# Byte strings read by C

C reads a byte string up to its first zero byte. A comparison that always reads all the bytes
collects the bits in which they differ, and compares with zero at the end.
-/

namespace CString

/-- The bytes before the first zero byte. -/
def text (s : List UInt8) : List UInt8 :=
  s.takeWhile (· ≠ 0)

/-- `strlen`. -/
def strlen (s : List UInt8) : ℕ :=
  (text s).length

/-- The bytes of a text that are all in the range of bytes. -/
def ofString (s : String) : List UInt8 :=
  s.toList.map fun c => c.toNat.toUInt8

/-- Without a zero byte, C reads the whole byte string. -/
theorem text_of_notMem {s : List UInt8} (h : 0 ∉ s) :
  text s = s
  := by
  apply List.takeWhile_eq_self_iff.mpr
  intro c hc
  simpa using ne_of_mem_of_not_mem hc h

theorem text_prefix_self (s : List UInt8) :
  text s <+: s
  := List.takeWhile_prefix _

theorem mem_of_mem_text {s : List UInt8} {c : UInt8} (h : c ∈ text s) :
  c ∈ s
  := (text_prefix_self s).subset h

theorem zero_notMem_text (s : List UInt8) :
  0 ∉ text s
  := by
  intro h
  simpa using List.mem_takeWhile_imp h

theorem strlen_le_length (s : List UInt8) :
  strlen s ≤ s.length
  := (text_prefix_self s).length_le

@[simp]
theorem text_cons_zero (s : List UInt8) :
  text (0 :: s) = []
  := by simp [text]

theorem text_cons_of_ne {c : UInt8} (s : List UInt8) (h : c ≠ 0) :
  text (c :: s) = c :: text s
  := by simp [text, h]

/-! ## Comparisons -/

/-- The bits collected over a list are zero if no element adds one. -/
theorem foldl_or_eq_zero {ι : Type} (f : ι → ℕ) (l : List ι) (r : ℕ) :
  l.foldl (fun acc i => acc ||| f i) r = 0 ↔ r = 0 ∧ ∀ i ∈ l, f i = 0
  := by
  induction l generalizing r with
  | nil => simp
  | cons i l ih =>
    rw [List.foldl_cons, ih, Nat.or_eq_zero_iff, List.forall_mem_cons, and_assoc]

/-- The byte at an index, as a number. -/
def byteAt (s : List UInt8) (i : ℕ) : ℕ :=
  (s.getD i 0).toNat

theorem byteAt_eq_iff {s t : List UInt8} {i j : ℕ} (hi : i < s.length) (hj : j < t.length) :
  byteAt s i = byteAt t j ↔ s[i] = t[j]
  := by
  rw [byteAt, byteAt, List.getD_eq_getElem s 0 hi, List.getD_eq_getElem t 0 hj, UInt8.toNat_inj]

/-- Before the first zero byte, the text has the bytes of the byte string. -/
theorem byteAt_text {s : List UInt8} {i : ℕ} (h : i < strlen s) :
  byteAt (text s) i = byteAt s i
  := by
  have hi := lt_of_lt_of_le h (strlen_le_length s)
  exact (byteAt_eq_iff h hi).mpr ((text_prefix_self s).getElem h)

/-- `Turned w s t`: the lengths of `s` and `t` agree in their last `w` bits, and `s` is `t`, over
and over, read backwards from an index below the length of `s`. -/
def Turned (w : ℕ) (s t : List UInt8) : Prop :=
  s ≠ [] ∧ t ≠ [] ∧ s.length % 2 ^ w = t.length % 2 ^ w
    ∧ ∀ i < s.length, byteAt s i = byteAt t ((s.length - 1 - i) % t.length)

end CString
