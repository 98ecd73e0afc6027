import Mathlib.Data.List.Infix
import BmcAccount.Lib.CString

/-!
# Texts in bounded buffers

The functions of a bounds checking C library that print into a buffer cut what they print, so
that the zero byte at its end still fits. Texts that are appended one after the other are cut as
their concatenation is.
-/

namespace CBuffer

/-- What `snprintf_s` and `snprintf_truncated_s` leave of a text in a buffer of `size` bytes. -/
def printed (size : ℕ) (s : List UInt8) : List UInt8 :=
  s.take (size - 1)

/-- The buffer of `size` bytes after a text was printed behind what it held. -/
def appended (size : ℕ) (out s : List UInt8) : List UInt8 :=
  out ++ printed (size - out.length) s

theorem printed_of_lt {size : ℕ} {s : List UInt8} (h : s.length < size) :
  printed size s = s
  := List.take_of_length_le (by omega)

/-- Printing behind a text cuts as printing both at once does. -/
theorem appended_printed {size : ℕ} (s t : List UInt8) :
  appended size (printed size s) t = printed size (s ++ t)
  := by
  rw [appended, printed, printed, printed, List.take_append, List.length_take]
  congr 2
  omega

/-- Printing texts one after the other cuts as printing all of them at once does. -/
theorem foldl_appended {size : ℕ} (s : List UInt8) (pieces : List (List UInt8)) :
  pieces.foldl (appended size) (printed size s) = printed size (s ++ pieces.flatten)
  := by
  induction pieces generalizing s with
  | nil => simp
  | cons t pieces ih =>
    rw [List.foldl_cons, appended_printed, ih, List.flatten_cons, List.append_assoc]

/-- Texts that are printed one after the other into an empty buffer. -/
theorem foldl_appended_nil {size : ℕ} (pieces : List (List UInt8)) :
  pieces.foldl (appended size) [] = printed size pieces.flatten
  := by
  have h := @foldl_appended size [] pieces
  rwa [List.nil_append, show printed size [] = [] from List.take_nil] at h

/-! ## Lists with separators -/

/-- The tokens that `strtok_s` finds one after the other: what stands between separators, without
what is empty. -/
def tokens (sep : UInt8) (s : List UInt8) : List (List UInt8) :=
  (s.splitOn sep).filter (· ≠ [])

/-- The tokens of a list with separators are its elements. -/
theorem tokens_intercalate {sep : UInt8} {pieces : List (List UInt8)}
    (hne : ∀ t ∈ pieces, t ≠ []) (hsep : ∀ t ∈ pieces, sep ∉ t) :
  tokens sep ([sep].intercalate pieces) = pieces
  := by
  rcases eq_or_ne pieces [] with rfl | hpieces
  · rfl
  · rw [tokens, List.splitOn_intercalate sep hsep hpieces, List.filter_eq_self]
    intro t ht
    simpa using hne t ht

theorem mem_intercalate {sep c : UInt8} {pieces : List (List UInt8)}
    (h : c ∈ [sep].intercalate pieces) :
  c = sep ∨ ∃ t ∈ pieces, c ∈ t
  := by
  induction pieces with
  | nil => simp at h
  | cons t pieces ih =>
    rcases pieces with _ | ⟨u, pieces⟩
    · simpa using Or.inr h
    · rw [List.intercalate_cons_cons] at h
      rcases List.mem_append.mp h with h | h
      · rcases List.mem_append.mp h with h | h
        · exact Or.inr ⟨t, by simp, h⟩
        · exact Or.inl (by simpa using h)
      · rcases ih h with hsep | ⟨v, hv, hc⟩
        · exact Or.inl hsep
        · exact Or.inr ⟨v, by simp [hv], hc⟩

/-- With a separator behind each element there is one more at the end. -/
theorem flatten_map_concat {sep : UInt8} {pieces : List (List UInt8)} (h : pieces ≠ []) :
  (pieces.map (· ++ [sep])).flatten = [sep].intercalate pieces ++ [sep]
  := by
  induction pieces with
  | nil => contradiction
  | cons t pieces ih =>
    rcases pieces with _ | ⟨u, pieces⟩
    · simp
    · rw [List.map_cons, List.flatten_cons, ih (by simp)]
      simp [List.intercalate_cons_cons]

/-- The last separator can be taken away again exactly if it was printed. -/
theorem dropLast_printed_concat_iff {size : ℕ} (s : List UInt8) (c : UInt8) (h : 1 < size) :
  (printed size (s ++ [c])).dropLast = s ↔ s.length + 1 < size
  := by
  constructor
  · intro heq
    have hlen := congrArg List.length heq
    rw [List.length_dropLast, printed, List.length_take, List.length_append,
      List.length_singleton] at hlen
    omega
  · intro hlt
    rw [printed_of_lt (by simpa using hlt), List.dropLast_concat]

/-! ## Comparisons without case -/

/-- `tolower`. -/
def lower (c : UInt8) : UInt8 :=
  if 65 ≤ c ∧ c ≤ 90 then c + 32 else c

/-- `strcasecmp` finds no difference. -/
def SameText (s t : List UInt8) : Prop :=
  s.map lower = t.map lower

instance (s t : List UInt8) : Decidable (SameText s t) :=
  inferInstanceAs (Decidable (_ = _))

theorem SameText.length_eq {s t : List UInt8} (h : SameText s t) :
  s.length = t.length
  := by simpa using congrArg List.length h

theorem SameText.append {s s' t t' : List UInt8} (h : SameText s s') (h' : SameText t t') :
  SameText (s ++ t) (s' ++ t')
  := by rw [SameText, List.map_append, List.map_append, h, h']

/-- Only a letter becomes a letter. -/
theorem lower_eq_iff {c d : UInt8} (h : d < 65 ∨ 90 < d ∧ d < 97 ∨ 122 < d) :
  lower c = d ↔ c = d
  := by
  have hlower : (lower c).toNat
      = if 65 ≤ c.toNat ∧ c.toNat ≤ 90 then c.toNat + 32 else c.toNat := by
    rw [lower]
    split
    · rename_i hc
      have hlow := UInt8.le_iff_toNat_le.mp hc.1
      have hhigh := UInt8.le_iff_toNat_le.mp hc.2
      simp at hlow hhigh
      simp [hlow, hhigh]
      omega
    · rename_i hc
      rw [UInt8.le_iff_toNat_le, UInt8.le_iff_toNat_le] at hc
      rw [if_neg (by simpa using hc)]
  simp only [UInt8.lt_iff_toNat_lt] at h
  rw [← UInt8.toNat_inj, ← UInt8.toNat_inj, hlower]
  simp at h
  split <;> omega

/-- `strcasestr` finds the second text in the first one. -/
def strcasestr (s t : List UInt8) : Bool :=
  t.map lower <:+: s.map lower

theorem strcasestr_of_sameText {s t u : List UInt8} (ht : t <:+: s) (h : SameText t u) :
  strcasestr s u
  := by
  rw [strcasestr, decide_eq_true_iff, ← h]
  exact ht.map lower

end CBuffer
