import BmcAccount.Lib.Fields

/-!
# Whole numbers of Lua

`tonumber` reads decimal digits as an integer of 64 bits if there is one, and as a floating-point
number of 53 bits otherwise. Texts of other numerals are not here. `tostring` writes an integer
with all its digits, and a floating-point number with fourteen of them: so exactly the integers of
64 bits are written as they have been read.
-/

namespace LuaNumber

/-- The digits of an integer. -/
def intText : ℤ → List Char
  | .ofNat n => Nat.toDigits 10 n
  | .negSucc n => '-' :: Nat.toDigits 10 (n + 1)

/-- An integer of 64 bits. -/
def IsInteger (n : ℤ) : Prop :=
  -2 ^ 63 ≤ n ∧ n < 2 ^ 63

instance (n : ℤ) : Decidable (IsInteger n) :=
  inferInstanceAs (Decidable (_ ∧ _))

/-- A number: a floating-point number is here a whole one, by its sign and size, or an infinite
one. -/
inductive Number where
  | integer (n : ℤ)
  | float (neg : Bool) (size : Option ℕ)
deriving DecidableEq

/-- A quotient, rounded to the nearest whole number, and to an even one in the middle. -/
def roundQuot (n d : ℕ) : ℕ :=
  if 2 * (n % d) < d ∨ (2 * (n % d) = d ∧ n / d % 2 = 0) then n / d else n / d + 1

/-- The nearest floating-point number, if it is finite. -/
def toDouble (n : ℕ) : Option ℕ :=
  let unit := 2 ^ (Nat.log2 n - 52)
  if roundQuot n unit * unit < 2 ^ 1024 then some (roundQuot n unit * unit) else none

/-- The number with the given sign and digits. -/
def ofDigits (neg : Bool) (ds : List Char) : Number :=
  let n : ℤ := if neg then -(Fields.number ds : ℤ) else Fields.number ds
  if IsInteger n then .integer n else .float neg (toDouble (Fields.number ds))

/-- `tonumber`, of decimal digits that may have a sign. -/
def tonumber (s : List Char) : Option Number :=
  let neg := s.head? = some '-'
  let ds := if neg then s.tail else s
  if ds ≠ [] ∧ ds.all Char.isDigit then some (ofDigits neg ds) else none

/-- The digits after the point, if there are any but zeros. -/
def fraction (ds : List Char) : List Char :=
  let ds := ds.rdropWhile (· = '0')
  if ds = [] then [] else '.' :: ds

/-- A whole number with fourteen digits, and marked as a floating-point number. -/
def floatText (n : ℕ) : List Char :=
  let ds := Nat.toDigits 10 n
  if ds.length ≤ 14 then ds ++ ['.', '0']
  else
    let q := roundQuot n (10 ^ (ds.length - 14))
    -- rounding up may give one digit more
    let mantissa := Nat.toDigits 10 (if q = 10 ^ 14 then 10 ^ 13 else q)
    let exponent := if q = 10 ^ 14 then ds.length else ds.length - 1
    mantissa.take 1 ++ fraction (mantissa.drop 1) ++ ['e', '+'] ++ Nat.toDigits 10 exponent

/-- `tostring`. -/
def tostring : Number → List Char
  | .integer n => intText n
  | .float neg size =>
    (if neg then ['-'] else []) ++ match size with
      | some n => floatText n
      | none => ['i', 'n', 'f']

example : (tonumber "9223372036854775807".toList).map tostring
    = some "9223372036854775807".toList := by decide +kernel
example : (tonumber "9223372036854775808".toList).map tostring
    = some "9.2233720368548e+18".toList := by decide +kernel

/-! ## What is written as it has been read -/

theorem isDigit_of_mem_toDigits {n : ℕ} {c : Char} (h : c ∈ Nat.toDigits 10 n) :
  c.isDigit = true
  :=
  Nat.isDigit_of_mem_toDigits (by decide) (by decide) h

theorem mem_intText {n : ℤ} {c : Char} (h : c ∈ intText n) :
  c = '-' ∨ c.isDigit = true
  := by
  cases n with
  | ofNat n => exact .inr (isDigit_of_mem_toDigits h)
  | negSucc n =>
    rcases List.mem_cons.mp h with hc | hc
    · exact .inl hc
    · exact .inr (isDigit_of_mem_toDigits hc)

theorem intText_injective :
  Function.Injective intText
  := by
  have hdigits {m n : ℕ} (h : Nat.toDigits 10 m = Nat.toDigits 10 n) : m = n := by
    rw [← Nat.ofDigitChars_ten_toDigits (n := m), h, Nat.ofDigitChars_ten_toDigits]
  have hminus (m n : ℕ) : Nat.toDigits 10 m ≠ '-' :: Nat.toDigits 10 n := fun h =>
    absurd (isDigit_of_mem_toDigits (by rw [h]; exact List.mem_cons_self)) (by decide)
  intro m n h
  cases m with
  | ofNat m =>
    cases n with
    | ofNat n => rw [hdigits h]
    | negSucc n => exact absurd h (hminus m (n + 1))
  | negSucc m =>
    cases n with
    | ofNat n => exact absurd h.symm (hminus n (m + 1))
    | negSucc n => rw [Nat.succ_injective (hdigits (List.cons.inj h).2)]

theorem intText_ne_nil (n : ℤ) :
  intText n ≠ []
  := by
  cases n with
  | ofNat n => exact Nat.toDigits_ne_nil
  | negSucc n => exact List.cons_ne_nil _ _

/-- The digits of an integer are read as it, as far as there are integers. -/
theorem tonumber_intText (n : ℤ) :
  ∃ neg size, tonumber (intText n) = some (if IsInteger n then .integer n else .float neg size)
  := by
  have hnumber (m : ℕ) : Fields.number (Nat.toDigits 10 m) = m := Nat.ofDigitChars_ten_toDigits
  have hall (m : ℕ) : (Nat.toDigits 10 m).all Char.isDigit = true :=
    List.all_eq_true.mpr fun _ => isDigit_of_mem_toDigits
  cases n with
  | ofNat n =>
    have hhead : (Nat.toDigits 10 n).head? ≠ some '-' := by
      intro h
      exact absurd (isDigit_of_mem_toDigits (List.mem_of_head? h)) (by decide)
    refine ⟨false, toDouble n, ?_⟩
    simp only [tonumber, intText, hhead, decide_false, if_false]
    rw [if_pos ⟨Nat.toDigits_ne_nil, hall n⟩, ofDigits, hnumber]
    simp
  | negSucc n =>
    refine ⟨true, toDouble (n + 1), ?_⟩
    simp only [tonumber, intText, List.head?_cons, decide_true, if_true, List.tail_cons]
    rw [if_pos ⟨Nat.toDigits_ne_nil, hall (n + 1)⟩, ofDigits, hnumber]
    simp [Int.negSucc_eq]

/-- A floating-point number is not written like an integer. -/
theorem exists_mem_tostring_float (neg : Bool) (size : Option ℕ) :
  ∃ c ∈ tostring (.float neg size), c ≠ '-' ∧ c.isDigit = false
  := by
  cases size with
  | none => exact ⟨'i', by simp [tostring], by decide, by decide⟩
  | some n =>
    by_cases hlen : (Nat.toDigits 10 n).length ≤ 14
    · exact ⟨'.', by simp [tostring, floatText, hlen], by decide, by decide⟩
    · exact ⟨'e', by simp [tostring, floatText, hlen], by decide, by decide⟩

/-- The characters of a number. -/
theorem mem_tostring {x : Number} {c : Char} (h : c ∈ tostring x) :
  c.isDigit = true ∨ c ∈ ['-', '.', 'e', '+', 'i', 'n', 'f']
  := by
  have hsign {n : ℤ} (h : c ∈ intText n) :
      c.isDigit = true ∨ c ∈ ['-', '.', 'e', '+', 'i', 'n', 'f'] := by
    rcases mem_intText h with rfl | hc
    · exact .inr (by decide)
    · exact .inl hc
  have hfraction {ds : List Char} (hds : ∀ d ∈ ds, d.isDigit = true) (h : c ∈ fraction ds) :
      c.isDigit = true ∨ c = '.' := by
    simp only [fraction] at h
    split at h
    · simp at h
    · rcases List.mem_cons.mp h with hc | hc
      · exact .inr hc
      · exact .inl (hds c ((List.rdropWhile_prefix _ _).subset hc))
  have hfloat {n : ℕ} (h : c ∈ floatText n) : c.isDigit = true ∨ c ∈ ['.', 'e', '+'] := by
    have hdigit {m : ℕ} (h : c ∈ Nat.toDigits 10 m) : c.isDigit = true := isDigit_of_mem_toDigits h
    simp only [floatText] at h
    split at h
    · rcases List.mem_append.mp h with hc | hc
      · exact .inl (hdigit hc)
      · simp only [List.mem_cons, List.not_mem_nil, or_false] at hc
        rcases hc with rfl | rfl
        · exact .inr (by decide)
        · exact .inl (by decide)
    · simp only [List.mem_append] at h
      rcases h with ((hc | hc) | hc) | hc
      · exact .inl (hdigit (List.mem_of_mem_take hc))
      · rcases hfraction (fun d hd => isDigit_of_mem_toDigits (List.mem_of_mem_drop hd)) hc with
          hc | rfl
        · exact .inl hc
        · exact .inr (by decide)
      · exact .inr (List.mem_cons_of_mem _ hc)
      · exact .inl (hdigit hc)
  cases x with
  | integer n => exact hsign h
  | float neg size =>
    simp only [tostring, List.mem_append] at h
    rcases h with hc | hc
    · split at hc
      · rw [List.mem_singleton.mp hc]
        exact .inr (by decide)
      · simp at hc
    · cases size with
      | none =>
        right
        simp only [List.mem_cons, List.not_mem_nil, or_false] at hc ⊢
        tauto
      | some n =>
        rcases hfloat hc with hc | hc
        · exact .inl hc
        · right
          simp only [List.mem_cons, List.not_mem_nil, or_false] at hc ⊢
          tauto

/-- Exactly the integers of 64 bits are written as they have been read. -/
theorem tostring_tonumber_iff (n : ℤ) :
  (tonumber (intText n)).map tostring = some (intText n) ↔ IsInteger n
  := by
  obtain ⟨neg, size, hread⟩ := tonumber_intText n
  rw [hread, Option.map_some, Option.some_inj]
  split_ifs with h
  · simp [h, tostring]
  · simp only [h, iff_false]
    intro heq
    obtain ⟨c, hc, hminus, hdigit⟩ := exists_mem_tostring_float neg size
    rw [heq] at hc
    rcases mem_intText hc with rfl | hc
    · exact hminus rfl
    · rw [hc] at hdigit
      cases hdigit

end LuaNumber
