import Mathlib

/-!
# Decimal fields between separators

Dates, times and the like are texts of decimal fields between separating characters.
`joinWith seps fs` is the text of the fields `fs` with the separators `seps` between them.
There are two ways to read such a text. `capture` reads fields of fixed widths, as a pattern
of digit classes does, and `scanInts` reads integers of any width, as the conversions of
`sscanf` do. The text of digit fields is read by both, with the same numbers.
-/

namespace Fields

/-- The number that a string of decimal digits denotes. -/
def number (s : List Char) : ℕ :=
  Nat.ofDigitChars 10 s 0

/-- The decimal form of `n`, with zeros in front up to the width `w`. -/
def padded (w n : ℕ) : List Char :=
  List.replicate (w - (Nat.toDigits 10 n).length) '0' ++ Nat.toDigits 10 n

theorem length_padded {w n : ℕ} (hw : 0 < w) (h : n < 10 ^ w) :
  (padded w n).length = w
  := by
  have hle : (Nat.toDigits 10 n).length ≤ w :=
    (Nat.length_toDigits_le_iff (by decide) hw).mpr h
  rw [padded, List.length_append, List.length_replicate]
  omega

@[simp]
theorem number_padded (w n : ℕ) :
  number (padded w n) = n
  := by
  unfold number padded
  rw [Nat.ofDigitChars_append, Nat.ofDigitChars_replicate_zero, Nat.mul_zero,
    Nat.ofDigitChars_ten_toDigits]

/-- A number in its own width after other digits. -/
theorem number_append_padded {w n : ℕ} (s : List Char) (hw : 0 < w) (h : n < 10 ^ w) :
  number (s ++ padded w n) = 10 ^ w * number s + n
  := by
  have hn := number_padded w n
  unfold number at hn ⊢
  rw [Nat.ofDigitChars_append, Nat.ofDigitChars_eq_ofDigitChars_zero, length_padded hw h, hn]

theorem number_lt {s : List Char} (h : ∀ c ∈ s, c.isDigit = true) :
  number s < 10 ^ s.length
  := by
  induction s with
  | nil => decide
  | cons c s ih =>
    have hc : c.toNat - '0'.toNat ≤ 9 := by
      have hd := h c List.mem_cons_self
      simp only [Char.isDigit, Bool.and_eq_true, decide_eq_true_eq, ge_iff_le,
        UInt32.le_iff_toNat_le] at hd
      have hle : c.toNat ≤ 57 := hd.2
      have h0 : '0'.toNat = 48 := rfl
      omega
    have ih := ih fun c hc => h c (List.mem_cons_of_mem _ hc)
    unfold number at ih ⊢
    rw [Nat.ofDigitChars_cons, Nat.ofDigitChars_eq_ofDigitChars_zero, List.length_cons,
      Nat.pow_succ, Nat.mul_zero, Nat.zero_add]
    have hmul := Nat.mul_le_mul_left (10 ^ s.length) hc
    omega

theorem number_cons (c : Char) (s : List Char) :
  number (c :: s) = 10 ^ s.length * (c.toNat - '0'.toNat) + number s
  := by
  unfold number
  rw [Nat.ofDigitChars_cons, Nat.ofDigitChars_eq_ofDigitChars_zero, Nat.mul_zero, Nat.zero_add]

/-- Digits in a given width are determined by their number. -/
theorem number_inj {s t : List Char} (hlen : s.length = t.length)
    (hs : ∀ c ∈ s, c.isDigit = true) (ht : ∀ c ∈ t, c.isDigit = true)
    (h : number s = number t) :
  s = t
  := by
  induction s generalizing t with
  | nil => exact (List.length_eq_zero_iff.mp hlen.symm).symm
  | cons c s ih =>
    cases t with
    | nil => simp at hlen
    | cons d t =>
      replace hlen : s.length = t.length := Nat.succ.inj hlen
      rw [List.forall_mem_cons] at hs ht
      have hslt := number_lt hs.2
      have htlt := number_lt ht.2
      rw [hlen] at hslt
      rw [number_cons, number_cons, hlen] at h
      have hpos : 0 < 10 ^ t.length := Nat.pow_pos (by decide)
      have hdiv := congrArg (· / 10 ^ t.length) h
      simp only [Nat.mul_add_div hpos, Nat.div_eq_of_lt hslt, Nat.div_eq_of_lt htlt,
        Nat.add_zero] at hdiv
      have hcd : c = d := by
        have hc := hs.1
        have hd := ht.1
        simp only [Char.isDigit, Bool.and_eq_true, decide_eq_true_eq, ge_iff_le,
          UInt32.le_iff_toNat_le] at hc hd
        apply Char.toNat_inj.mp
        have hc0 : 48 ≤ c.toNat := hc.1
        have hd0 : 48 ≤ d.toNat := hd.1
        have h0 : '0'.toNat = 48 := rfl
        omega
      subst hcd
      rw [ih hlen hs.2 ht.2 (Nat.add_left_cancel h)]

theorem isDigit_padded {w n : ℕ} {c : Char} (h : c ∈ padded w n) :
  c.isDigit = true
  := by
  rcases List.mem_append.mp h with h | h
  · rw [List.eq_of_mem_replicate h]
    rfl
  · exact Nat.isDigit_of_mem_toDigits (by decide) (by decide) h

/-- Digits are the decimal form of their number, in their own width. -/
theorem padded_number {s : List Char} (hne : s ≠ []) (hs : ∀ c ∈ s, c.isDigit = true) :
  padded s.length (number s) = s
  := number_inj (length_padded (List.length_pos_iff.mpr hne) (number_lt hs))
    (fun _ => isDigit_padded) hs (number_padded _ _)

/-! ## Numbers compared digit by digit -/

/-- The number with the leading part `n` and then the given digits, to the base `B`. -/
def horner (B n : ℕ) (ds : List ℕ) : ℕ :=
  ds.foldl (fun n d => B * n + d) n

/-- The first difference decides. -/
def LexLe : List ℕ → List ℕ → Prop
  | a :: as, b :: bs => a < b ∨ a = b ∧ LexLe as bs
  | _, _ => True

theorem horner_le_iff {B x y : ℕ} {as bs : List ℕ} (hlen : as.length = bs.length)
    (ha : ∀ a ∈ as, a < B) (hb : ∀ b ∈ bs, b < B) :
  horner B x as ≤ horner B y bs ↔ LexLe (x :: as) (y :: bs)
  := by
  induction as generalizing x y bs with
  | nil =>
    obtain rfl := List.length_eq_zero_iff.mp hlen.symm
    simp only [horner, List.foldl_nil, LexLe, and_true]
    omega
  | cons a as ih =>
    cases bs with
    | nil => simp at hlen
    | cons b bs =>
      have haB := ha a List.mem_cons_self
      have hbB := hb b List.mem_cons_self
      have hdigit : (B * x + a < B * y + b ↔ x < y ∨ x = y ∧ a < b)
          ∧ (B * x + a = B * y + b ↔ x = y ∧ a = b) := by
        rcases Nat.lt_trichotomy x y with h | rfl | h
        · have := Nat.mul_le_mul_left B h
          rw [Nat.mul_succ] at this
          omega
        · omega
        · have := Nat.mul_le_mul_left B h
          rw [Nat.mul_succ] at this
          omega
      have ih := ih (x := B * x + a) (y := B * y + b) (by simpa using hlen)
        (fun a h => ha a (List.mem_cons_of_mem _ h)) (fun b h => hb b (List.mem_cons_of_mem _ h))
      simp only [horner, List.foldl_cons, LexLe] at ih ⊢
      rw [ih, hdigit.1, hdigit.2, and_or_left, or_assoc, and_assoc]

/-- Where there are as many digits on both sides, the first difference decides as it does for
lists. -/
theorem lexLe_iff_le {as bs : List ℕ} (h : as.length = bs.length) :
  LexLe as bs ↔ as ≤ bs
  := by
  induction as generalizing bs with
  | nil => simp [LexLe, ← not_lt]
  | cons a as ih =>
    cases bs with
    | nil => simp at h
    | cons b bs =>
      rw [LexLe, ih (Nat.succ.inj h), ← not_lt, ← not_lt, List.cons_lt_cons_iff]
      by_cases hlt : bs < as <;> simp [hlt] <;> omega

/-! ## Texts of fields -/

/-- The fields `fs` with the separators `seps` between them. -/
def joinWith : List Char → List (List Char) → List Char
  | c :: seps, f :: fs => f ++ c :: joinWith seps fs
  | [], f :: _ => f
  | _, [] => []

/-- The fields that are read off a text: digits, in the given widths. -/
structure DigitFields (widths : List ℕ) (fs : List (List Char)) : Prop where
  widths_eq : fs.map List.length = widths
  isDigit : ∀ f ∈ fs, ∀ c ∈ f, c.isDigit = true

/-- Fields of which it can be computed that all characters are digits. -/
theorem DigitFields.of_all {ws : List ℕ} {fs : List (List Char)} (h : fs.map List.length = ws)
    (hd : (fs.all fun f => f.all Char.isDigit) = true) :
  DigitFields ws fs
  where
  widths_eq := h
  isDigit f hf c hc := List.all_eq_true.mp (List.all_eq_true.mp hd f hf) c hc

theorem DigitFields.append {ws ws' : List ℕ} {fs fs' : List (List Char)}
    (h : DigitFields ws fs) (h' : DigitFields ws' fs') :
  DigitFields (ws ++ ws') (fs ++ fs')
  := by
  refine ⟨by rw [List.map_append, h.widths_eq, h'.widths_eq], ?_⟩
  intro f hf
  rcases List.mem_append.mp hf with hf | hf
  · exact h.isDigit f hf
  · exact h'.isDigit f hf

theorem DigitFields.number_lt {ws : List ℕ} {fs : List (List Char)} (h : DigitFields ws fs)
    {f : List Char} (hf : f ∈ fs) :
  number f < 10 ^ f.length
  :=
  Fields.number_lt (h.isDigit f hf)

/-- The first `w` characters of a text, when there are as many and all are digits. -/
def digits : ℕ → List Char → Option (List Char × List Char)
  | 0, s => some ([], s)
  | _ + 1, [] => none
  | w + 1, c :: s =>
    if c.isDigit then (digits w s).map fun p => (c :: p.1, p.2) else none

/-- The character `c` at the front of a text. -/
def lit (c : Char) : List Char → Option (List Char)
  | [] => none
  | d :: s => if d = c then some s else none

/-- Fields of digits at the front of a text: one of width `w`, and then for each `(c, w')`
the separator `c` and a field of width `w'`. -/
def capture : ℕ → List (Char × ℕ) → List Char → Option (List (List Char) × List Char)
  | w, [], s => (digits w s).map fun p => ([p.1], p.2)
  | w, (c, w') :: ws, s =>
    (digits w s).bind fun p => (lit c p.2).bind fun s' =>
      (capture w' ws s').map fun q => (p.1 :: q.1, q.2)

theorem digits_eq_some {w : ℕ} {s f r : List Char} (h : digits w s = some (f, r)) :
  s = f ++ r ∧ f.length = w ∧ ∀ c ∈ f, c.isDigit = true
  := by
  induction w generalizing s f with
  | zero =>
    simp only [digits, Option.some.injEq, Prod.mk.injEq] at h
    obtain ⟨rfl, rfl⟩ := h
    simp
  | succ w ih =>
    cases s with
    | nil => simp [digits] at h
    | cons c s =>
      simp only [digits] at h
      split at h
      case isFalse => simp at h
      case isTrue hc =>
        simp only [Option.map_eq_some_iff, Prod.mk.injEq, Prod.exists] at h
        obtain ⟨f', r', hd, rfl, rfl⟩ := h
        obtain ⟨rfl, rfl, hf⟩ := ih hd
        refine ⟨rfl, rfl, ?_⟩
        simpa [hc] using hf

theorem lit_eq_some {c : Char} {s r : List Char} (h : lit c s = some r) :
  s = c :: r
  := by
  cases s with
  | nil => simp [lit] at h
  | cons d s =>
    simp only [lit] at h
    split at h
    case isFalse => simp at h
    case isTrue hd =>
      simp only [Option.some.injEq] at h
      rw [hd, h]

theorem capture_eq_some {w : ℕ} {ws : List (Char × ℕ)} {s r : List Char}
    {fs : List (List Char)} (h : capture w ws s = some (fs, r)) :
  s = joinWith (ws.map Prod.fst) fs ++ r ∧ DigitFields (w :: ws.map Prod.snd) fs
  := by
  induction ws generalizing w s fs with
  | nil =>
    simp only [capture, Option.map_eq_some_iff, Prod.mk.injEq, Prod.exists] at h
    obtain ⟨f, r', hd, rfl, rfl⟩ := h
    obtain ⟨rfl, rfl, hf⟩ := digits_eq_some hd
    exact ⟨by simp [joinWith], by simp, by simpa using hf⟩
  | cons cw ws ih =>
    obtain ⟨c, w'⟩ := cw
    simp only [capture, Option.bind_eq_some_iff, Option.map_eq_some_iff, Prod.mk.injEq,
      Prod.exists] at h
    obtain ⟨f, s₁, hd, s₂, hl, gs, r', hc, rfl, rfl⟩ := h
    obtain ⟨rfl, rfl, hf⟩ := digits_eq_some hd
    obtain rfl := lit_eq_some hl
    obtain ⟨rfl, hgs⟩ := ih hc
    refine ⟨by simp [joinWith], ?_, ?_⟩
    · simp [hgs.widths_eq]
    · simpa using ⟨hf, hgs.isDigit⟩

theorem digits_append {f : List Char} (hf : ∀ c ∈ f, c.isDigit = true) (r : List Char) :
  digits f.length (f ++ r) = some (f, r)
  := by
  induction f with
  | nil => rfl
  | cons c f ih =>
    rw [List.forall_mem_cons] at hf
    simp only [List.length_cons, List.cons_append, digits, hf.1, if_true, ih hf.2, Option.map_some]

/-- Fields of the widths of a pattern are captured by it. -/
theorem capture_joinWith {w : ℕ} {ws : List (Char × ℕ)} {fs : List (List Char)}
    (h : DigitFields (w :: ws.map Prod.snd) fs) (r : List Char) :
  capture w ws (joinWith (ws.map Prod.fst) fs ++ r) = some (fs, r)
  := by
  induction ws generalizing w fs with
  | nil =>
    obtain ⟨f, rfl⟩ : ∃ f, fs = [f] :=
      List.length_eq_one_iff.mp (by simpa using congrArg List.length h.widths_eq)
    obtain rfl : f.length = w := by simpa using h.widths_eq
    have hf := digits_append (h.isDigit f List.mem_cons_self) r
    simp [capture, joinWith, hf]
  | cons cw ws ih =>
    obtain ⟨c, w'⟩ := cw
    cases fs with
    | nil => exact absurd h.widths_eq (by simp)
    | cons f fs =>
      have hw := h.widths_eq
      simp only [List.map_cons, List.cons.injEq] at hw
      obtain ⟨rfl, hw⟩ := hw
      have hfs : DigitFields (w' :: ws.map Prod.snd) fs :=
        ⟨hw, fun g hg => h.isDigit g (List.mem_cons_of_mem _ hg)⟩
      have hf := digits_append (h.isDigit f List.mem_cons_self)
        (c :: (joinWith (ws.map Prod.fst) fs ++ r))
      simp only [capture, joinWith, List.map_cons, List.append_assoc, List.cons_append, hf,
        Option.bind_some, lit, if_true, ih hfs, Option.map_some]

/-- A text of digit fields and separators has only these characters. -/
theorem mem_joinWith {c : Char} {seps : List Char} {fs : List (List Char)}
    (h : c ∈ joinWith seps fs) :
  c ∈ seps ∨ ∃ f ∈ fs, c ∈ f
  := by
  induction fs generalizing seps with
  | nil => cases seps <;> simp [joinWith] at h
  | cons f fs ih =>
    cases seps with
    | nil => exact Or.inr ⟨f, List.mem_cons_self, by simpa [joinWith] using h⟩
    | cons d seps =>
      simp only [joinWith, List.mem_append, List.mem_cons] at h
      rcases h with h | rfl | h
      · exact Or.inr ⟨f, List.mem_cons_self, h⟩
      · exact Or.inl List.mem_cons_self
      · rcases ih h with h | ⟨g, hg, h⟩
        · exact Or.inl (List.mem_cons_of_mem _ h)
        · exact Or.inr ⟨g, List.mem_cons_of_mem _ hg, h⟩

/-- A text of fields with one separator has only the characters of these. -/
theorem mem_intercalate {α : Type} {c : α} {sep : List α} {fs : List (List α)}
    (h : c ∈ sep.intercalate fs) :
  c ∈ sep ∨ ∃ f ∈ fs, c ∈ f
  := by
  induction fs with
  | nil => simp [List.intercalate] at h
  | cons f fs ih =>
    cases fs with
    | nil => exact Or.inr ⟨f, List.mem_cons_self, by simpa [List.intercalate] using h⟩
    | cons g fs =>
      rw [List.intercalate_cons_cons, List.mem_append, List.mem_append] at h
      rcases h with (h | h) | h
      · exact Or.inr ⟨f, List.mem_cons_self, h⟩
      · exact Or.inl h
      · rcases ih h with h | ⟨f', hf', h⟩
        · exact Or.inl h
        · exact Or.inr ⟨f', List.mem_cons_of_mem _ hf', h⟩

/-- What stands between separators has none. -/
theorem notMem_of_mem_splitOn {α : Type} [DecidableEq α] {c : α} {s w : List α}
    (h : w ∈ s.splitOn c) :
  c ∉ w
  := by
  induction s generalizing w with
  | nil => simp_all
  | cons d s ih =>
    rw [List.splitOn_cons_eq_if_modifyHead] at h
    split_ifs at h with hd
    · rcases List.mem_cons.mp h with rfl | hw
      · exact List.not_mem_nil
      · exact ih hw
    · obtain ⟨v, vs, hvs⟩ := List.exists_cons_of_ne_nil (List.splitOn_ne_nil c s)
      rw [hvs, List.modifyHead_cons] at h
      rcases List.mem_cons.mp h with rfl | hw
      · rw [List.mem_cons, not_or]
        exact ⟨fun heq => hd (by rw [heq, beq_self_eq_true]), ih (by simp [hvs])⟩
      · exact ih (by simp [hvs, hw])

/-! ## The conversions of `sscanf` -/

/-- `isspace`. -/
def isSpace (c : Char) : Bool :=
  c ∈ [' ', '\t', '\n', '\x0b', '\x0c', '\r']

/-- A non-empty sequence of digits at the front of a text. -/
def scanNat (s : List Char) : Option (ℕ × List Char) :=
  match s.takeWhile Char.isDigit with
  | [] => none
  | ds => some (number ds, s.dropWhile Char.isDigit)

/-- `%d`, without the bounds of the type: white space, a sign and digits. -/
def scanInt (s : List Char) : Option (ℤ × List Char) :=
  match s.dropWhile isSpace with
  | '-' :: s => (scanNat s).map fun p => (-(p.1 : ℤ), p.2)
  | '+' :: s => (scanNat s).map fun p => ((p.1 : ℤ), p.2)
  | s => (scanNat s).map fun p => ((p.1 : ℤ), p.2)

/-- A character of the format: a space stands for any white space, any other character for
itself. -/
def scanSep (c : Char) (s : List Char) : Option (List Char) :=
  if c = ' ' then some (s.dropWhile isSpace) else lit c s

/-- The conversions `%d` of a format that has the characters `seps` between them. -/
def scanInts : List Char → List Char → Option (List ℤ)
  | [], s => (scanInt s).map fun p => [p.1]
  | c :: seps, s =>
    (scanInt s).bind fun p => (scanSep c p.2).bind fun s' =>
      (scanInts seps s').map fun ns => p.1 :: ns

/-- The character that a text begins with is no digit. -/
def StopsDigits (s : List Char) : Prop :=
  ∀ c ∈ s.head?, c.isDigit = false

theorem isSpace_of_isDigit {c : Char} (h : c.isDigit = true) :
  isSpace c = false
  := by
  simp only [isSpace, List.mem_cons, List.not_mem_nil, or_false, decide_eq_false_iff_not]
  rintro (rfl | rfl | rfl | rfl | rfl | rfl) <;> simp_all

theorem scanNat_append {f r : List Char} (hne : f ≠ []) (hf : ∀ c ∈ f, c.isDigit = true)
    (hr : StopsDigits r) :
  scanNat (f ++ r) = some (number f, r)
  := by
  have htake : (f ++ r).takeWhile Char.isDigit = f := by
    rw [List.takeWhile_append_of_pos hf]
    cases r with
    | nil => simp
    | cons c r => simp [hr c rfl]
  have hdrop : (f ++ r).dropWhile Char.isDigit = r := by
    rw [List.dropWhile_append_of_pos hf]
    cases r with
    | nil => simp
    | cons c r => simp [hr c rfl]
  unfold scanNat
  rw [htake, hdrop]
  cases f with
  | nil => exact absurd rfl hne
  | cons c f => rfl

theorem scanInt_append {f r : List Char} (hne : f ≠ []) (hf : ∀ c ∈ f, c.isDigit = true)
    (hr : StopsDigits r) :
  scanInt (f ++ r) = some ((number f : ℤ), r)
  := by
  have hscan := scanNat_append hne hf hr
  cases f with
  | nil => exact absurd rfl hne
  | cons c f =>
    have hc := hf c List.mem_cons_self
    have hdrop : ((c :: f) ++ r).dropWhile isSpace = (c :: f) ++ r := by
      simp [isSpace_of_isDigit hc]
    unfold scanInt
    rw [hdrop]
    split
    next s heq =>
      obtain ⟨rfl, -⟩ := List.cons.inj heq
      exact absurd hc (by decide)
    next s heq =>
      obtain ⟨rfl, -⟩ := List.cons.inj heq
      exact absurd hc (by decide)
    next => rw [hscan]; rfl

theorem scanSep_cons {c : Char} {s : List Char} (hs : ∀ d ∈ s.head?, isSpace d = false) :
  scanSep c (c :: s) = some s
  := by
  unfold scanSep
  split
  case isTrue h =>
    subst h
    cases s with
    | nil => rfl
    | cons d s => simp [isSpace, List.dropWhile_cons] at hs ⊢; simp [hs]
  case isFalse h => simp [lit]

/-- The conversions read the numbers of digit fields. -/
theorem scanInts_joinWith (seps : List Char) {fs : List (List Char)}
    (hlen : fs.length = seps.length + 1) (hne : ∀ f ∈ fs, f ≠ [])
    (hfs : ∀ f ∈ fs, ∀ c ∈ f, c.isDigit = true) (hseps : ∀ c ∈ seps, c.isDigit = false) :
  scanInts seps (joinWith seps fs) = some (fs.map fun f => (number f : ℤ))
  := by
  induction seps generalizing fs with
  | nil =>
    obtain ⟨f, rfl⟩ := List.length_eq_one_iff.mp hlen
    have hscan := scanInt_append (r := []) (hne f List.mem_cons_self)
      (hfs f List.mem_cons_self) (by simp [StopsDigits])
    rw [List.append_nil] at hscan
    simp [scanInts, joinWith, hscan]
  | cons c seps ih =>
    cases fs with
    | nil => simp at hlen
    | cons f fs =>
      have hf := hfs f List.mem_cons_self
      have hc : StopsDigits (c :: joinWith seps fs) := by
        simpa [StopsDigits] using hseps c List.mem_cons_self
      have hnext : ∀ d ∈ (joinWith seps fs).head?, isSpace d = false := by
        cases fs with
        | nil => simp at hlen
        | cons g fs =>
          have hg := hfs g (by simp)
          cases g with
          | nil => exact absurd rfl (hne [] (by simp))
          | cons d g =>
            intro e he
            have : e = d := by cases seps <;> simpa [joinWith, eq_comm] using he
            exact this ▸ isSpace_of_isDigit (hg d List.mem_cons_self)
      have ih := ih (by simpa using hlen) (fun f hf => hne f (List.mem_cons_of_mem _ hf))
        (fun f hf => hfs f (List.mem_cons_of_mem _ hf))
        (fun c hc => hseps c (List.mem_cons_of_mem _ hc))
      simp only [scanInts, joinWith]
      rw [scanInt_append (hne f List.mem_cons_self) hf hc]
      simp [scanSep_cons hnext, ih]

end Fields
