import BmcAccount.Lib.Fields

/-!
# Addresses as texts

`inetPton4` and `inetPton6` read the text of an address as `inet_pton` of the C library
does, the latter by the loop of that function. An address is the list of its bytes. What is
used of the texts that are accepted: the characters they are made of, that a colon tells
the texts of the two families apart, how long they are, and that they denote bytes.
-/

namespace Inet

/-- A decimal number from `0` to `255` without needless zeros. -/
def octet (s : List Char) : Option ℕ :=
  if s ≠ [] ∧ s.length ≤ 3 ∧ s.all Char.isDigit ∧ (s.length = 1 ∨ s.head? ≠ some '0')
      ∧ Fields.number s ≤ 255 then
    some (Fields.number s)
  else none

/-- `inet_pton(AF_INET, …)`. -/
def inetPton4 (s : List Char) : Option (List ℕ) :=
  match s.splitOn '.' with
  | [a, b, c, d] => [a, b, c, d].mapM octet
  | _ => none

/-- The value of a hexadecimal digit. -/
def hexValue (c : Char) : Option ℕ :=
  if c.isDigit then some (c.toNat - '0'.toNat)
  else if 'a' ≤ c ∧ c ≤ 'f' then some (c.toNat - 'a'.toNat + 10)
  else if 'A' ≤ c ∧ c ≤ 'F' then some (c.toNat - 'A'.toNat + 10)
  else none

/-- The loop of `inet_pton6`: `curtok` is the text from the last separator on, of which
`seen` hexadecimal digits with the value `val` have been read, `tp` has the bytes written,
and `colonp` is how many of these stand before a double colon. -/
def pton6Loop (curtok : List Char) (seen val : ℕ) (tp : List ℕ) (colonp : Option ℕ) :
    List Char → Option (List ℕ × Option ℕ)
  | [] =>
    if seen = 0 then some (tp, colonp)
    else if tp.length + 2 ≤ 16 then some (tp ++ [val / 256, val % 256], colonp)
    else none
  | ch :: src =>
    match hexValue ch with
    | some d =>
      if seen = 4 then none else pton6Loop curtok (seen + 1) (16 * val + d) tp colonp src
    | none =>
      if ch = ':' then
        if seen = 0 then
          if colonp.isSome then none else pton6Loop src 0 0 tp (some tp.length) src
        else if src = [] ∨ 16 < tp.length + 2 then none
        else pton6Loop src 0 0 (tp ++ [val / 256, val % 256]) colonp src
      else if ch = '.' ∧ tp.length + 4 ≤ 16 then
        (inetPton4 curtok).map fun a => (tp ++ a, colonp)
      else none

/-- What becomes of the bytes written: a double colon is filled up with zeros. -/
def expand : List ℕ × Option ℕ → Option (List ℕ)
  | (tp, none) => if tp.length = 16 then some tp else none
  | (tp, some k) =>
    if tp.length < 16 then some (tp.take k ++ List.replicate (16 - tp.length) 0 ++ tp.drop k)
    else none

/-- `inet_pton(AF_INET6, …)`. -/
def inetPton6 (s : List Char) : Option (List ℕ) :=
  match s with
  | ':' :: ':' :: s => (pton6Loop (':' :: s) 0 0 [] none (':' :: s)).bind expand
  | ':' :: _ => none
  | s => (pton6Loop s 0 0 [] none s).bind expand

example : inetPton4 "192.168.2.14".toList = some [192, 168, 2, 14] := by decide
example : inetPton4 "192.168.02.14".toList = none := by decide
example : inetPton6 "fec0:75::1.2.3.4".toList
    = some [0xfe, 0xc0, 0, 0x75, 0, 0, 0, 0, 0, 0, 0, 0, 1, 2, 3, 4] := by decide

/-! ## The characters of an address -/

/-- A character of the text of an address. -/
def AddrChar (c : Char) : Prop :=
  (hexValue c).isSome ∨ c = ':' ∨ c = '.'

theorem octet_eq_some {s : List Char} {n : ℕ} (h : octet s = some n) :
  s.length ≤ 3 ∧ ∀ c ∈ s, c.isDigit = true
  := by
  unfold octet at h
  split at h
  case isFalse => simp at h
  case isTrue hs => exact ⟨hs.2.1, List.all_eq_true.mp hs.2.2.1⟩

/-- The four numbers of an IPv4 address. -/
theorem inetPton4_eq_some {s : List Char} {a : List ℕ} (h : inetPton4 s = some a) :
  a.length = 4 ∧ s.length ≤ 15 ∧ ∀ c ∈ s, c.isDigit = true ∨ c = '.'
  := by
  unfold inetPton4 at h
  split at h
  next w x y z hs =>
    have hjoin : ['.'].intercalate [w, x, y, z] = s := hs ▸ List.intercalate_splitOn '.'
    simp only [List.mapM_cons, List.mapM_nil, Option.pure_def, Option.bind_eq_bind,
      Option.bind_eq_some_iff, Option.some.injEq] at h
    obtain ⟨n, hw, l, ⟨m, hx, l', ⟨p, hy, l'', ⟨q, hz, -, rfl, rfl⟩, rfl⟩, rfl⟩, rfl⟩ := h
    have hw := octet_eq_some hw
    have hx := octet_eq_some hx
    have hy := octet_eq_some hy
    have hz := octet_eq_some hz
    subst hjoin
    refine ⟨rfl, ?_, ?_⟩
    · simp [List.intercalate, List.intersperse]
      omega
    · intro c hc
      simp [List.intercalate, List.intersperse] at hc
      rcases hc with h | rfl | h | rfl | h | rfl | h
      · exact Or.inl (hw.2 c h)
      · exact Or.inr rfl
      · exact Or.inl (hx.2 c h)
      · exact Or.inr rfl
      · exact Or.inl (hy.2 c h)
      · exact Or.inr rfl
      · exact Or.inl (hz.2 c h)
  next => simp at h

theorem addrChar_of_isDigit {c : Char} (h : c.isDigit = true) :
  AddrChar c
  := by
  left
  simp [hexValue, h]

theorem addrChar_of_inetPton4 {s : List Char} {a : List ℕ} (h : inetPton4 s = some a) :
  ∀ c ∈ s, AddrChar c
  := by
  intro c hc
  rcases (inetPton4_eq_some h).2.2 c hc with hd | rfl
  · exact addrChar_of_isDigit hd
  · exact Or.inr (Or.inr rfl)

/-- What the loop reads, when it succeeds: `b` tells whether there was a double colon. -/
theorem pton6Loop_eq_some {curtok p src : List Char} {seen val : ℕ} {tp tp' : List ℕ}
    {colonp colonp' : Option ℕ} (hcur : curtok = p ++ src) (hseen : p.length = seen)
    (hle : seen ≤ 4) (h : pton6Loop curtok seen val tp colonp src = some (tp', colonp')) :
  (∀ c ∈ src, AddrChar c)
    ∧ 2 * (src.length + seen) + 5 * tp.length + 2 * colonp.isSome.toNat
        ≤ 5 * tp'.length + 10 + 2 * colonp'.isSome.toNat
    ∧ (':' ∉ src → tp'.length ≤ tp.length + 4 ∧ colonp' = colonp)
    ∧ (colonp.isSome → colonp'.isSome)
  := by
  induction src generalizing curtok p seen val tp colonp with
  | nil =>
    simp only [pton6Loop] at h
    split_ifs at h with h0 h16
    · obtain ⟨rfl, rfl⟩ : tp = tp' ∧ colonp = colonp' := by simpa using h
      refine ⟨by simp, ?_, by simp, id⟩
      simp only [List.length_nil]
      omega
    · obtain ⟨rfl, rfl⟩ : tp ++ [val / 256, val % 256] = tp' ∧ colonp = colonp' := by
        simpa using h
      refine ⟨by simp, ?_, by simp, id⟩
      simp only [List.length_nil, List.length_append, List.length_cons]
      omega
  | cons ch src ih =>
    simp only [pton6Loop] at h
    split at h
    next d hd =>
      split_ifs at h with h4
      obtain ⟨hchars, hlen, hcolon, hsome⟩ := ih (p := p ++ [ch]) (by simp [hcur])
        (by simp [hseen]) (by omega) h
      refine ⟨?_, ?_, ?_, hsome⟩
      · simpa [AddrChar, hd] using hchars
      · simp only [List.length_cons]
        omega
      · intro hmem
        exact hcolon fun hsrc => hmem (List.mem_cons_of_mem _ hsrc)
    next hd =>
      split_ifs at h with hch h0 hsome hfull hdot
      · obtain ⟨hchars, hlen, -, -⟩ := ih (p := []) rfl rfl (Nat.zero_le _) h
        refine ⟨?_, ?_, ?_, fun hc => absurd hc hsome⟩
        · simpa [AddrChar, hch] using hchars
        · have hnone : colonp.isSome = false := by simpa using hsome
          simp only [List.length_cons, hnone, Bool.toNat_false, Option.isSome_some,
            Bool.toNat_true] at hlen ⊢
          omega
        · simp [hch]
      · obtain ⟨hchars, hlen, -, hmono⟩ := ih (p := []) rfl rfl (Nat.zero_le _) h
        refine ⟨?_, ?_, ?_, hmono⟩
        · simpa [AddrChar, hch] using hchars
        · simp only [List.length_append, List.length_cons, List.length_nil] at hlen ⊢
          omega
        · simp [hch]
      · simp only [Option.map_eq_some_iff, Prod.mk.injEq] at h
        obtain ⟨a, ha, rfl, rfl⟩ := h
        obtain ⟨h4, h15, -⟩ := inetPton4_eq_some ha
        subst hcur
        refine ⟨?_, ?_, ?_, id⟩
        · intro c hc
          exact addrChar_of_inetPton4 ha c (List.mem_append_right _ hc)
        · simp only [List.length_append, List.length_cons] at h15 ⊢
          omega
        · intro
          simp [h4]

theorem length_of_expand {tp a : List ℕ} {colonp : Option ℕ} (h : expand (tp, colonp) = some a) :
  5 * tp.length + 2 * colonp.isSome.toNat ≤ 80 ∧ (colonp.isSome → tp.length < 16)
    ∧ (colonp = none → tp.length = 16)
  := by
  cases colonp with
  | none =>
    simp only [expand] at h
    split_ifs at h with h16
    simp [h16]
  | some k =>
    simp only [expand] at h
    split_ifs at h with h16
    refine ⟨?_, fun _ => h16, by simp⟩
    simp only [Option.isSome_some, Bool.toNat_true]
    omega

/-- The text of an IPv6 address. -/
theorem inetPton6_eq_some {s : List Char} {a : List ℕ} (h : inetPton6 s = some a) :
  s.length ≤ 45 ∧ ':' ∈ s ∧ ∀ c ∈ s, AddrChar c
  := by
  unfold inetPton6 at h
  split at h
  next s =>
    obtain ⟨⟨tp, colonp⟩, hloop, hexp⟩ := Option.bind_eq_some_iff.mp h
    have hstep : pton6Loop s 0 0 [] (some 0) s = some (tp, colonp) := hloop
    obtain ⟨hchars, hlen, -, hmono⟩ :=
      pton6Loop_eq_some (p := []) rfl rfl (Nat.zero_le _) hstep
    have hsome : colonp.isSome = true := hmono rfl
    have h15 := (length_of_expand hexp).2.1 hsome
    refine ⟨?_, by simp, ?_⟩
    · simp only [List.length_cons, List.length_nil, hsome, Bool.toNat_true] at hlen ⊢
      omega
    · intro c hc
      rcases List.mem_cons.mp hc with rfl | hc
      · exact Or.inr (Or.inl rfl)
      · rcases List.mem_cons.mp hc with rfl | hc
        · exact Or.inr (Or.inl rfl)
        · exact hchars c hc
  next => simp at h
  next s h₁ h₂ =>
    obtain ⟨⟨tp, colonp⟩, hloop, hexp⟩ := Option.bind_eq_some_iff.mp h
    obtain ⟨hchars, hlen, hcolon, -⟩ :=
      pton6Loop_eq_some (p := []) rfl rfl (Nat.zero_le _) hloop
    obtain ⟨h80, h15, h16⟩ := length_of_expand hexp
    simp only [List.length_nil, Option.isSome_none, Bool.toNat_false] at hlen hcolon
    refine ⟨by omega, ?_, hchars⟩
    by_contra hmem
    obtain ⟨h4, rfl⟩ := hcolon hmem
    have := h16 rfl
    omega

/-! ## The bytes of an address -/

theorem octet_lt {s : List Char} {n : ℕ} (h : octet s = some n) :
  n < 256
  := by
  unfold octet at h
  split_ifs at h with hs
  rw [Option.some_inj] at h
  exact h ▸ Nat.lt_succ_of_le hs.2.2.2.2

/-- The bytes of an IPv4 address. -/
theorem inetPton4_lt {s : List Char} {a : List ℕ} (h : inetPton4 s = some a) :
  ∀ b ∈ a, b < 256
  := by
  unfold inetPton4 at h
  split at h
  next w x y z hs =>
    simp only [List.mapM_cons, List.mapM_nil, Option.pure_def, Option.bind_eq_bind,
      Option.bind_eq_some_iff, Option.some.injEq] at h
    obtain ⟨n, hw, l, ⟨m, hx, l', ⟨p, hy, l'', ⟨q, hz, -, rfl, rfl⟩, rfl⟩, rfl⟩, rfl⟩ := h
    simp [octet_lt hw, octet_lt hx, octet_lt hy, octet_lt hz]
  next => cases h

theorem hexValue_lt {c : Char} {d : ℕ} (h : hexValue c = some d) :
  d < 16
  := by
  unfold hexValue at h
  split_ifs at h with hd hl hu
  all_goals
    simp only [Option.some_inj] at h
  · simp only [Char.isDigit, Bool.and_eq_true, decide_eq_true_eq, ge_iff_le,
      UInt32.le_iff_toNat_le] at hd
    have h9 : c.toNat ≤ 57 := hd.2
    have h0 : '0'.toNat = 48 := rfl
    omega
  · have hf : c.toNat ≤ 102 := hl.2
    have ha : 'a'.toNat = 97 := rfl
    omega
  · have hf : c.toNat ≤ 70 := hu.2
    have ha : 'A'.toNat = 65 := rfl
    omega

/-- The loop writes bytes: a group has at most four digits. -/
theorem pton6Loop_lt {curtok src : List Char} {seen val : ℕ} {tp tp' : List ℕ}
    {colonp colonp' : Option ℕ} (hseen : seen ≤ 4) (hval : val < 16 ^ seen)
    (htp : ∀ b ∈ tp, b < 256)
    (h : pton6Loop curtok seen val tp colonp src = some (tp', colonp')) :
  ∀ b ∈ tp', b < 256
  := by
  have hwrite {seen val : ℕ} {tp : List ℕ} (hseen : seen ≤ 4) (hval : val < 16 ^ seen)
      (htp : ∀ b ∈ tp, b < 256) : ∀ b ∈ tp ++ [val / 256, val % 256], b < 256 := by
    have h16 : val < 16 ^ 4 := hval.trans_le (Nat.pow_le_pow_right (by decide) hseen)
    intro b hb
    simp only [List.mem_append, List.mem_cons, List.not_mem_nil, or_false] at hb
    rcases hb with hb | rfl | rfl
    · exact htp b hb
    · omega
    · omega
  induction src generalizing curtok seen val tp colonp with
  | nil =>
    simp only [pton6Loop] at h
    split_ifs at h with h0 h16
    · obtain ⟨rfl, -⟩ : tp = tp' ∧ colonp = colonp' := by simpa using h
      exact htp
    · obtain ⟨rfl, -⟩ : tp ++ [val / 256, val % 256] = tp' ∧ colonp = colonp' := by
        simpa using h
      exact hwrite hseen hval htp
  | cons ch src ih =>
    simp only [pton6Loop] at h
    split at h
    next d hd =>
      split_ifs at h with h4
      have hd := hexValue_lt hd
      refine ih (by omega) ?_ htp h
      rw [Nat.pow_succ]
      omega
    next hd =>
      split_ifs at h with hch h0 hsome hfull hdot
      · exact ih (Nat.zero_le _) (by decide) htp h
      · exact ih (Nat.zero_le _) (by decide) (hwrite hseen hval htp) h
      · simp only [Option.map_eq_some_iff, Prod.mk.injEq] at h
        obtain ⟨a, ha, rfl, -⟩ := h
        intro b hb
        rcases List.mem_append.mp hb with hb | hb
        · exact htp b hb
        · exact inetPton4_lt ha b hb

theorem length_expand {tp a : List ℕ} {colonp : Option ℕ} (h : expand (tp, colonp) = some a) :
  a.length = 16
  := by
  cases colonp with
  | none =>
    simp only [expand] at h
    split_ifs at h with h16
    rw [Option.some_inj] at h
    exact h ▸ h16
  | some k =>
    simp only [expand] at h
    split_ifs at h with h16
    rw [Option.some_inj] at h
    subst h
    simp only [List.length_append, List.length_take, List.length_replicate, List.length_drop]
    omega

theorem expand_lt {tp a : List ℕ} {colonp : Option ℕ} (h : expand (tp, colonp) = some a)
    (htp : ∀ b ∈ tp, b < 256) :
  ∀ b ∈ a, b < 256
  := by
  cases colonp with
  | none =>
    simp only [expand] at h
    split_ifs at h
    rw [Option.some_inj] at h
    exact h ▸ htp
  | some k =>
    simp only [expand] at h
    split_ifs at h
    rw [Option.some_inj] at h
    subst h
    intro b hb
    simp only [List.mem_append, List.mem_replicate] at hb
    rcases hb with (hb | ⟨-, rfl⟩) | hb
    · exact htp b (List.mem_of_mem_take hb)
    · decide
    · exact htp b (List.mem_of_mem_drop hb)

/-- The bytes of an IPv6 address. -/
theorem inetPton6_lt {s : List Char} {a : List ℕ} (h : inetPton6 s = some a) :
  a.length = 16 ∧ ∀ b ∈ a, b < 256
  := by
  have hbind {curtok s : List Char} (h : (pton6Loop curtok 0 0 [] none s).bind expand = some a) :
      a.length = 16 ∧ ∀ b ∈ a, b < 256 := by
    obtain ⟨⟨tp, colonp⟩, hloop, hexp⟩ := Option.bind_eq_some_iff.mp h
    exact ⟨length_expand hexp,
      expand_lt hexp (pton6Loop_lt (Nat.zero_le _) (by decide) (by simp) hloop)⟩
  unfold inetPton6 at h
  split at h
  next s => exact hbind h
  next => cases h
  next s h₁ h₂ => exact hbind h

/-! ## The bits of an address -/

/-- The bit `j` of an address, counted from the highest bit of its first byte. -/
def bitAt (a : List ℕ) (j : ℕ) : Bool :=
  (a.getD (j / 8) 0).testBit (7 - j % 8)

/-- The first `m` bits of two addresses are equal. -/
def PrefixEq (m : ℕ) (a b : List ℕ) : Prop :=
  ∀ j < m, bitAt a j = bitAt b j

/-- The highest `r` bits of a byte are what remains when the lower ones are shifted out. -/
theorem shiftRight_eq_iff {x y r : ℕ} (hx : x < 256) (hy : y < 256) (hr : r ≤ 8) :
  x >>> (8 - r) = y >>> (8 - r) ↔ ∀ i < r, x.testBit (7 - i) = y.testBit (7 - i)
  := by
  constructor
  · intro h i hi
    have hbit := congrArg (Nat.testBit · (r - 1 - i)) h
    simp only [Nat.testBit_shiftRight] at hbit
    rwa [show 8 - r + (r - 1 - i) = 7 - i by omega] at hbit
  · intro h
    apply Nat.eq_of_testBit_eq
    intro k
    rw [Nat.testBit_shiftRight, Nat.testBit_shiftRight]
    by_cases hk : k < r
    · have hbit := h (r - 1 - k) (by omega)
      rwa [show 7 - (r - 1 - k) = 8 - r + k by omega] at hbit
    · have hlow {z : ℕ} (hz : z < 256) : z.testBit (8 - r + k) = false := by
        apply Nat.testBit_lt_two_pow
        exact hz.trans_le (Nat.pow_le_pow_right (by decide : 0 < 2) (show 8 ≤ 8 - r + k by omega))
      rw [hlow hx, hlow hy]

theorem byte_eq_iff {x y : ℕ} (hx : x < 256) (hy : y < 256) :
  x = y ↔ ∀ i < 8, x.testBit (7 - i) = y.testBit (7 - i)
  := by
  simpa using shiftRight_eq_iff hx hy le_rfl

theorem getD_lt {a : List ℕ} (ha : ∀ b ∈ a, b < 256) (k : ℕ) :
  a.getD k 0 < 256
  := by
  rw [List.getD_eq_getElem?_getD]
  cases h : a[k]? with
  | none => decide
  | some b => exact ha b (List.mem_of_getElem? h)

/-- A prefix is a number of whole bytes and the highest bits of the next one. -/
theorem prefixEq_iff {a b : List ℕ} (ha : ∀ x ∈ a, x < 256) (hb : ∀ x ∈ b, x < 256) {r : ℕ}
    (hr : r < 8) (q : ℕ) :
  PrefixEq (8 * q + r) a b ↔
    (∀ k < q, a.getD k 0 = b.getD k 0) ∧
      a.getD q 0 >>> (8 - r) = b.getD q 0 >>> (8 - r)
  := by
  have hbit (c : List ℕ) {k i : ℕ} (hi : i < 8) :
      bitAt c (8 * k + i) = (c.getD k 0).testBit (7 - i) := by
    rw [bitAt, Nat.mul_add_div (by decide), Nat.div_eq_of_lt hi, Nat.mul_add_mod,
      Nat.mod_eq_of_lt hi, Nat.add_zero]
  rw [shiftRight_eq_iff (getD_lt ha q) (getD_lt hb q) hr.le]
  constructor
  · intro h
    constructor
    · intro k hk
      rw [byte_eq_iff (getD_lt ha k) (getD_lt hb k)]
      intro i hi
      rw [← hbit a hi, ← hbit b hi]
      exact h _ (by omega)
    · intro i hi
      rw [← hbit a (hi.trans hr), ← hbit b (hi.trans hr)]
      exact h _ (by omega)
  · rintro ⟨hbytes, hlast⟩ j hj
    have hmod : j % 8 < 8 := Nat.mod_lt j (by decide)
    rw [← Nat.div_add_mod j 8, hbit a hmod, hbit b hmod]
    by_cases hk : j / 8 < q
    · rw [hbytes _ hk]
    · have hq : j / 8 = q := by omega
      rw [hq]
      exact hlast _ (by omega)

/-- The first bytes, as lists. -/
theorem take_eq_take_iff {a b : List ℕ} (hlen : a.length = b.length) {q : ℕ} (hq : q ≤ a.length) :
  a.take q = b.take q ↔ ∀ k < q, a.getD k 0 = b.getD k 0
  := by
  constructor
  · intro h k hk
    have hget := congrArg (·.getD k 0) h
    simpa [List.getD_eq_getElem?_getD, List.getElem?_take, hk] using hget
  · intro h
    apply List.ext_getElem (by simp [hlen])
    intro k hk hk'
    rw [List.length_take] at hk hk'
    have hget := h k (by omega)
    rw [List.getD_eq_getElem _ _ (by omega), List.getD_eq_getElem _ _ (by omega)] at hget
    simpa using hget

/-- Addresses with the same bits are equal. -/
theorem prefixEq_length_iff {a b : List ℕ} (ha : ∀ x ∈ a, x < 256) (hb : ∀ x ∈ b, x < 256)
    (hlen : a.length = b.length) :
  PrefixEq (8 * a.length) a b ↔ a = b
  := by
  have h := prefixEq_iff ha hb (by decide : 0 < 8) a.length
  rw [Nat.add_zero, ← take_eq_take_iff hlen le_rfl, List.take_length, hlen, List.take_length] at h
  rw [hlen, h]
  refine and_iff_left ?_
  rw [List.getD_eq_default _ _ hlen.le, List.getD_eq_default _ _ le_rfl]

end Inet
