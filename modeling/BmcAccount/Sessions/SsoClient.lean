import BmcAccount.Sessions.Service
import BmcAccount.Lib.LuaPattern
import BmcAccount.Utils.Ipv6

/-!
# The client of an SSO session

A session of SSO may be used only from the address that it was created for. `normalize_ip` brings
the two addresses into a form in which they are compared. An IPv6 address is read as blocks of
hexadecimal digits: a double colon becomes zero blocks, and blocks that are missing are appended.

What becomes of an address depends on the kind of its text. When the text begins with a double
colon that groups follow, one zero block too few is written in front of them, and the one that is
missing is appended at the end. The decimal numbers of an IPv4 address at the end become blocks of
their own, and there is one zero block too many when the text has groups in front of its double
colon. So texts of one kind are compared well, but for the last one, and texts of different kinds
are not.
-/

namespace BmcAccount

namespace Sessions

open Inet LuaPattern

/-! ## The functions -/

section Normalize

/- What a whole number from `2 ^ 63` on is written as: it is a floating-point number. -/
variable (floatText : ℕ → List Char)

/-- `tonumber` of decimal digits, as `table.concat` writes it. -/
def numberText (block : List Char) : List Char :=
  if Fields.number block < 2 ^ 63 then Nat.toDigits 10 (Fields.number block)
  else floatText (Fields.number block)

/-- `normalize_ipv4`. -/
def normalizeIpv4 (ip : List Char) : List Char :=
  ['.'].intercalate ((runs Char.isDigit ip).map (numberText floatText))

/-- `%x`. -/
def isXDigit (c : Char) : Bool :=
  (hexValue c).isSome

/-- `ip:match("^(.-)::(.*)$")`. -/
def matchDouble : List Char → Option (List Char × List Char)
  | [] => none
  | c :: s =>
    if c = ':' ∧ s.head? = some ':' then some ([], s.tail)
    else (matchDouble s).map fun (firstPart, secondPart) => (c :: firstPart, secondPart)

/-- The zero-compressed blocks are expanded; a text that does not match has no double colon for
the other branch to find. -/
def expandBlocks (ip : List Char) : List Char :=
  match matchDouble ip with
  | some (firstPart, secondPart) =>
    firstPart ++ (List.replicate (9 - ip.count ':') [':', '0']).flatten ++ secondPart
  | none => ip

/-- `string.format("%04x", …)`. -/
def formatBlock (v : ℕ) : List Char :=
  (Nat.toDigits 16 v).leftpad 4 '0'

/-- `tonumber(…, 16)`, in the integers of Lua. -/
def blockNumber (block : List Char) : ℕ :=
  hexFrom 0 block % 2 ^ 64

/-- `normalize_ipv6`. -/
def normalizeIpv6 (ip : List Char) : List Char :=
  let blocks := runs isXDigit (expandBlocks ip)
  let blocks := blocks ++ List.replicate (8 - blocks.length) ['0']
  [':'].intercalate (blocks.map fun block => formatBlock (blockNumber block))

/-- `normalize_ip`. -/
def normalizeIp (ip : List Char) : List Char :=
  if ip ≠ [] ∧ ∀ c ∈ ip, c.isDigit = true ∨ c = '.' then normalizeIpv4 floatText ip
  else normalizeIpv6 ip

end Normalize

example : normalizeIpv6 "2001:DB8::1".toList
    = "2001:0db8:0000:0000:0000:0000:0000:0001".toList := by decide +kernel
example : normalizeIpv6 "::2".toList
    = "0000:0000:0000:0000:0000:0000:0002:0000".toList := by decide +kernel

/-! ## The blocks of a text -/

/-- The numbers of the blocks. -/
def blockValues (s : List Char) : List ℕ :=
  (runs isXDigit s).map (hexFrom 0)

theorem blockValues_append_cons (w s : List Char) {c : Char} (hc : isXDigit c = false) :
  blockValues (w ++ c :: s) = blockValues w ++ blockValues s
  := by
  rw [blockValues, runs_append_cons w s hc, List.map_append]
  rfl

theorem blockValues_of_all {w : List Char} (hne : w ≠ []) (hw : ∀ c ∈ w, isXDigit c = true) :
  blockValues w = [hexFrom 0 w]
  := by
  rw [blockValues, runs_of_all hne hw, List.map_singleton]

theorem hexFrom_zero_cons (w : List Char) :
  hexFrom 0 ('0' :: w) = hexFrom 0 w
  := by
  have hzero : hexValue '0' = some 0 := by decide
  simp [hexFrom, hzero]

/-- A zero in front of a block is nothing. -/
theorem blockValues_zero_cons {c : Char} (s : List Char) (hc : isXDigit c = true) :
  blockValues ('0' :: c :: s) = blockValues (c :: s)
  := by
  rw [blockValues, runs_cons s (by decide) hc, blockValues]
  cases runs isXDigit (c :: s) with
  | nil => rfl
  | cons w ws =>
    rw [List.modifyHead_cons, List.map_cons, hexFrom_zero_cons, List.map_cons]

theorem blockValues_intercalate {c : Char} (hc : isXDigit c = false) (ws : List (List Char)) :
  blockValues ([c].intercalate ws) = ws.flatMap blockValues
  := by
  rw [blockValues, runs_intercalate hc, List.map_flatMap]
  rfl

/-- The zero blocks of a double colon; the last one is in front of what follows. -/
theorem blockValues_zeros (w s : List Char) (k : ℕ) :
  blockValues (w ++ (List.replicate (k + 1) [':', '0']).flatten ++ s)
    = blockValues w ++ List.replicate k 0 ++ blockValues ('0' :: s)
  := by
  have hcolon : isXDigit ':' = false := by decide
  induction k generalizing w with
  | zero =>
    rw [List.append_assoc]
    simpa using blockValues_append_cons w ('0' :: s) hcolon
  | succ k ih =>
    have hzero : blockValues ['0'] = [0] := by decide +kernel
    have hrest := ih ['0']
    rw [hzero] at hrest
    rw [List.replicate_succ, List.flatten_cons, List.append_assoc, List.append_assoc,
      List.cons_append, blockValues_append_cons w _ hcolon, ← List.append_assoc, hrest,
      List.replicate_succ]
    simp

/-- The number that a decimal number is when its digits are read as hexadecimal ones. -/
def decimalAsHex (n : ℕ) : ℕ :=
  hexFrom 0 (Nat.toDigits 10 n)

theorem isXDigit_of_isDigit {c : Char} (hc : c.isDigit = true) :
  isXDigit c = true
  := by
  simp [isXDigit, hexValue, hc]

/-- A decimal number without needless zeros is the decimal form of its number. -/
theorem toDigits_of_octet {s : List Char} {n : ℕ} (h : octet s = some n) :
  s = Nat.toDigits 10 n
  := by
  unfold octet at h
  split at h
  case isFalse => cases h
  case isTrue hs =>
    obtain ⟨hne, -, hdigit, hcanonical, -⟩ := hs
    rw [Option.some_inj] at h
    subst h
    have hpadded := Fields.padded_number hne (List.all_eq_true.mp hdigit)
    rw [Fields.padded] at hpadded
    cases hk : s.length - (Nat.toDigits 10 (Fields.number s)).length with
    | zero =>
      rw [hk, List.replicate_zero, List.nil_append] at hpadded
      exact hpadded.symm
    | succ k =>
      have hlen := Nat.length_toDigits_pos (b := 10) (n := Fields.number s)
      rcases hcanonical with hone | hhead
      · omega
      · rw [hk, List.replicate_succ, List.cons_append] at hpadded
        exact absurd (by rw [← hpadded]; rfl) hhead

/-- The decimal numbers of an IPv4 address. -/
theorem eq_intercalate_of_inetPton4 {d : List Char} {a : List ℕ} (h : inetPton4 d = some a) :
  d = ['.'].intercalate (a.map (Nat.toDigits 10))
  := by
  unfold inetPton4 at h
  split at h
  next w x y z hs =>
    have hjoin : ['.'].intercalate [w, x, y, z] = d := hs ▸ List.intercalate_splitOn '.'
    simp only [List.mapM_cons, List.mapM_nil, Option.pure_def, Option.bind_eq_bind,
      Option.bind_eq_some_iff, Option.some.injEq] at h
    obtain ⟨n, hw, l, ⟨m, hx, l', ⟨p, hy, l'', ⟨q, hz, -, rfl, rfl⟩, rfl⟩, rfl⟩, rfl⟩ := h
    rw [← hjoin, toDigits_of_octet hw, toDigits_of_octet hx, toDigits_of_octet hy,
      toDigits_of_octet hz]
    rfl
  next => cases h

theorem blockValues_dotted {d : List Char} {a : List ℕ} (h : inetPton4 d = some a) :
  blockValues d = a.map decimalAsHex
  := by
  have hword (n : ℕ) : blockValues (Nat.toDigits 10 n) = [decimalAsHex n] :=
    blockValues_of_all Nat.toDigits_ne_nil fun c hc =>
      isXDigit_of_isDigit (Nat.isDigit_of_mem_toDigits (by decide) (by decide) hc)
  rw [eq_intercalate_of_inetPton4 h, blockValues_intercalate (by decide), List.flatMap_map]
  simp only [hword]
  exact List.map_eq_flatMap.symm

/-- The blocks of the part after a double colon. -/
theorem blockValues_tail {t : Tail} (h : t.Valid) :
  blockValues t.text
    = t.groups.map (hexFrom 0) ++ ((t.dotted.bind inetPton4).getD []).map decimalAsHex
  := by
  have hgroups : t.groups.flatMap blockValues = t.groups.map (hexFrom 0) := by
    rw [List.map_eq_flatMap]
    apply List.flatMap_congr
    intro g hg
    have hgroup := h.isGroup g hg
    exact blockValues_of_all hgroup.ne_nil hgroup.isHex
  rw [Tail.text, blockValues_intercalate (by decide), Tail.items, List.flatMap_append, hgroups]
  congr 1
  cases hd : t.dotted with
  | none => rfl
  | some d =>
    obtain ⟨a, ha⟩ := Option.isSome_iff_exists.mp (h.isAddr d hd)
    simp [ha, blockValues_dotted ha]

/-- A text with a separator begins with its first part. -/
theorem exists_intercalate_cons (c : Char) (w : List Char) (ws : List (List Char)) :
  ∃ r, [c].intercalate (w :: ws) = w ++ r
  := by
  cases ws with
  | nil => exact ⟨[], by simp⟩
  | cons v ws => exact ⟨c :: [c].intercalate (v :: ws), by simp [List.intercalate_cons_cons]⟩

theorem isXDigit_ne_colon {c : Char} (hc : isXDigit c = true) :
  c ≠ ':'
  := by
  rintro rfl
  exact absurd hc (by decide)

/-- What stands between the colons begins with a digit, and has no colon. -/
theorem begins_of_mem_items {t : Tail} (h : t.Valid) {i : List Char} (hi : i ∈ t.items) :
  (∃ c w, i = c :: w ∧ isXDigit c = true) ∧ ':' ∉ i
  := by
  rcases List.mem_append.mp hi with hg | hd
  · have hgroup := h.isGroup i hg
    obtain ⟨c, w, rfl⟩ := List.exists_cons_of_ne_nil hgroup.ne_nil
    exact ⟨⟨c, w, rfl, hgroup.isHex c List.mem_cons_self⟩,
      fun hmem => isXDigit_ne_colon (hgroup.isHex _ hmem) rfl⟩
  · obtain ⟨a, ha⟩ := Option.isSome_iff_exists.mp (h.isAddr i (Option.mem_toList.mp hd))
    constructor
    · obtain ⟨hlen, -⟩ := inetPton4_eq_some ha
      obtain ⟨x, a, rfl⟩ := List.exists_cons_of_ne_nil (List.ne_nil_of_length_eq_add_one hlen)
      obtain ⟨c, w, hw⟩ := List.exists_cons_of_ne_nil (Nat.toDigits_ne_nil (n := x) (b := 10))
      have hc : c.isDigit = true :=
        Nat.isDigit_of_mem_toDigits (b := 10) (n := x) (by decide) (by decide) (by simp [hw])
      obtain ⟨r, hr⟩ := exists_intercalate_cons '.' (Nat.toDigits 10 x) (a.map (Nat.toDigits 10))
      rw [eq_intercalate_of_inetPton4 ha, List.map_cons, hr, hw]
      exact ⟨c, w ++ r, rfl, isXDigit_of_isDigit hc⟩
    · intro hmem
      rcases (inetPton4_eq_some ha).2.2 _ hmem with hc | hc
      · exact absurd hc (by decide)
      · exact absurd hc (by decide)

/-- A zero in front of what follows a double colon is a block of its own only if nothing
follows. -/
theorem blockValues_zero_tail {t : Tail} (h : t.Valid) :
  blockValues ('0' :: t.text) = if t.items = [] then [0] else blockValues t.text
  := by
  split_ifs with hitems
  · rw [Tail.text, hitems]
    decide +kernel
  · obtain ⟨i, is, his⟩ := List.exists_cons_of_ne_nil hitems
    obtain ⟨⟨c, w, rfl, hc⟩, -⟩ := begins_of_mem_items h (i := i) (by simp [his])
    obtain ⟨r, hr⟩ := exists_intercalate_cons ':' (c :: w) is
    rw [Tail.text, his, hr, List.cons_append, blockValues_zero_cons _ hc]

/-! ## The double colon -/

theorem matchDouble_append {w : List Char} (hw : ':' ∉ w) (s : List Char) :
  matchDouble (w ++ s) = (matchDouble s).map fun x => (w ++ x.1, x.2)
  := by
  induction w with
  | nil => simp
  | cons c w ih =>
    rw [List.mem_cons, not_or] at hw
    rw [List.cons_append, matchDouble, if_neg fun h => hw.1 h.1.symm, ih hw.2, Option.map_map]
    rfl

theorem matchDouble_colon {s : List Char} (hs : s.head? ≠ some ':') :
  matchDouble (':' :: s) = (matchDouble s).map fun x => (':' :: x.1, x.2)
  := by
  rw [matchDouble, if_neg fun h => hs h.2]

/-- Texts without colons that are not empty, with a colon between them. -/
theorem matchDouble_intercalate {ws : List (List Char)} (hws : ∀ w ∈ ws, w ≠ [] ∧ ':' ∉ w)
    (hne : ws ≠ []) (s : List Char) :
  matchDouble ([':'].intercalate ws ++ s)
    = (matchDouble s).map fun x => ([':'].intercalate ws ++ x.1, x.2)
  := by
  induction ws with
  | nil => exact absurd rfl hne
  | cons w ws ih =>
    rw [List.forall_mem_cons] at hws
    obtain ⟨⟨hw, hcolon⟩, hws⟩ := hws
    cases ws with
    | nil => simpa using matchDouble_append hcolon s
    | cons v ws =>
      have hhead : ([':'].intercalate (v :: ws) ++ s).head? ≠ some ':' := by
        obtain ⟨hv, hcolon⟩ := hws v List.mem_cons_self
        obtain ⟨c, v, rfl⟩ := List.exists_cons_of_ne_nil hv
        obtain ⟨r, hr⟩ := exists_intercalate_cons ':' (c :: v) ws
        rw [hr]
        intro hc
        rw [List.cons_append, List.cons_append, List.head?_cons, Option.some_inj] at hc
        exact hcolon (by simp [hc])
      rw [List.intercalate_cons_cons, List.append_assoc, List.append_assoc, List.singleton_append,
        matchDouble_append hcolon, matchDouble_colon hhead, ih hws (by simp), Option.map_map,
        Option.map_map]
      simp [Function.comp_def]

theorem count_intercalate {ws : List (List Char)} (hws : ∀ w ∈ ws, ':' ∉ w) :
  ([':'].intercalate ws).count ':' = ws.length - 1
  := by
  induction ws with
  | nil => rfl
  | cons w ws ih =>
    rw [List.forall_mem_cons] at hws
    have hw := List.count_eq_zero.mpr hws.1
    cases ws with
    | nil => simpa using hw
    | cons v ws =>
      rw [List.intercalate_cons_cons, List.count_append, List.count_append, hw, ih hws.2]
      simp
      omega

/-! ## The kinds of texts -/

/-- The groups that bytes make, two each. -/
def words : List ℕ → List ℕ
  | [] => []
  | [_] => []
  | a :: b :: r => (256 * a + b) :: words r

theorem words_groups (gs : List (List Char)) (r : List ℕ) :
  words (gs.flatMap groupBytes ++ r) = gs.map (hexFrom 0) ++ words r
  := by
  induction gs with
  | nil => rfl
  | cons g gs ih =>
    rw [List.flatMap_cons, List.append_assoc, groupBytes, List.cons_append, List.cons_append,
      List.nil_append, words, ih, Nat.div_add_mod, List.map_cons, List.cons_append]

theorem words_zeros (k : ℕ) (r : List ℕ) :
  words (List.replicate (2 * k) 0 ++ r) = List.replicate k 0 ++ words r
  := by
  induction k with
  | zero => rfl
  | succ k ih =>
    rw [Nat.mul_succ, List.replicate_succ, List.replicate_succ, List.cons_append, List.cons_append,
      words, ih, List.replicate_succ, List.cons_append]

/-- Bytes with a zero group in front of the `k`-th group. -/
def widen (k : ℕ) (a : List ℕ) : List ℕ :=
  a.take (2 * k) ++ [0, 0] ++ a.drop (2 * k)

/-- The kinds of texts: by the double colon, and whether there is an IPv4 address. -/
inductive Kind where
  | plain
  /-- There are groups after a double colon, and none in front of it. -/
  | shifted
  /-- There is an IPv4 address, and no group in front of a double colon. -/
  | dotted
  /-- There is an IPv4 address, and there are groups in front of the double colon. -/
  | widened (front : ℕ)
deriving DecidableEq

def kind : Ipv6Text → Kind
  | .full tail => if tail.dotted.isSome then .dotted else .plain
  | .compressed front tail =>
    if tail.dotted.isSome then if front = [] then .dotted else .widened front.length
    else if front = [] ∧ tail.groups ≠ [] then .shifted
    else .plain

/-- The blocks that an address has in a text of a kind. -/
def Kind.blocks : Kind → List ℕ → List ℕ
  | .plain, a => words a
  | .shifted, a => words (a.drop 2 ++ [0, 0])
  | .dotted, a => words (a.take 12) ++ (a.drop 12).map decimalAsHex
  | .widened k, a => words (widen k (a.take 12)) ++ (a.drop 12).map decimalAsHex

/-- The blocks of a text, as many as there have to be. -/
def paddedBlocks (ip : List Char) : List ℕ :=
  blockValues (expandBlocks ip) ++ List.replicate (8 - (blockValues (expandBlocks ip)).length) 0

theorem expandBlocks_full {tail : Tail} (h : tail.Valid) :
  expandBlocks tail.text = tail.text
  := by
  have hmatch : matchDouble tail.text = none := by
    by_cases hitems : tail.items = []
    · rw [Tail.text, hitems]
      rfl
    · have hws : ∀ w ∈ tail.items, w ≠ [] ∧ ':' ∉ w := by
        intro w hw
        obtain ⟨⟨c, v, rfl, -⟩, hcolon⟩ := begins_of_mem_items h hw
        exact ⟨by simp, hcolon⟩
      have hnone := matchDouble_intercalate hws hitems []
      rwa [List.append_nil] at hnone
  rw [expandBlocks, hmatch]

/-- The blocks of a text with a double colon, before more are appended. -/
theorem blockValues_expandBlocks {front : List (List Char)} (hfront : ∀ g ∈ front, IsGroup g)
    {tail : Tail} (h : tail.Valid) {k : ℕ}
    (hk : (front.length - 1) + (tail.items.length - 1) + k = 6) :
  blockValues (expandBlocks (Ipv6Text.compressed front tail).text)
    = front.map (hexFrom 0) ++ List.replicate k 0 ++ blockValues ('0' :: tail.text)
  := by
  have hws : ∀ w ∈ front, w ≠ [] ∧ ':' ∉ w := fun w hw =>
    ⟨(hfront w hw).ne_nil, fun hmem => isXDigit_ne_colon ((hfront w hw).isHex _ hmem) rfl⟩
  have hmatch : matchDouble ([':'].intercalate front ++ ':' :: ':' :: tail.text)
      = some ([':'].intercalate front, tail.text) := by
    have hdouble : matchDouble (':' :: ':' :: tail.text) = some ([], tail.text) := rfl
    by_cases hne : front = []
    · subst hne
      exact hdouble
    · rw [matchDouble_intercalate hws hne, hdouble]
      simp
  have hcount : ([':'].intercalate front ++ ':' :: ':' :: tail.text).count ':'
      = (front.length - 1) + 2 + (tail.items.length - 1) := by
    rw [List.count_append, count_intercalate fun w hw => (hws w hw).2, List.count_cons_self,
      List.count_cons_self, Tail.text,
      count_intercalate fun w hw => (begins_of_mem_items h hw).2]
    omega
  have hvalues : blockValues ([':'].intercalate front) = front.map (hexFrom 0) := by
    rw [blockValues_intercalate (by decide), List.map_eq_flatMap]
    apply List.flatMap_congr
    intro g hg
    exact blockValues_of_all (hfront g hg).ne_nil (hfront g hg).isHex
  have hzeros : 9 - ([':'].intercalate front ++ ':' :: ':' :: tail.text).count ':' = k + 1 := by
    omega
  rw [expandBlocks, Ipv6Text.text, hmatch]
  simp only
  rw [hzeros, blockValues_zeros, hvalues]

theorem words_parts (front groups : List (List Char)) (k : ℕ) (r : List ℕ) :
  words (front.flatMap groupBytes ++ List.replicate (2 * k) 0 ++ groups.flatMap groupBytes ++ r)
    = front.map (hexFrom 0) ++ List.replicate k 0 ++ groups.map (hexFrom 0) ++ words r
  := by
  rw [List.append_assoc, List.append_assoc, words_groups, words_zeros, words_groups]
  simp only [List.append_assoc]

theorem words_parts_only (front groups : List (List Char)) (k : ℕ) :
  words (front.flatMap groupBytes ++ List.replicate (2 * k) 0 ++ groups.flatMap groupBytes)
    = front.map (hexFrom 0) ++ List.replicate k 0 ++ groups.map (hexFrom 0)
  := by
  simpa [words] using words_parts front groups k []

theorem words_groups_only (gs : List (List Char)) :
  words (gs.flatMap groupBytes) = gs.map (hexFrom 0)
  := by
  simpa [words] using words_groups gs []

theorem paddedBlocks_eq {ip : List Char} {vs : List ℕ} (h : blockValues (expandBlocks ip) = vs) :
  paddedBlocks ip = vs ++ List.replicate (8 - vs.length) 0
  := by
  rw [paddedBlocks, h]

/-- The blocks of a text without a double colon. -/
theorem paddedBlocks_full {tail : Tail} (h : tail.Valid) (hsize : tail.size = 16) :
  paddedBlocks tail.text = (kind (.full tail)).blocks tail.bytes
  := by
  have hvalues := blockValues_tail h
  rw [← expandBlocks_full h] at hvalues
  rw [paddedBlocks_eq hvalues]
  obtain ⟨groups, dotted⟩ := tail
  cases dotted with
  | none =>
    have hlen : groups.length = 8 := by
      simp only [Tail.size, Option.isSome_none, Bool.toNat_false] at hsize
      omega
    change _ = words (Tail.bytes _)
    simp only [Tail.bytes, Option.bind_none, Option.getD_none, List.map_nil, List.append_nil,
      List.length_map, hlen, words_groups_only]
    exact List.append_nil _
  | some d =>
    have hlen : groups.length = 6 := by
      simp only [Tail.size, Option.isSome_some, Bool.toNat_true] at hsize
      omega
    obtain ⟨a, ha⟩ := Option.isSome_iff_exists.mp (h.isAddr d rfl)
    have hfront : (groups.flatMap groupBytes).length = 12 := by
      rw [length_flatMap_groupBytes, hlen]
    change _ = words ((Tail.bytes _).take 12) ++ ((Tail.bytes _).drop 12).map decimalAsHex
    simp only [Tail.bytes, Option.bind_some, ha, Option.getD_some, List.take_left' hfront,
      List.drop_left' hfront, words_groups_only]
    have hlong : 8 - (groups.map (hexFrom 0) ++ a.map decimalAsHex).length = 0 := by
      rw [List.length_append, List.length_map, List.length_map, (inetPton4_eq_some ha).1, hlen]
    rw [hlong]
    exact List.append_nil _

/-- The blocks of a text with a double colon, and no IPv4 address. -/
theorem paddedBlocks_compressed {front groups : List (List Char)}
    (h : (Ipv6Text.compressed front ⟨groups, none⟩).Valid) :
  paddedBlocks (Ipv6Text.compressed front ⟨groups, none⟩).text
    = (kind (.compressed front ⟨groups, none⟩)).blocks
        (Ipv6Text.compressed front ⟨groups, none⟩).bytes
  := by
  obtain ⟨hfront, hvalid, hsize⟩ := h
  have hlen : front.length + groups.length ≤ 7 := by
    simp only [Tail.size, Option.isSome_none, Bool.toNat_false] at hsize
    omega
  have hitems : (Tail.mk groups none).items = groups := by simp [Tail.items]
  obtain ⟨k, hk⟩ : ∃ k, (front.length - 1) + (groups.length - 1) + k = 6 :=
    ⟨6 - ((front.length - 1) + (groups.length - 1)), by omega⟩
  have hvalues := blockValues_expandBlocks hfront hvalid (k := k) (by rw [hitems]; exact hk)
  rw [blockValues_zero_tail hvalid, blockValues_tail hvalid, hitems] at hvalues
  have hbytes : (Ipv6Text.compressed front ⟨groups, none⟩).bytes
      = front.flatMap groupBytes
        ++ List.replicate (2 * (8 - (front.length + groups.length))) 0
        ++ groups.flatMap groupBytes := by
    have hzeros : 16 - (2 * front.length + (Tail.mk groups none).size)
        = 2 * (8 - (front.length + groups.length)) := by
      simp only [Tail.size, Option.isSome_none, Bool.toNat_false]
      omega
    simp only [Ipv6Text.bytes, hzeros, Tail.bytes, Option.bind_none, Option.getD_none,
      List.append_nil]
  rw [paddedBlocks_eq hvalues, hbytes]
  by_cases hgroups : groups = []
  · subst hgroups
    have hkind : kind (.compressed front ⟨[], none⟩) = .plain := by simp [kind]
    rw [hkind, if_pos rfl]
    change _ = words _
    rw [words_parts_only]
    have hlen' : (front.map (hexFrom 0) ++ List.replicate k 0 ++ [0]).length
        = front.length + k + 1 := by
      simp only [List.length_append, List.length_map, List.length_replicate, List.length_singleton]
    have hzeros : 8 - (front.length + 0) = k + 1 + (8 - (front.length + k + 1)) := by
      rw [List.length_nil] at hk
      omega
    rw [hlen', List.length_nil, hzeros, List.replicate_add, List.replicate_succ']
    simp
  · have hpos := List.length_pos_iff.mpr hgroups
    rw [if_neg hgroups, Option.bind_none, Option.getD_none, List.map_nil, List.append_nil]
    have hlen' : (front.map (hexFrom 0) ++ List.replicate k 0 ++ groups.map (hexFrom 0)).length
        = front.length + k + groups.length := by
      simp only [List.length_append, List.length_map, List.length_replicate]
    rw [hlen']
    by_cases hne : front = []
    · subst hne
      have hkind : kind (.compressed [] ⟨groups, none⟩) = .shifted := by simp [kind, hgroups]
      have hzeros : 2 * (8 - (([] : List (List Char)).length + groups.length)) = 2 + 2 * k := by
        rw [List.length_nil] at hk ⊢
        omega
      have hpad : 8 - (([] : List (List Char)).length + k + groups.length) = 1 := by
        rw [List.length_nil] at hk ⊢
        omega
      rw [hkind, hpad, hzeros]
      change _ = words (List.drop 2 _ ++ [0, 0])
      rw [List.replicate_add]
      have hwords := words_parts [] groups k [0, 0]
      simpa [words] using hwords.symm
    · have hpos' := List.length_pos_iff.mpr hne
      have hkind : kind (.compressed front ⟨groups, none⟩) = .plain := by simp [kind, hne]
      have hzeros : 8 - (front.length + groups.length) = k := by omega
      have hpad : 8 - (front.length + k + groups.length) = 0 := by omega
      rw [hkind, hpad, hzeros]
      change _ = words _
      rw [words_parts_only]
      exact List.append_nil _

/-- The blocks of a text with a double colon and an IPv4 address. -/
theorem paddedBlocks_dotted {front groups : List (List Char)} {d : List Char}
    (h : (Ipv6Text.compressed front ⟨groups, some d⟩).Valid) :
  paddedBlocks (Ipv6Text.compressed front ⟨groups, some d⟩).text
    = (kind (.compressed front ⟨groups, some d⟩)).blocks
        (Ipv6Text.compressed front ⟨groups, some d⟩).bytes
  := by
  obtain ⟨hfront, hvalid, hsize⟩ := h
  obtain ⟨a, ha⟩ := Option.isSome_iff_exists.mp (hvalid.isAddr d rfl)
  have hlena := (inetPton4_eq_some ha).1
  have hlen : front.length + groups.length ≤ 5 := by
    simp only [Tail.size, Option.isSome_some, Bool.toNat_true] at hsize
    omega
  have hitems : (Tail.mk groups (some d)).items.length = groups.length + 1 := by simp [Tail.items]
  have hne : (Tail.mk groups (some d)).items ≠ [] := by simp [Tail.items]
  obtain ⟨k, hk⟩ : ∃ k, (front.length - 1) + groups.length + k = 6 :=
    ⟨6 - ((front.length - 1) + groups.length), by omega⟩
  have hvalues := blockValues_expandBlocks hfront hvalid (k := k) (by rw [hitems]; exact hk)
  rw [blockValues_zero_tail hvalid, blockValues_tail hvalid, if_neg hne, Option.bind_some, ha,
    Option.getD_some] at hvalues
  have hbytes : (Ipv6Text.compressed front ⟨groups, some d⟩).bytes
      = front.flatMap groupBytes
        ++ List.replicate (2 * (6 - (front.length + groups.length))) 0
        ++ groups.flatMap groupBytes ++ a := by
    have hzeros : 16 - (2 * front.length + (Tail.mk groups (some d)).size)
        = 2 * (6 - (front.length + groups.length)) := by
      simp only [Tail.size, Option.isSome_some, Bool.toNat_true]
      omega
    simp only [Ipv6Text.bytes, hzeros, Tail.bytes, Option.bind_some, ha, Option.getD_some,
      List.append_assoc]
  have hlong : 8 - (front.map (hexFrom 0) ++ List.replicate k 0
      ++ (groups.map (hexFrom 0) ++ a.map decimalAsHex)).length = 0 := by
    simp only [List.length_append, List.length_map, List.length_replicate, hlena]
    omega
  have htwelve : (front.flatMap groupBytes
      ++ List.replicate (2 * (6 - (front.length + groups.length))) 0
      ++ groups.flatMap groupBytes).length = 12 := by
    simp only [List.length_append, length_flatMap_groupBytes, List.length_replicate]
    omega
  rw [paddedBlocks_eq hvalues, hbytes, hlong, List.replicate_zero, List.append_nil]
  by_cases hnil : front = []
  · subst hnil
    have hkind : kind (.compressed [] ⟨groups, some d⟩) = .dotted := rfl
    rw [hkind]
    change _ = words (List.take 12 _) ++ (List.drop 12 _).map decimalAsHex
    have hzeros : 6 - (([] : List (List Char)).length + groups.length) = k := by
      rw [List.length_nil] at hk ⊢
      omega
    rw [List.take_left' htwelve, List.drop_left' htwelve, hzeros, words_parts_only,
      ← List.append_assoc]
  · have hpos := List.length_pos_iff.mpr hnil
    have hkind : kind (.compressed front ⟨groups, some d⟩) = .widened front.length := by
      simp [kind, hnil]
    have hzeros : 2 + 2 * (6 - (front.length + groups.length)) = 2 * k := by omega
    have hwiden : widen front.length (front.flatMap groupBytes
          ++ List.replicate (2 * (6 - (front.length + groups.length))) 0
          ++ groups.flatMap groupBytes)
        = front.flatMap groupBytes ++ List.replicate (2 * k) 0 ++ groups.flatMap groupBytes := by
      rw [widen, List.append_assoc (front.flatMap groupBytes),
        List.take_left' (length_flatMap_groupBytes front),
        List.drop_left' (length_flatMap_groupBytes front), ← hzeros,
        List.replicate_add]
      simp only [List.append_assoc]
      rfl
    rw [hkind]
    change _ = words (widen _ (List.take 12 _)) ++ (List.drop 12 _).map decimalAsHex
    rw [List.take_left' htwelve, List.drop_left' htwelve, hwiden, words_parts_only,
      ← List.append_assoc]

/-- The blocks of a text are those of its address in a text of its kind. -/
theorem paddedBlocks_text {t : Ipv6Text} (h : t.Valid) :
  paddedBlocks t.text = (kind t).blocks t.bytes
  := by
  cases t with
  | full tail => exact paddedBlocks_full h.1 h.2
  | compressed front tail =>
    obtain ⟨groups, dotted⟩ := tail
    cases dotted with
    | none => exact paddedBlocks_compressed h
    | some d => exact paddedBlocks_dotted h

/-! ## What is compared -/

/-- The text of blocks. -/
def render (vs : List ℕ) : List Char :=
  [':'].intercalate (vs.map formatBlock)

theorem hexFrom_formatBlock (v : ℕ) :
  hexFrom 0 (formatBlock v) = v
  := by
  have hzeros (k : ℕ) (w : List Char) : hexFrom 0 (List.replicate k '0' ++ w) = hexFrom 0 w := by
    induction k with
    | zero => rfl
    | succ k ih => rw [List.replicate_succ, List.cons_append, hexFrom_zero_cons, ih]
  rw [formatBlock, List.leftpad, hzeros, Ipv6.hexFrom_toDigits]

theorem colon_notMem_formatBlock (v : ℕ) :
  ':' ∉ formatBlock v
  := by
  rw [formatBlock, List.leftpad, List.mem_append, not_or]
  constructor
  · intro h
    exact absurd (List.eq_of_mem_replicate h) (by decide)
  · intro h
    exact absurd (Ipv6.isHex_toDigits h) (by decide)

/-- The blocks can be read off their text. -/
theorem render_inj {vs ws : List ℕ} (hvs : vs ≠ []) (hws : ws ≠ []) :
  render vs = render ws ↔ vs = ws
  := by
  constructor
  · intro h
    have hsplit {us : List ℕ} (hus : us ≠ []) : (render us).splitOn ':' = us.map formatBlock := by
      apply List.splitOn_intercalate
      · intro w hw
        obtain ⟨v, -, rfl⟩ := List.mem_map.mp hw
        exact colon_notMem_formatBlock v
      · simpa using hus
    have hmap := (hsplit hvs).symm.trans ((congrArg _ h).trans (hsplit hws))
    have hinj : Function.Injective formatBlock := fun v w hvw => by
      rw [← hexFrom_formatBlock v, hvw, hexFrom_formatBlock]
    exact List.map_injective_iff.mpr hinj hmap
  · rintro rfl
    rfl

theorem words_lt {a : List ℕ} (ha : ∀ x ∈ a, x < 256) :
  ∀ v ∈ words a, v < 65536
  := by
  induction a using words.induct with
  | case1 => simp [words]
  | case2 x => simp [words]
  | case3 x y r ih =>
    rw [List.forall_mem_cons, List.forall_mem_cons] at ha
    rw [words, List.forall_mem_cons]
    exact ⟨by omega, ih ha.2.2⟩

theorem hexFrom_lt (w : List Char) (v : ℕ) :
  hexFrom v w < (v + 1) * 16 ^ w.length
  := by
  induction w generalizing v with
  | nil => simp [hexFrom]
  | cons c w ih =>
    have hc : (hexValue c).getD 0 < 16 := by
      cases hv : hexValue c with
      | none => decide
      | some d => exact hexValue_lt hv
    calc hexFrom v (c :: w) = hexFrom (16 * v + (hexValue c).getD 0) w := rfl
      _ < (16 * v + (hexValue c).getD 0 + 1) * 16 ^ w.length := ih _
      _ ≤ (16 * (v + 1)) * 16 ^ w.length := Nat.mul_le_mul_right _ (by omega)
      _ = (v + 1) * 16 ^ (c :: w).length := by rw [List.length_cons, pow_succ]; ring

theorem decimalAsHex_lt {n : ℕ} (hn : n < 256) :
  decimalAsHex n < 65536
  := by
  have hlen : (Nat.toDigits 10 n).length ≤ 3 :=
    (Nat.length_toDigits_le_iff (by decide) (by decide)).mpr (by omega)
  calc decimalAsHex n < (0 + 1) * 16 ^ (Nat.toDigits 10 n).length := hexFrom_lt _ 0
    _ ≤ 1 * 16 ^ 3 := Nat.mul_le_mul_left _ (Nat.pow_le_pow_right (by decide) hlen)
    _ < 65536 := by decide

/-- The digits of a decimal number, read as hexadecimal ones, still tell it. -/
theorem decimalAsHex_injective :
  Function.Injective decimalAsHex
  := by
  have hdigit {d : ℕ} (hd : d < 10) : (hexValue (Nat.digitChar d)).getD 0 = d := by
    rw [Ipv6.hexValue_digitChar (by omega)]
    rfl
  have hsmall {n : ℕ} (hn : n < 10) : decimalAsHex n = n := by
    rw [decimalAsHex, Nat.toDigits_of_lt_base hn]
    simpa [hexFrom] using hdigit hn
  have hlarge {n : ℕ} (hn : 10 ≤ n) : decimalAsHex n = 16 * decimalAsHex (n / 10) + n % 10 := by
    rw [decimalAsHex, Nat.toDigits_of_base_le (by decide) hn, hexFrom, List.foldl_append]
    simp only [List.foldl_cons, List.foldl_nil, hdigit (Nat.mod_lt n (by decide : 0 < 10))]
    rfl
  have hpos {n : ℕ} (hn : 0 < n) : 0 < decimalAsHex n := by
    induction n using Nat.strong_induction_on with
    | _ n ih =>
      by_cases h : n < 10
      · rwa [hsmall h]
      · have hrec := ih (n / 10) (by omega) (by omega)
        rw [hlarge (by omega)]
        omega
  intro m
  induction m using Nat.strong_induction_on with
  | _ m ih =>
    intro n h
    by_cases hm : m < 10 <;> by_cases hn : n < 10
    · rwa [hsmall hm, hsmall hn] at h
    · have hrec := hpos (n := n / 10) (by omega)
      rw [hsmall hm, hlarge (Nat.not_lt.mp hn)] at h
      omega
    · have hrec := hpos (n := m / 10) (by omega)
      rw [hlarge (Nat.not_lt.mp hm), hsmall hn] at h
      omega
    · rw [hlarge (Nat.not_lt.mp hm), hlarge (Nat.not_lt.mp hn)] at h
      have hquot : decimalAsHex (m / 10) = decimalAsHex (n / 10) := by omega
      have hdiv := ih (m / 10) (by omega) hquot
      omega

theorem words_inj {a b : List ℕ} (hlen : a.length = b.length) (heven : 2 ∣ a.length)
    (ha : ∀ x ∈ a, x < 256) (hb : ∀ x ∈ b, x < 256) (h : words a = words b) :
  a = b
  := by
  induction a using words.induct generalizing b with
  | case1 => exact (List.length_eq_zero_iff.mp hlen.symm).symm
  | case2 x => simp at heven
  | case3 x y r ih =>
    rcases b with _ | ⟨x', _ | ⟨y', r'⟩⟩
    · simp at hlen
    · simp at hlen
    · simp only [List.forall_mem_cons] at ha hb
      simp only [List.length_cons] at hlen heven
      rw [words, words, List.cons.injEq] at h
      obtain ⟨hx, hr⟩ := h
      have hrest := ih (by omega) (by omega) ha.2.2 hb.2.2 hr
      have hfirst : x = x' ∧ y = y' := by omega
      rw [hfirst.1, hfirst.2, hrest]

theorem length_words (a : List ℕ) :
  (words a).length = a.length / 2
  := by
  induction a using words.induct with
  | case1 => rfl
  | case2 x => simp [words]
  | case3 x y r ih =>
    rw [words, List.length_cons, ih]
    simp only [List.length_cons]
    omega

/-! ## When two texts are compared well -/

/-- What is known of an address whose text has a kind. -/
structure Shape (k : Kind) (a : List ℕ) : Prop where
  length_eq : a.length = 16
  lt : ∀ x ∈ a, x < 256
  shifted : k = .shifted → ∃ r, a = 0 :: 0 :: r
  widened : ∀ i, k = .widened i → i ≤ 5

theorem shape {t : Ipv6Text} (h : t.Valid) :
  Shape (kind t) t.bytes
  := by
  have hread := Ipv6Text.inetPton6_text h
  refine ⟨(inetPton6_lt hread).1, (inetPton6_lt hread).2, ?_, ?_⟩
  · intro hk
    cases t with
    | full tail =>
      rw [kind] at hk
      split at hk <;> cases hk
    | compressed front tail =>
      obtain ⟨-, -, hsize⟩ := h
      rw [kind] at hk
      split_ifs at hk with hdotted hfront hshifted
      rw [hshifted.1, List.length_nil] at hsize
      have hdotted : tail.dotted.isSome = false := by simpa using hdotted
      rw [Tail.size, hdotted, Bool.toNat_false] at hsize
      have hzeros : 16 - (2 * front.length + tail.size) = (14 - tail.size) + 2 := by
        rw [hshifted.1, List.length_nil, Tail.size, hdotted, Bool.toNat_false]
        omega
      rw [Ipv6Text.bytes, hzeros, hshifted.1]
      exact ⟨_, rfl⟩
  · intro i hk
    cases t with
    | full tail =>
      rw [kind] at hk
      split at hk <;> cases hk
    | compressed front tail =>
      obtain ⟨-, -, hsize⟩ := h
      rw [kind] at hk
      split_ifs at hk with hdotted hfront
      have hi : front.length = i := by simpa using hk
      rw [Tail.size, hdotted, Bool.toNat_true] at hsize
      omega

/-- How many blocks there are. -/
def Kind.count : Kind → ℕ
  | .plain => 8
  | .shifted => 8
  | .dotted => 10
  | .widened _ => 11

theorem length_blocks {k : Kind} {a : List ℕ} (h : Shape k a) :
  (k.blocks a).length = k.count
  := by
  have hlen := h.length_eq
  cases k with
  | plain =>
    change (words a).length = 8
    rw [length_words, hlen]
  | shifted =>
    change (words (a.drop 2 ++ [0, 0])).length = 8
    rw [length_words]
    simp [hlen]
  | dotted =>
    change (words (a.take 12) ++ (a.drop 12).map decimalAsHex).length = 10
    rw [List.length_append, length_words]
    simp [hlen]
  | widened i =>
    have hi := h.widened i rfl
    change (words (widen i (a.take 12)) ++ (a.drop 12).map decimalAsHex).length = 11
    rw [List.length_append, length_words]
    simp [widen, hlen]
    omega

theorem mem_widen {i x : ℕ} {a : List ℕ} (h : x ∈ widen i a) :
  x = 0 ∨ x ∈ a
  := by
  rw [widen, List.mem_append, List.mem_append] at h
  rcases h with (h | h) | h
  · exact .inr (List.mem_of_mem_take h)
  · exact .inl (by simpa using h)
  · exact .inr (List.mem_of_mem_drop h)

theorem blocks_lt {k : Kind} {a : List ℕ} (ha : ∀ x ∈ a, x < 256) :
  ∀ v ∈ k.blocks a, v < 65536
  := by
  have hzero {b : List ℕ} (hb : ∀ x ∈ b, x = 0 ∨ x ∈ a) : ∀ v ∈ words b, v < 65536 := by
    apply words_lt
    intro x hx
    rcases hb x hx with rfl | hx
    · decide
    · exact ha x hx
  have hdecimal : ∀ v ∈ (a.drop 12).map decimalAsHex, v < 65536 := by
    intro v hv
    obtain ⟨n, hn, rfl⟩ := List.mem_map.mp hv
    exact decimalAsHex_lt (ha n (List.mem_of_mem_drop hn))
  cases k with
  | plain => exact words_lt ha
  | shifted =>
    apply hzero
    intro x hx
    rcases List.mem_append.mp hx with hx | hx
    · exact .inr (List.mem_of_mem_drop hx)
    · exact .inl (by simpa using hx)
  | dotted =>
    apply List.forall_mem_append.mpr ⟨hzero _, hdecimal⟩
    exact fun x hx => .inr (List.mem_of_mem_take hx)
  | widened i =>
    apply List.forall_mem_append.mpr ⟨hzero _, hdecimal⟩
    exact fun x hx => (mem_widen hx).imp_right List.mem_of_mem_take

theorem append_zeros_comm_iff {s : List ℕ} :
  [0, 0] ++ s = s ++ [0, 0] ↔ ∀ x ∈ s, x = 0
  := by
  constructor
  · intro h
    induction s using words.induct with
    | case1 => simp
    | case2 x =>
      have hx : 0 = x := (List.cons.inj h).1
      simp [hx]
    | case3 x y r ih =>
      simp only [List.cons_append, List.nil_append, List.cons.injEq] at h
      obtain ⟨hx, hy, hr⟩ := h
      subst hx hy
      have hrest := ih hr
      simpa using hrest
  · intro h
    rw [List.eq_replicate_of_mem h, show [0, 0] = List.replicate 2 0 from rfl,
      List.replicate_append_replicate, List.replicate_append_replicate, Nat.add_comm]

/-- The condition for two texts, by their kinds and addresses. -/
def Compatible : Kind → Kind → List ℕ → List ℕ → Prop
  | .plain, .shifted, a, b => (a = b ∨ a = b.drop 2 ++ [0, 0]) → ∀ x ∈ b, x = 0
  | .shifted, .plain, a, b => (b = a ∨ b = a.drop 2 ++ [0, 0]) → ∀ x ∈ a, x = 0
  | .widened i, .widened j, a, b =>
    (a = b ∨ widen i a = widen j b) →
      ∀ x ∈ if i ≤ j then (b.take (2 * j)).drop (2 * i) else (a.take (2 * i)).drop (2 * j), x = 0
  | k, l, a, b => k = l ∨ a ≠ b

section Pair

variable {k l : Kind} {a b : List ℕ}

theorem compatible_comm :
  Compatible k l a b ↔ Compatible l k b a
  := by
  cases k <;> cases l
  case widened.widened i j =>
    change (_ → _) ↔ (_ → _)
    rw [eq_comm (a := b), eq_comm (a := widen j b)]
    rcases Nat.lt_trichotomy i j with h | rfl | h
    · rw [if_pos h.le, if_neg (Nat.not_le.mpr h)]
    · simp
    · rw [if_neg (Nat.not_le.mpr h), if_pos h.le]
  all_goals simp [Compatible, eq_comm]

/-- Two texts with different numbers of blocks are never the same. -/
theorem blocks_ne (ha : Shape k a) (hb : Shape l b) (h : k.count ≠ l.count) :
  (k.blocks a = l.blocks b ↔ a = b) ↔ a ≠ b
  := by
  have hne : k.blocks a ≠ l.blocks b := fun heq =>
    h ((length_blocks ha).symm.trans ((congrArg _ heq).trans (length_blocks hb)))
  simp [hne]

theorem words_eq_iff (hlen : a.length = b.length) (heven : 2 ∣ a.length) (ha : ∀ x ∈ a, x < 256)
    (hb : ∀ x ∈ b, x < 256) :
  words a = words b ↔ a = b
  :=
  ⟨words_inj hlen heven ha hb, congrArg words⟩

theorem blocks_plain_iff (ha : Shape .plain a) (hb : Shape .plain b) :
  Kind.plain.blocks a = Kind.plain.blocks b ↔ a = b
  := by
  apply words_eq_iff _ _ ha.lt hb.lt
  · rw [ha.length_eq, hb.length_eq]
  · rw [ha.length_eq]
    decide

/-- The bytes from the second group on, and a zero group. -/
theorem lt_of_mem_shift {r : List ℕ} (h : ∀ x ∈ 0 :: 0 :: r, x < 256) :
  ∀ x ∈ r ++ [0, 0], x < 256
  := by
  intro x hx
  rcases List.mem_append.mp hx with hx | hx
  · exact h x (by simp [hx])
  · have hzero : x = 0 := by simpa using hx
    rw [hzero]
    decide

theorem blocks_shifted_iff (ha : Shape .shifted a) (hb : Shape .shifted b) :
  Kind.shifted.blocks a = Kind.shifted.blocks b ↔ a = b
  := by
  obtain ⟨r, rfl⟩ := ha.shifted rfl
  obtain ⟨r', rfl⟩ := hb.shifted rfl
  have hlen := ha.length_eq
  have hlen' := hb.length_eq
  simp only [List.length_cons] at hlen hlen'
  have hblocks : words (r ++ [0, 0]) = words (r' ++ [0, 0]) ↔ r ++ [0, 0] = r' ++ [0, 0] := by
    apply words_eq_iff _ _ (lt_of_mem_shift ha.lt) (lt_of_mem_shift hb.lt)
    · simp only [List.length_append, List.length_cons, List.length_nil]
      omega
    · simp only [List.length_append, List.length_cons, List.length_nil]
      omega
  change words (r ++ [0, 0]) = words (r' ++ [0, 0]) ↔ _
  rw [hblocks, List.append_cancel_right_eq]
  simp

/-- Two ways to compare, of which each is right exactly under a condition when the other one
says that the two are equal. -/
theorem iff_iff_imp {P Q Z : Prop} (hP : P → (Q ↔ Z)) (hQ : Q → (P ↔ Z)) :
  (P ↔ Q) ↔ (Q ∨ P → Z)
  := by
  constructor
  · rintro h (hq | hp)
    · exact (hQ hq).mp (h.mpr hq)
    · exact (hP hp).mp (h.mp hp)
  · intro h
    exact ⟨fun hp => (hP hp).mpr (h (.inr hp)), fun hq => (hQ hq).mpr (h (.inl hq))⟩

/-- A text that begins with a double colon, and one that does not. -/
theorem blocks_plain_shifted_iff (ha : Shape .plain a) (hb : Shape .shifted b) :
  (Kind.plain.blocks a = Kind.shifted.blocks b ↔ a = b) ↔ Compatible .plain .shifted a b
  := by
  obtain ⟨r, rfl⟩ := hb.shifted rfl
  have hlen := hb.length_eq
  simp only [List.length_cons] at hlen
  have hblocks : Kind.plain.blocks a = Kind.shifted.blocks (0 :: 0 :: r) ↔ a = r ++ [0, 0] := by
    apply words_eq_iff _ _ ha.lt (lt_of_mem_shift hb.lt)
    · rw [ha.length_eq]
      simp only [List.length_append, List.length_cons, List.length_nil]
      omega
    · rw [ha.length_eq]
      decide
  have hzero : (∀ x ∈ (0 :: 0 :: r : List ℕ), x = 0) ↔ 0 :: 0 :: r = r ++ [0, 0] := by
    change _ ↔ [0, 0] ++ r = r ++ [0, 0]
    rw [append_zeros_comm_iff]
    simp
  rw [hblocks]
  apply iff_iff_imp
  · rintro rfl
    rw [hzero, eq_comm]
  · rintro rfl
    rw [hzero]

/-- Groups and the decimal numbers behind them. -/
theorem words_append_eq_iff {c d : List ℕ} (hlen : a.length = b.length) (heven : 2 ∣ a.length)
    (ha : ∀ x ∈ a, x < 256) (hb : ∀ x ∈ b, x < 256) :
  words a ++ c.map decimalAsHex = words b ++ d.map decimalAsHex ↔ a ++ c = b ++ d
  := by
  constructor
  · intro h
    have hwords : (words a).length = (words b).length := by
      rw [length_words, length_words, hlen]
    obtain ⟨hab, hcd⟩ := List.append_inj h hwords
    rw [words_inj hlen heven ha hb hab, List.map_injective_iff.mpr decimalAsHex_injective hcd]
  · intro h
    obtain ⟨rfl, rfl⟩ := List.append_inj h hlen
    rfl

theorem blocks_dotted_iff (ha : Shape .dotted a) (hb : Shape .dotted b) :
  Kind.dotted.blocks a = Kind.dotted.blocks b ↔ a = b
  := by
  have hblocks := words_append_eq_iff (a := a.take 12) (b := b.take 12) (c := a.drop 12)
    (d := b.drop 12) (by simp [ha.length_eq, hb.length_eq]) (by simp [ha.length_eq])
    (fun x hx => ha.lt x (List.mem_of_mem_take hx)) (fun x hx => hb.lt x (List.mem_of_mem_take hx))
  rwa [List.take_append_drop, List.take_append_drop] at hblocks

theorem widen_take_append {i : ℕ} (hi : i ≤ 5) (hlen : a.length = 16) :
  widen i (a.take 12) ++ a.drop 12 = widen i a
  := by
  have hdrop : (a.take 12).drop (2 * i) ++ a.drop 12 = a.drop (2 * i) := by
    have hsplit := List.take_append_drop 12 a
    conv_rhs => rw [← hsplit]
    rw [List.drop_append_of_le_length]
    rw [List.length_take]
    omega
  rw [widen, widen, List.take_take, min_eq_left (by omega), List.append_assoc, hdrop]

theorem blocks_widened_eq_iff {i j : ℕ} (ha : Shape (.widened i) a) (hb : Shape (.widened j) b) :
  (Kind.widened i).blocks a = (Kind.widened j).blocks b ↔ widen i a = widen j b
  := by
  have hlt {k : ℕ} {c : List ℕ} (hc : ∀ x ∈ c, x < 256) : ∀ x ∈ widen k (c.take 12), x < 256 := by
    intro x hx
    rcases mem_widen hx with rfl | hx
    · decide
    · exact hc x (List.mem_of_mem_take hx)
  have hlen {k : ℕ} {c : List ℕ} (hc : Shape (.widened k) c) :
      (widen k (c.take 12)).length = 14 := by
    have hk := hc.widened k rfl
    simp [widen, hc.length_eq]
    omega
  have hblocks := words_append_eq_iff (c := a.drop 12) (d := b.drop 12)
    ((hlen ha).trans (hlen hb).symm) (by rw [hlen ha]; decide) (hlt ha.lt) (hlt hb.lt)
  rwa [widen_take_append (ha.widened i rfl) ha.length_eq,
    widen_take_append (hb.widened j rfl) hb.length_eq] at hblocks

/-- A zero group in front of some groups, or behind them. -/
theorem widen_append {pre post : List ℕ} {i : ℕ} (hi : pre.length = 2 * i) :
  widen i (pre ++ post) = pre ++ ([0, 0] ++ post)
  := by
  rw [widen, List.take_left' hi, List.drop_left' hi, List.append_assoc]

/-- A zero group at two places. -/
theorem widen_eq_iff {i j : ℕ} (hij : i ≤ j) (hlen : a.length = b.length)
    (hj : 2 * j ≤ b.length) :
  (widen i a = widen j b ↔ a = b) ↔
    (a = b ∨ widen i a = widen j b → ∀ x ∈ (b.take (2 * j)).drop (2 * i), x = 0)
  := by
  obtain ⟨pre', rest, rfl, hpre'⟩ : ∃ pre' rest : List ℕ, a = pre' ++ rest ∧
      pre'.length = 2 * i :=
    ⟨a.take (2 * i), a.drop (2 * i), (List.take_append_drop _ _).symm, by
      rw [List.length_take]
      omega⟩
  obtain ⟨pre, seg, post, rfl, hpre, hseg⟩ : ∃ pre seg post : List ℕ, b = pre ++ (seg ++ post) ∧
      pre.length = 2 * i ∧ (pre ++ seg).length = 2 * j := by
    refine ⟨b.take (2 * i), (b.take (2 * j)).drop (2 * i), b.drop (2 * j), ?_, ?_, ?_⟩
    · have hmin : (b.take (2 * j)).take (2 * i) = b.take (2 * i) := by
        rw [List.take_take, min_eq_left (by omega)]
      rw [← List.append_assoc, ← hmin, List.take_append_drop, List.take_append_drop]
    · rw [List.length_take]
      omega
    · rw [List.length_append, List.length_drop, List.length_take, List.length_take]
      omega
  have hmiddle : ((pre ++ (seg ++ post)).take (2 * j)).drop (2 * i) = seg := by
    rw [← List.append_assoc, List.take_left' hseg, List.drop_left' hpre]
  have hwiden : widen j (pre ++ (seg ++ post)) = pre ++ (seg ++ ([0, 0] ++ post)) := by
    rw [← List.append_assoc, widen_append hseg, List.append_assoc]
  have hzero : [0, 0] ++ (seg ++ post) = seg ++ ([0, 0] ++ post) ↔ ∀ x ∈ seg, x = 0 := by
    rw [← append_zeros_comm_iff, ← List.append_assoc, ← List.append_assoc,
      List.append_cancel_right_eq]
  rw [hmiddle, widen_append hpre', hwiden]
  apply iff_iff_imp
  · intro h
    obtain ⟨rfl, hrest⟩ := List.append_inj h (hpre'.trans hpre.symm)
    rw [List.append_cancel_left_eq, ← hzero, ← hrest, List.append_cancel_left_eq, eq_comm]
  · intro h
    obtain ⟨rfl, rfl⟩ := List.append_inj h (hpre'.trans hpre.symm)
    rw [List.append_cancel_left_eq, hzero]

theorem blocks_widened_iff {i j : ℕ} (ha : Shape (.widened i) a) (hb : Shape (.widened j) b) :
  ((Kind.widened i).blocks a = (Kind.widened j).blocks b ↔ a = b) ↔
    Compatible (.widened i) (.widened j) a b
  := by
  have hlen := ha.length_eq.trans hb.length_eq.symm
  have hi := ha.widened i rfl
  have hj := hb.widened j rfl
  rw [blocks_widened_eq_iff ha hb]
  change _ ↔ (a = b ∨ widen i a = widen j b → _)
  split_ifs with h
  · apply widen_eq_iff h hlen
    rw [hb.length_eq]
    omega
  · have hflip := widen_eq_iff (Nat.le_of_not_le h) hlen.symm (by rw [ha.length_eq]; omega)
    rwa [eq_comm (a := b), eq_comm (a := widen j b)] at hflip

/-- When the blocks tell the addresses apart, and are the same for the same address. -/
theorem blocks_iff (ha : Shape k a) (hb : Shape l b) :
  (k.blocks a = l.blocks b ↔ a = b) ↔ Compatible k l a b
  := by
  by_cases hcount : k.count = l.count
  · cases k <;> cases l
    case plain.plain => simp [blocks_plain_iff ha hb, Compatible]
    case plain.shifted => exact blocks_plain_shifted_iff ha hb
    case shifted.plain =>
      rw [compatible_comm, ← blocks_plain_shifted_iff hb ha, eq_comm (a := a), eq_comm (b := _)]
    case shifted.shifted => simp [blocks_shifted_iff ha hb, Compatible]
    case dotted.dotted => simp [blocks_dotted_iff ha hb, Compatible]
    case widened.widened i j => exact blocks_widened_iff ha hb
    all_goals cases hcount
  · rw [blocks_ne ha hb hcount]
    cases k <;> cases l <;> simp_all [Compatible, Kind.count]

end Pair

/-! ## The texts of addresses -/

/-- The text of an IPv4 address: four decimal numbers up to `255`, which may have zeros in front. -/
structure Ipv4Text where
  octets : List (List Char)
  length_eq : octets.length = 4
  isDigit : ∀ o ∈ octets, o ≠ [] ∧ ∀ c ∈ o, c.isDigit = true
  le : ∀ o ∈ octets, Fields.number o ≤ 255

namespace Ipv4Text

def text (t : Ipv4Text) : List Char :=
  ['.'].intercalate t.octets

def bytes (t : Ipv4Text) : List ℕ :=
  t.octets.map Fields.number

end Ipv4Text

/-- An address. -/
inductive Address where
  | v4 (bytes : List ℕ)
  | v6 (bytes : List ℕ)
deriving DecidableEq

/-- The text of an address. -/
inductive AddressText where
  | v4 (t : Ipv4Text)
  | v6 (t : {t : Ipv6Text // t.Valid})

namespace AddressText

def text : AddressText → List Char
  | .v4 t => t.text
  | .v6 t => t.1.text

def address : AddressText → Address
  | .v4 t => .v4 t.bytes
  | .v6 t => .v6 t.1.bytes

/-- The condition for two texts. -/
def Compatible : AddressText → AddressText → Prop
  | .v6 t, .v6 u => Sessions.Compatible (kind t.1) (kind u.1) t.1.bytes u.1.bytes
  | _, _ => True

/-- The texts that `inet_pton` reads are texts of addresses. -/
theorem exists_of_inetPton {s : List Char} {a : List ℕ} :
  (inetPton4 s = some a → ∃ t : AddressText, t.text = s ∧ t.address = .v4 a) ∧
    (inetPton6 s = some a → ∃ t : AddressText, t.text = s ∧ t.address = .v6 a)
  := by
  constructor
  · intro h
    have hnumber (n : ℕ) : Fields.number (Nat.toDigits 10 n) = n := Nat.ofDigitChars_ten_toDigits
    have hlen := (inetPton4_eq_some h).1
    have hlt := inetPton4_lt h
    refine ⟨.v4 ⟨a.map (Nat.toDigits 10), by simp [hlen], ?_, ?_⟩,
      (eq_intercalate_of_inetPton4 h).symm, ?_⟩
    · intro o ho
      obtain ⟨n, -, rfl⟩ := List.mem_map.mp ho
      exact ⟨Nat.toDigits_ne_nil, fun c hc =>
        Nat.isDigit_of_mem_toDigits (by decide) (by decide) hc⟩
    · intro o ho
      obtain ⟨n, hn, rfl⟩ := List.mem_map.mp ho
      rw [hnumber]
      have := hlt n hn
      omega
    · rw [address, Ipv4Text.bytes, List.map_map]
      simp [Function.comp_def, hnumber]
  · intro h
    obtain ⟨t, hvalid, rfl, rfl⟩ := inetPton6_eq_some_iff.mp h
    exact ⟨.v6 ⟨t, hvalid⟩, rfl, rfl⟩

end AddressText

section Normalize

variable (floatText : ℕ → List Char)

theorem normalizeIp_v4 (t : Ipv4Text) :
  normalizeIp floatText t.text = ['.'].intercalate (t.bytes.map (Nat.toDigits 10))
  := by
  have hne : t.octets ≠ [] := by
    intro hnil
    have hlen := t.length_eq
    rw [hnil] at hlen
    cases hlen
  have hall : t.text ≠ [] ∧ ∀ c ∈ t.text, c.isDigit = true ∨ c = '.' := by
    constructor
    · obtain ⟨o, os, hos⟩ := List.exists_cons_of_ne_nil hne
      obtain ⟨r, hr⟩ := exists_intercalate_cons '.' o os
      have ho := (t.isDigit o (by simp [hos])).1
      rw [Ipv4Text.text, hos, hr]
      simp [ho]
    · intro c hc
      rcases Fields.mem_intercalate hc with hc | ⟨o, ho, hc⟩
      · exact .inr (by simpa using hc)
      · exact .inl ((t.isDigit o ho).2 c hc)
  have hruns : runs Char.isDigit t.text = t.octets := by
    rw [Ipv4Text.text, runs_intercalate (by decide)]
    calc t.octets.flatMap (runs Char.isDigit) = t.octets.flatMap fun o => [o] :=
        List.flatMap_congr fun o ho => runs_of_all (t.isDigit o ho).1 (t.isDigit o ho).2
      _ = t.octets := by simp
  have hnumbers : t.octets.map (numberText floatText) = t.bytes.map (Nat.toDigits 10) := by
    rw [Ipv4Text.bytes, List.map_map]
    apply List.map_congr_left
    intro o ho
    have hle := t.le o ho
    rw [numberText, if_pos (by omega)]
    rfl
  rw [normalizeIp, if_pos hall, normalizeIpv4, hruns, hnumbers]

theorem normalizeIp_v6 {t : Ipv6Text} (h : t.Valid) :
  normalizeIp floatText t.text = render ((kind t).blocks t.bytes)
  := by
  have hcolon : ¬(t.text ≠ [] ∧ ∀ c ∈ t.text, c.isDigit = true ∨ c = '.') := by
    intro hall
    have hmem := hall.2 ':' (inetPton6_eq_some (Ipv6Text.inetPton6_text h)).2.1
    exact absurd hmem (by decide)
  have hshape := shape h
  have hsmall : ∀ v ∈ paddedBlocks t.text, v % 2 ^ 64 = v := by
    intro v hv
    rw [paddedBlocks_text h] at hv
    have hlt := blocks_lt hshape.lt v hv
    exact Nat.mod_eq_of_lt (by omega)
  have hnumbers : normalizeIpv6 t.text = render ((paddedBlocks t.text).map (· % 2 ^ 64)) := by
    have hzero : hexFrom 0 ['0'] = 0 := by decide
    rw [normalizeIpv6, render, paddedBlocks, blockValues]
    simp [Function.comp_def, blockNumber, hzero]
  rw [normalizeIp, if_neg hcolon, hnumbers, List.map_congr_left hsmall, List.map_id',
    paddedBlocks_text h]

/-- Two texts are brought into the same form for the same address, exactly when they are
compatible. -/
theorem normalizeIp_sound_iff (t u : AddressText) :
  (normalizeIp floatText t.text = normalizeIp floatText u.text ↔ t.address = u.address)
    ↔ t.Compatible u
  := by
  have hdigit {c : Char} {w : List Char} {ws : List ℕ} (hw : w ∈ ws.map (Nat.toDigits 10))
      (hc : c ∈ w) : c.isDigit = true := by
    obtain ⟨n, -, rfl⟩ := List.mem_map.mp hw
    exact Nat.isDigit_of_mem_toDigits (by decide) (by decide) hc
  have hrender {t : Ipv6Text} (ht : t.Valid) : (kind t).blocks t.bytes ≠ [] := by
    apply List.ne_nil_of_length_pos
    rw [length_blocks (shape ht)]
    cases kind t <;> simp [Kind.count]
  have hmixed (t : Ipv4Text) {u : Ipv6Text} (hu : u.Valid) :
      normalizeIp floatText t.text ≠ normalizeIp floatText u.text := by
    rw [normalizeIp_v4, normalizeIp_v6 floatText hu]
    have hcolon : ':' ∈ render ((kind u).blocks u.bytes) := by
      rw [← List.count_pos_iff, render, count_intercalate, List.length_map,
        length_blocks (shape hu)]
      · cases kind u <;> simp [Kind.count]
      · intro w hw
        obtain ⟨v, -, rfl⟩ := List.mem_map.mp hw
        exact colon_notMem_formatBlock v
    intro heq
    rw [← heq] at hcolon
    rcases Fields.mem_intercalate hcolon with hc | ⟨w, hw, hc⟩
    · exact absurd hc (by decide)
    · exact absurd (hdigit hw hc) (by decide)
  cases t with
  | v4 t =>
    cases u with
    | v4 u =>
      change (normalizeIp floatText t.text = normalizeIp floatText u.text ↔
        Address.v4 t.bytes = .v4 u.bytes) ↔ True
      rw [normalizeIp_v4, normalizeIp_v4, iff_true, Address.v4.injEq]
      constructor
      · intro h
        have hsplit (v : Ipv4Text) : (['.'].intercalate (v.bytes.map (Nat.toDigits 10))).splitOn '.'
            = v.bytes.map (Nat.toDigits 10) := by
          apply List.splitOn_intercalate
          · intro w hw hmem
            exact absurd (hdigit hw hmem) (by decide)
          · apply List.ne_nil_of_length_pos
            simp [Ipv4Text.bytes, v.length_eq]
        have hmap := (hsplit t).symm.trans ((congrArg _ h).trans (hsplit u))
        have hinj : Function.Injective (Nat.toDigits 10) := fun m n hmn => by
          rw [← Nat.ofDigitChars_ten_toDigits (n := m), hmn, Nat.ofDigitChars_ten_toDigits]
        exact List.map_injective_iff.mpr hinj hmap
      · intro h
        rw [h]
    | v6 u =>
      have hne := hmixed t u.2
      change (normalizeIp floatText t.text = normalizeIp floatText u.1.text ↔
        Address.v4 t.bytes = .v6 u.1.bytes) ↔ True
      simp [hne]
  | v6 t =>
    cases u with
    | v4 u =>
      have hne := (hmixed u t.2).symm
      change (normalizeIp floatText t.1.text = normalizeIp floatText u.text ↔
        Address.v6 t.1.bytes = .v4 u.bytes) ↔ True
      simp [hne]
    | v6 u =>
      change (normalizeIp floatText t.1.text = normalizeIp floatText u.1.text ↔
        Address.v6 t.1.bytes = .v6 u.1.bytes) ↔ _
      rw [normalizeIp_v6 floatText t.2, normalizeIp_v6 floatText u.2,
        render_inj (hrender t.2) (hrender u.2), Address.v6.injEq]
      exact blocks_iff (shape t.2) (shape u.2)

/-- The addresses are compared by their normal forms, once both are valid. -/
def NormalizesBy (checkIpValid : String → Bool) (p : Platform) : Prop :=
  ∀ ip, p.normalizeIp ip
    = if checkIpValid ip then some (String.ofList (normalizeIp floatText ip.toList)) else none

/-- Two texts are brought into the same form for the same address, and a session of SSO is used
from the address that it was created for and from no other one, exactly when the texts are
compatible. -/
theorem ssoClient_iff :
  (∀ t u : AddressText,
      (normalizeIp floatText t.text = normalizeIp floatText u.text ↔ t.address = u.address)
        ↔ t.Compatible u) ∧
    ∀ {Dn : Type} (checkIpValid : String → Bool) (p : Platform) (w : World Dn) (s : Service)
      (ctx : Ctx) (ssoToken : String) (x : Session) (t u : AddressText),
      NormalizesBy floatText checkIpValid p → s.validateSsoClient = true →
      s.getSessionBySessionId p (p.generateSessionId ssoToken) = some (.sso, x) →
      (w.getAccountByName x.username).isSome = true →
      x.ip = String.ofList t.text → checkIpValid x.ip = true →
      ctx.clientAddr = String.ofList u.text → checkIpValid ctx.clientAddr = true →
      ((s.ssoSource p w ctx ssoToken = .ok x ↔ t.address = u.address) ↔ t.Compatible u)
  := by
  refine ⟨normalizeIp_sound_iff floatText, ?_⟩
  intro Dn checkIpValid p w s ctx ssoToken x t u hp hvalidate hsession haccount hip hvalid hclient
    hvalid'
  rw [← normalizeIp_sound_iff floatText t u]
  have hsame : p.sameClient x.ip ctx.clientAddr = true
      ↔ normalizeIp floatText t.text = normalizeIp floatText u.text := by
    rw [Platform.sameClient, hp, hp, if_pos hvalid, if_pos hvalid', hip, hclient]
    simp [String.ofList_inj]
  have hsource : s.ssoSource p w ctx ssoToken = .ok x
      ↔ p.sameClient x.ip ctx.clientAddr = true := by
    have haccount' : (w.getAccountByName x.username).isNone = false := by
      rw [← Option.not_isSome, haccount]
      rfl
    rw [Service.ssoSource, hsession, Option.filter_some,
      if_pos (decide_eq_true rfl)]
    simp only [hvalidate, Bool.true_and, haccount']
    cases p.sameClient x.ip ctx.clientAddr <;> simp
  rw [hsource, hsame]

end Normalize

theorem isGroup_two :
  IsGroup ['2']
  where
  ne_nil := by decide
  length_le := by decide
  isHex c hc := by
    rw [List.mem_singleton.mp hc]
    decide

theorem isGroup_zero :
  IsGroup ['0']
  where
  ne_nil := by decide
  length_le := by decide
  isHex c hc := by
    rw [List.mem_singleton.mp hc]
    decide

/-- `::2`. -/
def shiftedText : AddressText :=
  .v6 ⟨.compressed [] ⟨[['2']], none⟩, by simp, ⟨by simp [isGroup_two], by simp⟩, by decide⟩

/-- `0:0:0:0:0:0:2:0`. -/
def plainText : AddressText :=
  .v6 ⟨.full ⟨[['0'], ['0'], ['0'], ['0'], ['0'], ['0'], ['2'], ['0']], none⟩,
    ⟨by simp [isGroup_two, isGroup_zero], by simp⟩, by decide⟩

/-- A session of SSO from the address `::2`. -/
def ssoSession : Session where
  username := "user"
  accountId := 3
  authType := .localUser
  browserType := none
  token := "token"
  sessionId := "token"
  ip := "::2"
  createdTime := 0
  lastLoginIp := ""
  lastLoginTime := 0
  lastActiveTime := 0
  roleId := [4]
  privilege := []
  ssoToken := none
  sessionMode := none
  validFlag := true
  noValidCheckTime := 0
  systemId := none
  remoteDict := none

def ssoPlatform : Platform :=
  { plainPlatform with
    normalizeIp := fun ip => some (String.ofList (normalizeIp (fun _ => []) ip.toList)) }

def ssoService : Service :=
  { plainService with
    sessions := fun t => if t = .sso then [ssoSession] else []
    validateSsoClient := true }

def ssoWorld : World Unit :=
  { plainWorld "token" with
    accounts := [⟨⟨"user", 3, "", 0, [4], none, none⟩, false, .promptPasswordReset⟩] }

/-- The text of `ssoSession` is one that `inet_pton` reads, and it is compared as the text of the
address read. -/
theorem ssoClient_iff_shifted :
  (∃ t : AddressText, t.text = "::2".toList ∧
      t.address = .v6 [0, 0, 0, 0, 0, 0, 0, 0, 0, 0, 0, 0, 0, 0, 0, 2] ∧
      ((normalizeIp (fun _ => []) t.text = normalizeIp (fun _ => []) plainText.text
          ↔ t.address = plainText.address) ↔ t.Compatible plainText)) ∧
    ((ssoService.ssoSource ssoPlatform ssoWorld { plainCtx with clientAddr := "0:0:0:0:0:0:2:0" }
        "token" = .ok ssoSession ↔ shiftedText.address = plainText.address)
      ↔ shiftedText.Compatible plainText)
  := by
  have hread : inetPton6 "::2".toList = some [0, 0, 0, 0, 0, 0, 0, 0, 0, 0, 0, 0, 0, 0, 0, 2] := by
    decide
  obtain ⟨t, htext, haddress⟩ := AddressText.exists_of_inetPton.2 hread
  constructor
  · exact ⟨t, htext, haddress, (ssoClient_iff fun _ => []).1 t plainText⟩
  · apply (ssoClient_iff fun _ => []).2 (fun _ => true) ssoPlatform ssoWorld ssoService _ _
      ssoSession shiftedText plainText (fun _ => rfl) rfl rfl rfl
    · decide +kernel
    · rfl
    · decide +kernel
    · rfl

/-- The zero group that is missing in front of the groups is appended behind them. -/
theorem normalizeIp_collision :
  normalizeIp (fun _ => []) "::2".toList = normalizeIp (fun _ => []) "0:0:0:0:0:0:2:0".toList ∧
    inetPton6 "::2".toList = some [0, 0, 0, 0, 0, 0, 0, 0, 0, 0, 0, 0, 0, 0, 0, 2] ∧
    inetPton6 "0:0:0:0:0:0:2:0".toList = some [0, 0, 0, 0, 0, 0, 0, 0, 0, 0, 0, 0, 0, 2, 0, 0]
  := by
  have hcolon (s : List Char) (hs : ':' ∈ s) :
      normalizeIp (fun _ => []) s = normalizeIpv6 s := by
    rw [normalizeIp, if_neg fun h => absurd (h.2 _ hs) (by decide)]
  refine ⟨?_, ?_, ?_⟩
  · rw [hcolon _ (by decide), hcolon _ (by decide)]
    decide +kernel
  · decide
  · decide

end Sessions

end BmcAccount
