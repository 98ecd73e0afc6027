import BmcAccount.Lib.Ipv6Text

/-!
# Rendering IPv6 addresses

The sixteen bytes of an address that a request brings are written as a text: first in eight groups
of four digits, then without needless zeros, with the first run of zero groups left out between two
colons. The first colon of such a run is that of the group in front of it, or one that the text
begins with, and at the end of the text a group `0` is written and taken away again.
-/

namespace BmcAccount

namespace Ipv6

open Inet

/-! ## The functions -/

/-- `string.sub(s, i, j)`, with positions from `1` on. -/
def sub (s : List Char) (i j : ℕ) : List Char :=
  (s.take j).drop (i - 1)

/-- `%.2x` of a byte. -/
def hexByte (b : UInt8) : List Char :=
  [Nat.digitChar (b.toNat / 16), Nat.digitChar (b.toNat % 16)]

/-- `%p`. -/
def isPunct (c : Char) : Bool :=
  (33 ≤ c.toNat && c.toNat ≤ 47) || (58 ≤ c.toNat && c.toNat ≤ 64)
    || (91 ≤ c.toNat && c.toNat ≤ 96) || (123 ≤ c.toNat && c.toNat ≤ 126)

/-- `hex:gsub('%x%x', …)`: two digits become a byte, any other character is one. -/
def pack : List Char → List ℕ
  | c :: d :: s =>
    match hexValue c, hexValue d with
    | some x, some y => (16 * x + y) :: pack s
    | _, _ => c.toNat :: pack (d :: s)
  | [c] => [c.toNat]
  | [] => []

/-- `from_hex`. -/
def fromHex (s : List Char) : List ℕ :=
  pack ((s.filter fun c => !(Fields.isSpace c || isPunct c)).map Char.toUpper)

/-- `to_value`; there is no value when a byte is missing. -/
def toValue (s : List Char) : Option ℕ :=
  let hexs := fromHex (s.flatMap fun c => if (hexValue c).isSome then ['0', c] else [c])
  (List.range s.length).foldlM (fun res i => (hexs[i]?).map fun b => res * 16 + b) 0

/-- `format_ipv6_addr`. -/
def formatIpv6Addr (s : List Char) : List Char :=
  let ipv6Addr :=
    (List.range' 1 8).foldl (fun a i => a ++ sub s ((i - 1) * 4 + 1) (i * 4) ++ [':']) []
  sub ipv6Addr 1 (ipv6Addr.length - 1)

/-- The local variables of `delete_zero_addr`. -/
structure Acc where
  ipv6Addr : List Char
  zreoFlag : Bool
  count : ℕ

/-- The body of the loop of `delete_zero_addr`. -/
def zeroStep (acc : Acc) (temp : List Char) : Option Acc :=
  if temp ≠ ['0', '0', '0', '0'] ∨ 0 < acc.count then
    (toValue temp).map fun v =>
      { ipv6Addr := acc.ipv6Addr ++ (if acc.zreoFlag then [':'] else []) ++ Nat.toDigits 16 v
          ++ [':']
        zreoFlag := false
        count := if acc.zreoFlag then acc.count + 1 else acc.count }
  else some { acc with zreoFlag := true }

/-- What `delete_zero_addr` does after its loop. -/
def finish (acc : Acc) : List Char :=
  let ipv6Addr := if acc.zreoFlag ∧ acc.count = 0 then acc.ipv6Addr ++ [':', '0', ':']
    else acc.ipv6Addr
  let str := sub ipv6Addr 1 (ipv6Addr.length - 1)
  if 3 ≤ str.length ∧ str.drop (str.length - 3) = [':', ':', '0'] then str.take (str.length - 1)
  else str

/-- `delete_zero_addr`. -/
def deleteZeroAddr (s : List Char) : Option (List Char) :=
  let start := if sub s 1 4 = ['0', '0', '0', '0'] then [':'] else []
  ((List.range' 1 8).foldlM (fun acc i => zeroStep acc (sub s ((i - 1) * 5 + 1) (i * 5 - 1)))
    ⟨start, false, 0⟩).map finish

/-- `simplify_ipmi_ipv6_req`, on a request of sixteen bytes. -/
def simplifyIpmiIpv6Req (addrReq : Fin 16 → UInt8) : Option (List Char) :=
  deleteZeroAddr (formatIpv6Addr ((List.ofFn addrReq).flatMap hexByte))

example : (simplifyIpmiIpv6Req ![0xfe, 0x80, 0, 0, 0, 0, 0, 0, 0, 0, 0, 0, 0, 0, 0, 0]).map
    String.ofList = some "fe80::" := by decide +kernel

/-! ## Groups and their values -/

/-- A group of four digits. -/
def hex4 (v : ℕ) : List Char :=
  [Nat.digitChar (v / 4096), Nat.digitChar (v / 256 % 16), Nat.digitChar (v / 16 % 16),
    Nat.digitChar (v % 16)]

theorem hexValue_digitChar {d : ℕ} (hd : d < 16) :
  hexValue (Nat.digitChar d) = some d
  := by
  interval_cases d <;> decide

/-- The digits of a number denote it. -/
theorem hexFrom_toDigits (v : ℕ) :
  hexFrom 0 (Nat.toDigits 16 v) = v
  := by
  induction v using Nat.strong_induction_on with
  | _ v ih =>
    by_cases hv : v < 16
    · rw [Nat.toDigits_of_lt_base hv]
      simp [hexFrom, hexValue_digitChar hv]
    · have hlt : v / 16 < v := Nat.div_lt_self (by omega) (by decide)
      have hrec := ih _ hlt
      rw [Nat.toDigits_of_base_le (by decide) (Nat.not_lt.mp hv)]
      simp only [hexFrom, List.foldl_append, List.foldl_cons, List.foldl_nil,
        hexValue_digitChar (Nat.mod_lt v (by decide : 0 < 16)), Option.getD_some] at hrec ⊢
      rw [hrec]
      omega

theorem isHex_toDigits {v : ℕ} {c : Char} (h : c ∈ Nat.toDigits 16 v) :
  (hexValue c).isSome = true
  := by
  induction v using Nat.strong_induction_on with
  | _ v ih =>
    by_cases hv : v < 16
    · rw [Nat.toDigits_of_lt_base hv, List.mem_singleton] at h
      rw [h, hexValue_digitChar hv]
      rfl
    · rw [Nat.toDigits_of_base_le (by decide) (Nat.not_lt.mp hv), List.mem_append,
        List.mem_singleton] at h
      rcases h with h | rfl
      · exact ih _ (Nat.div_lt_self (by omega) (by decide)) h
      · rw [hexValue_digitChar (Nat.mod_lt v (by decide))]
        rfl

theorem isGroup_toDigits {v : ℕ} (hv : v < 65536) :
  IsGroup (Nat.toDigits 16 v)
  where
  ne_nil := Nat.toDigits_ne_nil
  length_le := (Nat.length_toDigits_le_iff (by decide) (by decide)).mpr hv
  isHex _ := isHex_toDigits

theorem hexValue_toUpper_digitChar {d : ℕ} (hd : d < 16) :
  hexValue (Nat.digitChar d).toUpper = some d
  := by
  interval_cases d <;> decide

theorem not_separator_digitChar {d : ℕ} (hd : d < 16) :
  (Fields.isSpace (Nat.digitChar d) || isPunct (Nat.digitChar d)) = false
  := by
  interval_cases d <;> decide

/-- Digits, each with a zero in front, are packed into bytes. -/
theorem fromHex_digits {ds : List ℕ} (hds : ∀ d ∈ ds, d < 16) :
  fromHex (ds.flatMap fun d => ['0', Nat.digitChar d]) = ds
  := by
  induction ds with
  | nil => rfl
  | cons d ds ih =>
    rw [List.forall_mem_cons] at hds
    have hzero : (Fields.isSpace '0' || isPunct '0') = false := by decide
    have hvalue : hexValue '0'.toUpper = some 0 := by decide
    have ih := ih hds.2
    unfold fromHex at ih ⊢
    simp only [List.flatMap_cons, List.cons_append, List.nil_append, List.filter_cons,
      not_separator_digitChar hds.1, hzero, Bool.not_false, if_true, List.map_cons, pack,
      hexValue_toUpper_digitChar hds.1, hvalue, ih, Nat.mul_zero, Nat.zero_add]

/-- Digits are read back. -/
theorem toValue_digits {ds : List ℕ} (hds : ∀ d ∈ ds, d < 16) :
  toValue (ds.map Nat.digitChar) = some (ds.foldl (fun v d => v * 16 + d) 0)
  := by
  have hzeros : (ds.map Nat.digitChar).flatMap
      (fun c => if (hexValue c).isSome then ['0', c] else [c])
      = ds.flatMap fun d => ['0', Nat.digitChar d] := by
    rw [List.flatMap_map]
    apply List.flatMap_congr
    intro d hd
    rw [hexValue_digitChar (hds d hd)]
    rfl
  have hrange (l : List ℕ) (v : ℕ) :
      (List.range l.length).foldlM (fun res i => (l[i]?).map fun b => res * 16 + b) v
        = some (l.foldl (fun v d => v * 16 + d) v) := by
    induction l generalizing v with
    | nil => rfl
    | cons d l ih =>
      rw [List.length_cons, List.range_succ_eq_map, List.foldlM_cons]
      simpa [List.foldlM_map] using ih (v * 16 + d)
  unfold toValue
  rw [hzeros, fromHex_digits hds, List.length_map]
  exact hrange ds 0

theorem toValue_hex4 {v : ℕ} (hv : v < 65536) :
  toValue (hex4 v) = some v
  := by
  have hds : ∀ d ∈ [v / 4096, v / 256 % 16, v / 16 % 16, v % 16], d < 16 := by
    simp
    omega
  have h := toValue_digits hds
  rw [hex4]
  simp only [List.map_cons, List.map_nil, List.foldl_cons, List.foldl_nil] at h
  rw [h, Option.some_inj]
  omega

theorem hex4_eq_zero_iff {v : ℕ} (hv : v < 65536) :
  hex4 v = ['0', '0', '0', '0'] ↔ v = 0
  := by
  simp only [hex4, List.cons.injEq, and_true, Nat.digitChar_eq_zero]
  omega

theorem hex4_bytes (a b : UInt8) :
  hex4 (256 * a.toNat + b.toNat) = hexByte a ++ hexByte b
  := by
  have ha := a.toNat_lt
  have hb := b.toNat_lt
  simp only [hex4, hexByte, List.cons_append, List.nil_append, List.cons.injEq, and_true]
  refine ⟨congrArg _ ?_, congrArg _ ?_, congrArg _ ?_, congrArg _ ?_⟩ <;> omega

/-! ## The groups of a request -/

/-- The values of the eight groups of an address. -/
def values (addr : Fin 16 → UInt8) : List ℕ :=
  List.ofFn fun k : Fin 8 =>
    256 * (addr ⟨2 * k, by omega⟩).toNat + (addr ⟨2 * k + 1, by omega⟩).toNat

theorem lt_of_mem_values {addr : Fin 16 → UInt8} {v : ℕ} (h : v ∈ values addr) :
  v < 65536
  := by
  obtain ⟨k, hk⟩ := (List.mem_ofFn' _ _).mp h
  have h₁ := (addr ⟨2 * k, by omega⟩).toNat_lt
  have h₂ := (addr ⟨2 * k + 1, by omega⟩).toNat_lt
  simp only at hk
  omega

/-- The bytes of the groups are those of the address. -/
theorem groupBytes_values (addr : Fin 16 → UInt8) :
  ((values addr).map (Nat.toDigits 16)).flatMap groupBytes = (List.ofFn addr).map UInt8.toNat
  := by
  have hbytes (a b : UInt8) :
      groupBytes (Nat.toDigits 16 (256 * a.toNat + b.toNat)) = [a.toNat, b.toNat] := by
    have hb := b.toNat_lt
    rw [groupBytes, hexFrom_toDigits]
    congr 1
    · omega
    · congr 1
      omega
  simp [values, List.ofFn_succ, hbytes]

theorem flatten_values (addr : Fin 16 → UInt8) :
  ((values addr).map hex4).flatten = (List.ofFn addr).flatMap hexByte
  := by
  simp [values, List.ofFn_succ, hex4_bytes]

/-- A piece of a text of blocks of the same width. -/
theorem sub_flatten {w : ℕ} {bs : List (List Char)} (hbs : ∀ b ∈ bs, b.length = w) {k r : ℕ}
    (hk : k < bs.length) (hr : r ≤ w) :
  sub bs.flatten (k * w + 1) (k * w + r) = bs[k].take r
  := by
  unfold sub
  rw [Nat.add_sub_cancel]
  induction bs generalizing k with
  | nil => exact absurd hk (Nat.not_lt_zero k)
  | cons b bs ih =>
    rw [List.forall_mem_cons] at hbs
    cases k with
    | zero =>
      rw [Nat.zero_mul, Nat.zero_add, List.drop_zero, List.flatten_cons,
        List.take_append_of_le_length (hbs.1.symm ▸ hr)]
      rfl
    | succ k =>
      have hrec := ih hbs.2 (Nat.lt_of_succ_lt_succ hk)
      rw [List.flatten_cons, Nat.succ_mul, Nat.add_right_comm, ← hbs.1, List.take_append,
        List.take_of_length_le (Nat.le_add_left _ _), Nat.add_sub_cancel, List.drop_append,
        List.drop_eq_nil_of_le (Nat.le_add_left _ _), Nat.add_sub_cancel, List.nil_append, hbs.1,
        hrec]
      rfl

theorem foldl_append_colon (f : ℕ → List Char) (l : List ℕ) (s : List Char) :
  l.foldl (fun a i => a ++ f i ++ [':']) s = s ++ frontText (l.map f)
  := by
  induction l generalizing s with
  | nil => simp [frontText]
  | cons i l ih =>
    rw [List.foldl_cons, ih]
    simp [frontText]

theorem take_snoc (s : List Char) (c : Char) :
  (s ++ [c]).take ((s ++ [c]).length - 1) = s
  := by
  simp

/-- The last character is taken away. -/
theorem sub_snoc (s : List Char) (c : Char) :
  sub (s ++ [c]) 1 ((s ++ [c]).length - 1) = s
  := by
  rw [sub, take_snoc, Nat.sub_self, List.drop_zero]

theorem sub_frontText {gs : List (List Char)} (h : gs ≠ []) :
  sub (frontText gs) 1 ((frontText gs).length - 1) = [':'].intercalate gs
  := by
  rw [← intercalate_append_colon h, sub_snoc]

/-- Eight groups of four digits are put between colons, and taken from there. -/
theorem formatIpv6Addr_flatten {gs : List (List Char)} (hgs : ∀ g ∈ gs, g.length = 4)
    (hlen : gs.length = 8) :
  formatIpv6Addr gs.flatten = [':'].intercalate gs ∧
    (List.range' 1 8).map (fun i => sub ([':'].intercalate gs) ((i - 1) * 5 + 1) (i * 5 - 1)) = gs
  := by
  have hne : gs ≠ [] := List.ne_nil_of_length_eq_add_one hlen
  constructor
  · have hmap : (List.range' 1 8).map (fun i => sub gs.flatten ((i - 1) * 4 + 1) (i * 4)) = gs := by
      apply List.ext_getElem (by rw [List.length_map, List.length_range', hlen])
      intro k hk hk'
      have hsub := sub_flatten hgs hk' (r := 4) le_rfl
      rw [List.take_of_length_le (hgs _ (List.getElem_mem hk')).le] at hsub
      rw [List.getElem_map, List.getElem_range', Nat.one_mul, Nat.add_sub_cancel_left,
        show (1 + k) * 4 = k * 4 + 4 by omega]
      exact hsub
    unfold formatIpv6Addr
    simp only [foldl_append_colon, List.nil_append, hmap]
    exact sub_frontText hne
  · have hblocks : ∀ b ∈ gs.map (· ++ [':']), b.length = 5 := by
      intro b hb
      obtain ⟨g, hg, rfl⟩ := List.mem_map.mp hb
      rw [List.length_append, hgs g hg]
      rfl
    have hfront : frontText gs = (gs.map (· ++ [':'])).flatten := List.flatMap_def
    have hlen' : ([':'].intercalate gs).length = 39 := by
      have hwidths : (gs.map (· ++ [':'])).map List.length = List.replicate 8 5 := by
        rw [List.eq_replicate_iff, List.length_map, List.length_map]
        exact ⟨hlen, by simpa using hblocks⟩
      have hsum := congrArg List.length (intercalate_append_colon hne)
      rw [hfront, List.length_flatten, hwidths, List.length_append, List.length_singleton] at hsum
      exact Nat.succ_injective hsum
    apply List.ext_getElem (by rw [List.length_map, List.length_range', hlen])
    intro k hk hk'
    have hsub := sub_flatten hblocks (k := k) (r := 4) (by rwa [List.length_map]) (by decide)
    rw [List.getElem_map, List.take_left' (hgs _ (List.getElem_mem hk')), ← hfront,
      ← intercalate_append_colon hne] at hsub
    rw [List.getElem_map, List.getElem_range', Nat.one_mul, Nat.add_sub_cancel_left,
      show (1 + k) * 5 - 1 = k * 5 + 4 by omega, ← hsub]
    unfold sub
    rw [List.take_append_of_le_length (by rw [hlen']; omega)]

/-! ## The loop -/

/-- The body of the loop, on the value of a group. -/
def valueStep (acc : Acc) (v : ℕ) : Acc :=
  if v ≠ 0 ∨ 0 < acc.count then
    { ipv6Addr := acc.ipv6Addr ++ (if acc.zreoFlag then [':'] else []) ++ Nat.toDigits 16 v ++ [':']
      zreoFlag := false
      count := if acc.zreoFlag then acc.count + 1 else acc.count }
  else { acc with zreoFlag := true }

theorem zeroStep_hex4 (acc : Acc) {v : ℕ} (hv : v < 65536) :
  zeroStep acc (hex4 v) = some (valueStep acc v)
  := by
  unfold zeroStep valueStep
  simp only [ne_eq, hex4_eq_zero_iff hv]
  split_ifs
  all_goals first | rfl | rw [toValue_hex4 hv]; rfl

theorem foldlM_zeroStep {vs : List ℕ} (hvs : ∀ v ∈ vs, v < 65536) (acc : Acc) :
  (vs.map hex4).foldlM zeroStep acc = some (vs.foldl valueStep acc)
  := by
  induction vs generalizing acc with
  | nil => rfl
  | cons v vs ih =>
    rw [List.forall_mem_cons] at hvs
    rw [List.map_cons, List.foldlM_cons, zeroStep_hex4 acc hvs.1]
    exact ih hvs.2 _

/-- The groups of values. -/
def groups (vs : List ℕ) : List (List Char) :=
  vs.map (Nat.toDigits 16)

/-- Groups that are written: those before the first zero, and all after a run of zeros. -/
theorem foldl_written {vs : List ℕ} {c : ℕ} (hvs : ∀ v ∈ vs, v ≠ 0 ∨ 0 < c) (s : List Char) :
  vs.foldl valueStep ⟨s, false, c⟩ = ⟨s ++ frontText (groups vs), false, c⟩
  := by
  induction vs generalizing s with
  | nil => simp [groups, frontText]
  | cons v vs ih =>
    rw [List.forall_mem_cons] at hvs
    have hstep : valueStep ⟨s, false, c⟩ v = ⟨s ++ Nat.toDigits 16 v ++ [':'], false, c⟩ := by
      unfold valueStep
      rw [if_pos hvs.1]
      simp
    rw [List.foldl_cons, hstep, ih hvs.2]
    simp [groups, frontText]

/-- The first run of zeros is passed over. -/
theorem foldl_zeros (s : List Char) (z : Bool) (k : ℕ) :
  (List.replicate (k + 1) 0).foldl valueStep ⟨s, z, 0⟩ = ⟨s, true, 0⟩
  := by
  induction k generalizing z with
  | zero => simp [valueStep]
  | succ k ih =>
    rw [List.replicate_succ, List.foldl_cons]
    have hstep : valueStep ⟨s, z, 0⟩ 0 = ⟨s, true, 0⟩ := by
      simp [valueStep]
    rw [hstep, ih]

/-- A list begins with its members before the first zero and a run of zeros. -/
theorem split_zeros (vs : List ℕ) :
  ∃ front k rest, vs = front ++ List.replicate k 0 ++ rest ∧ (∀ v ∈ front, v ≠ 0) ∧
    (k = 0 → rest = []) ∧ ∀ v ∈ rest.head?, v ≠ 0
  := by
  induction vs with
  | nil => exact ⟨[], 0, [], rfl, by simp, by simp, by simp⟩
  | cons v vs ih =>
    obtain ⟨front, k, rest, rfl, hfront, hk, hrest⟩ := ih
    by_cases hv : v = 0
    · subst hv
      cases front with
      | nil => exact ⟨[], k + 1, rest, by simp [List.replicate_succ], by simp, by simp, hrest⟩
      | cons w front =>
        refine ⟨[], 1, w :: front ++ List.replicate k 0 ++ rest, by simp, by simp, by simp, ?_⟩
        simpa using hfront w List.mem_cons_self
    · exact ⟨v :: front, k, rest, by simp, by simpa [hv] using hfront, hk, hrest⟩

/-! ## The end of the text -/

theorem frontText_append (gs : List (List Char)) (g : List Char) :
  frontText (gs ++ [g]) = frontText gs ++ g ++ [':']
  := by
  simp [frontText]

/-- A text with a last group, which is `0` only after another group, does not end in `::0`. -/
theorem not_ends {us : List ℕ} {u : ℕ} (hu : u ≠ 0 ∨ us ≠ []) (s y : List Char) :
  s ++ [':'].intercalate (groups (us ++ [u])) ≠ y ++ [':', ':', '0']
  := by
  intro h
  have hlast : [':'].intercalate (groups (us ++ [u]))
      = frontText (groups us) ++ Nat.toDigits 16 u := by
    have hne : groups (us ++ [u]) ≠ [] := by simp [groups]
    have hfront := intercalate_append_colon hne
    rw [groups, List.map_append, List.map_singleton, frontText_append] at hfront
    rw [groups, List.map_append, List.map_singleton]
    exact List.append_cancel_right hfront
  have hcolon : (hexValue ':').isSome = false := by decide
  rw [hlast] at h
  have hrev := congrArg List.reverse h
  simp only [List.reverse_append, List.reverse_cons, List.reverse_nil, List.nil_append,
    List.append_assoc, List.cons_append] at hrev
  have hhex {v : ℕ} {c : Char} (hc : c ∈ (Nat.toDigits 16 v).reverse) :
      (hexValue c).isSome = true := isHex_toDigits (List.mem_reverse.mp hc)
  cases hd : (Nat.toDigits 16 u).reverse with
  | nil => exact Nat.toDigits_ne_nil (List.reverse_eq_nil_iff.mp hd)
  | cons c t =>
    rw [hd, List.cons_append, List.cons.injEq] at hrev
    obtain ⟨hc, hrev⟩ := hrev
    cases t with
    | cons c' t =>
      rw [List.cons_append, List.cons.injEq] at hrev
      have hc' := hhex (v := u) (c := c') (by simp [hd])
      rw [hrev.1, hcolon] at hc'
      cases hc'
    | nil =>
      have hzero : u = 0 := by
        rw [← hexFrom_toDigits u, List.reverse_eq_iff.mp hd, hc]
        rfl
      obtain rfl | ⟨us, u', rfl⟩ := List.eq_nil_or_concat us
      · exact hu.elim (absurd hzero) (absurd rfl)
      · rw [List.concat_eq_append, groups, List.map_append, List.map_singleton,
          frontText_append] at hrev
        simp only [List.nil_append, List.reverse_append, List.reverse_cons, List.reverse_nil,
          List.cons_append, List.append_assoc, List.cons.injEq, true_and] at hrev
        cases hd' : (Nat.toDigits 16 u').reverse with
        | nil => exact Nat.toDigits_ne_nil (List.reverse_eq_nil_iff.mp hd')
        | cons d t =>
          rw [hd', List.cons_append, List.cons.injEq] at hrev
          have hd' := hhex (v := u') (c := d) (by simp [hd'])
          rw [hrev.1, hcolon] at hd'
          cases hd'

theorem drop_eq_iff {s w : List Char} (hlen : w.length ≤ s.length) :
  s.drop (s.length - w.length) = w ↔ ∃ y, s = y ++ w
  := by
  constructor
  · intro h
    use s.take (s.length - w.length)
    have hsplit := List.take_append_drop (s.length - w.length) s
    rw [h] at hsplit
    exact hsplit.symm
  · rintro ⟨y, rfl⟩
    rw [List.length_append, Nat.add_sub_cancel, List.drop_left]

/-- After groups have been written, the last colon is taken away. -/
theorem finish_written {us : List ℕ} {u : ℕ} (hu : u ≠ 0 ∨ us ≠ []) (s : List Char) (c : ℕ) :
  finish ⟨s ++ frontText (groups (us ++ [u])), false, c⟩
    = s ++ [':'].intercalate (groups (us ++ [u]))
  := by
  have hsub : sub (s ++ frontText (groups (us ++ [u]))) 1
      ((s ++ frontText (groups (us ++ [u]))).length - 1)
      = s ++ [':'].intercalate (groups (us ++ [u])) := by
    rw [← intercalate_append_colon (by simp [groups]), ← List.append_assoc, sub_snoc]
  unfold finish
  simp only [Bool.false_eq_true, false_and, if_false, hsub]
  apply if_neg
  rintro ⟨hlen, hdrop⟩
  obtain ⟨y, hy⟩ := (drop_eq_iff (w := [':', ':', '0']) hlen).mp hdrop
  exact not_ends hu s y hy

/-- After a run of zeros at the end, the text ends in two colons. -/
theorem finish_zeros (s : List Char) :
  finish ⟨s ++ [':'], true, 0⟩ = s ++ [':', ':']
  := by
  have hsub : sub (s ++ [':'] ++ [':', '0', ':']) 1 ((s ++ [':'] ++ [':', '0', ':']).length - 1)
      = s ++ [':', ':', '0'] := by
    have hsplit : s ++ [':'] ++ [':', '0', ':'] = (s ++ [':', ':', '0']) ++ [':'] := by
      simp
    rw [hsplit, sub_snoc]
  unfold finish
  simp only [and_self, if_true, hsub]
  have hlen : 3 ≤ (s ++ [':', ':', '0']).length := by simp
  rw [if_pos ⟨hlen, (drop_eq_iff (w := [':', ':', '0']) hlen).mpr ⟨s, rfl⟩⟩]
  have hsplit : s ++ [':', ':', '0'] = (s ++ [':', ':']) ++ ['0'] := by
    simp
  rw [hsplit, take_snoc]

/-! ## The rendering of an address -/

theorem isGroup_groups {vs : List ℕ} (hvs : ∀ v ∈ vs, v < 65536) :
  ∀ g ∈ groups vs, IsGroup g
  := by
  intro g hg
  obtain ⟨v, hv, rfl⟩ := List.mem_map.mp hg
  exact isGroup_toDigits (hvs v hv)

theorem groupBytes_zeros (k : ℕ) :
  (groups (List.replicate k 0)).flatMap groupBytes = List.replicate (2 * k) 0
  := by
  induction k with
  | zero => rfl
  | succ k ih =>
    have hzero : groupBytes (Nat.toDigits 16 0) = [0, 0] := by decide
    rw [List.replicate_succ, groups, List.map_cons, List.flatMap_cons, hzero, Nat.mul_succ,
      Nat.add_comm, List.replicate_add]
    exact congrArg _ ih

/-- The loop where there is a run of zeros: the groups in front of it, two colons, and the groups
after it. -/
theorem finish_compressed {front rest : List ℕ} (hfront : ∀ v ∈ front, v ≠ 0) (k : ℕ)
    (hrest : ∀ v ∈ rest.head?, v ≠ 0) :
  finish ((front ++ List.replicate (k + 1) 0 ++ rest).foldl valueStep
      ⟨if (front ++ List.replicate (k + 1) 0 ++ rest).head? = some 0 then [':'] else [], false, 0⟩)
    = [':'].intercalate (groups front) ++ ':' :: ':' :: [':'].intercalate (groups rest)
  := by
  have hstart : (if (front ++ List.replicate (k + 1) 0 ++ rest).head? = some 0 then [':'] else [])
      ++ frontText (groups front) = [':'].intercalate (groups front) ++ [':'] := by
    cases front with
    | nil => simp [groups, frontText, List.replicate_succ]
    | cons v front =>
      have hv := hfront v List.mem_cons_self
      rw [intercalate_append_colon (by simp [groups])]
      simp [hv]
  rw [List.foldl_append, List.foldl_append, foldl_written fun v hv => Or.inl (hfront v hv), hstart,
    foldl_zeros]
  cases rest with
  | nil =>
    rw [List.foldl_nil, finish_zeros]
    simp [groups]
  | cons r rest =>
    have hr : r ≠ 0 := hrest r rfl
    have hstep : valueStep ⟨[':'].intercalate (groups front) ++ [':'], true, 0⟩ r
        = ⟨[':'].intercalate (groups front) ++ [':', ':'] ++ Nat.toDigits 16 r ++ [':'], false,
          1⟩ := by
      unfold valueStep
      rw [if_pos (.inl hr)]
      simp
    have htext : [':'].intercalate (groups front) ++ [':', ':'] ++ Nat.toDigits 16 r ++ [':']
          ++ frontText (groups rest)
        = [':'].intercalate (groups front) ++ [':', ':'] ++ frontText (groups (r :: rest)) := by
      simp [groups, frontText]
    rw [List.foldl_cons, hstep, foldl_written fun v _ => Or.inr Nat.one_pos, htext]
    obtain ⟨us, u, hus⟩ := (List.eq_nil_or_concat (r :: rest)).resolve_left (List.cons_ne_nil _ _)
    rw [List.concat_eq_append] at hus
    have hu : u ≠ 0 ∨ us ≠ [] := by
      cases us with
      | nil =>
        rw [List.nil_append, List.cons.injEq] at hus
        exact .inl (hus.1 ▸ hr)
      | cons u' us => exact .inr (List.cons_ne_nil _ _)
    rw [hus, finish_written hu]
    simp

/-- The text that eight groups are given: in full, or with the first run of zeros left out. -/
theorem finish_foldl {vs : List ℕ} (hvs : ∀ v ∈ vs, v < 65536) (hlen : vs.length = 8) :
  ∃ t : Ipv6Text, t.Valid ∧ t.tail.dotted = none ∧ t.bytes = (groups vs).flatMap groupBytes ∧
    finish (vs.foldl valueStep ⟨if vs.head? = some 0 then [':'] else [], false, 0⟩) = t.text
  := by
  obtain ⟨front, k, rest, rfl, hfront, hk, hrest⟩ := split_zeros vs
  have hgroups_front := isGroup_groups fun v (hv : v ∈ front) => hvs v (by simp [hv])
  have hgroups_rest := isGroup_groups fun v (hv : v ∈ rest) => hvs v (by simp [hv])
  simp only [List.length_append, List.length_replicate] at hlen
  cases k with
  | zero =>
    rw [hk rfl, List.length_nil] at hlen
    rw [hk rfl, List.replicate_zero, List.append_nil, List.append_nil]
    have hne : front ≠ [] := List.ne_nil_of_length_pos (by omega)
    have hhead : front.head? ≠ some 0 := fun h => hfront 0 (List.mem_of_mem_head? h) rfl
    refine ⟨.full ⟨groups front, none⟩, ⟨⟨hgroups_front, by simp⟩, ?_⟩, rfl, ?_, ?_⟩
    · simp only [Tail.size, groups, List.length_map, Option.isSome_none, Bool.toNat_false]
      omega
    · simp [Ipv6Text.bytes, Tail.bytes]
    · rw [if_neg hhead, foldl_written fun v hv => Or.inl (hfront v hv)]
      obtain ⟨us, u, rfl⟩ := (List.eq_nil_or_concat front).resolve_left hne
      rw [List.concat_eq_append] at hfront ⊢
      rw [finish_written (.inl (hfront u (by simp)))]
      simp [Ipv6Text.text, Tail.text, Tail.items]
  | succ k =>
    have hsize : 2 * (groups front).length + (Tail.mk (groups rest) none).size + 2 * (k + 1)
        = 16 := by
      simp only [Tail.size, groups, List.length_map, Option.isSome_none, Bool.toNat_false]
      omega
    refine ⟨.compressed (groups front) ⟨groups rest, none⟩,
      ⟨hgroups_front, ⟨hgroups_rest, by simp⟩, by omega⟩, rfl, ?_, ?_⟩
    · have hzeros := groupBytes_zeros (k + 1)
      rw [← show 16 - (2 * (groups front).length + (Tail.mk (groups rest) none).size) = 2 * (k + 1)
        by omega] at hzeros
      have hsplit : (groups (front ++ List.replicate (k + 1) 0 ++ rest)).flatMap groupBytes
          = (groups front).flatMap groupBytes
            ++ (groups (List.replicate (k + 1) 0)).flatMap groupBytes
            ++ (groups rest).flatMap groupBytes := by
        simp only [groups, List.map_append, List.flatMap_append]
      rw [hsplit, hzeros]
      simp [Ipv6Text.bytes, Tail.bytes]
    · rw [finish_compressed hfront k hrest]
      simp [Ipv6Text.text, Tail.text, Tail.items]

/-- What is rendered is a text of groups for the bytes of the address. -/
theorem simplify_spec (addr : Fin 16 → UInt8) :
  ∃ t : Ipv6Text, t.Valid ∧ t.tail.dotted = none ∧ t.bytes = (List.ofFn addr).map UInt8.toNat ∧
    simplifyIpmiIpv6Req addr = some t.text
  := by
  have hlen : (values addr).length = 8 := List.length_ofFn
  have hvs : ∀ v ∈ values addr, v < 65536 := fun v => lt_of_mem_values
  obtain ⟨t, hvalid, hdotted, hbytes, htext⟩ := finish_foldl hvs hlen
  have hgs : ∀ g ∈ (values addr).map hex4, g.length = 4 := by simp [hex4]
  obtain ⟨hformat, hsub⟩ := formatIpv6Addr_flatten hgs (by rw [List.length_map, hlen])
  refine ⟨t, hvalid, hdotted, hbytes.trans (groupBytes_values addr), ?_⟩
  have hstart : (if sub ([':'].intercalate ((values addr).map hex4)) 1 4 = ['0', '0', '0', '0']
      then [':'] else []) = if (values addr).head? = some 0 then [':'] else [] := by
    have hfirst : some (sub ([':'].intercalate ((values addr).map hex4)) 1 4)
        = ((values addr).map hex4).head? := congrArg List.head? hsub
    cases hv : values addr with
    | nil => rw [hv] at hlen; cases hlen
    | cons v vs =>
      rw [hv, List.map_cons, List.head?_cons, Option.some_inj] at hfirst
      rw [List.map_cons, hfirst, List.head?_cons]
      simp only [hex4_eq_zero_iff (hvs v (by simp [hv])), Option.some_inj]
  unfold simplifyIpmiIpv6Req
  rw [← flatten_values, hformat]
  have hloop (acc : Acc) := foldlM_zeroStep hvs acc
  rw [← hsub] at hloop
  simp only [List.foldlM_map] at hloop
  unfold deleteZeroAddr
  simp only [hstart, hloop, Option.map_some, htext]

/-- Every address is rendered as a text of hexadecimal groups with at most one double colon, which
denotes it; so different addresses have different texts. -/
theorem simplifyIpmiIpv6Req_faithful :
  (∀ addr : Fin 16 → UInt8, ∃ t : Ipv6Text, t.Valid ∧ t.tail.dotted = none ∧
      simplifyIpmiIpv6Req addr = some t.text ∧
      inetPton6 t.text = some ((List.ofFn addr).map UInt8.toNat)) ∧
    Function.Injective simplifyIpmiIpv6Req
  := by
  constructor
  · intro addr
    obtain ⟨t, hvalid, hdotted, hbytes, htext⟩ := simplify_spec addr
    exact ⟨t, hvalid, hdotted, htext, hbytes ▸ Ipv6Text.inetPton6_text hvalid⟩
  · intro addr addr' h
    obtain ⟨t, hvalid, -, hbytes, htext⟩ := simplify_spec addr
    obtain ⟨t', hvalid', -, hbytes', htext'⟩ := simplify_spec addr'
    rw [htext, htext', Option.some_inj] at h
    have hsame := Ipv6Text.inetPton6_text hvalid
    rw [h, Ipv6Text.inetPton6_text hvalid', Option.some_inj, hbytes, hbytes'] at hsame
    have hmap := List.map_injective_iff.mpr (fun _ _ => UInt8.toNat_inj.mp) hsame
    exact (List.ofFn_injective hmap).symm

end Ipv6

end BmcAccount
