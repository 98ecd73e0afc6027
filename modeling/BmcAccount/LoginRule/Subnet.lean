import BmcAccount.LoginRule.Address

/-!
# Membership in a subnet

An address is in a subnet when it begins with the same bits. The test of IPv4 addresses masks
words, the bytes of which stand in memory in the order of the network, whatever the order of the
machine; the mask is computed as a number and then brought into that order. The test of IPv6
addresses compares whole bytes, and then what is left of the next byte when its lower bits are
shifted out.
-/

namespace BmcAccount

namespace LoginRule

open Fields Inet

/-! ## The words of the machine -/

/-- The order of the bytes of a word in memory. -/
inductive ByteOrder : Type where
  | little
  | big
  deriving DecidableEq

namespace ByteOrder

/-- The word that has the given bytes in memory: `s_addr`. -/
def sAddr : ByteOrder → List ℕ → BitVec 32
  | .big, bytes => bits bytes
  | .little, bytes => bits bytes.reverse

/-- `htonl`. -/
def htonl : ByteOrder → BitVec 32 → BitVec 32
  | .big, x => x
  | .little, x => x.extractLsb' 0 8 ++ x.extractLsb' 8 8 ++ x.extractLsb' 16 8 ++ x.extractLsb' 24 8

end ByteOrder

/-- `is_ip_in_subnet`, on a machine with the given order of bytes. -/
def isIpInSubnetOn (order : ByteOrder) (ipStr subnetStr : Text) : Bool :=
  match inetPton4 ipStr, scanSubnet 15 subnetStr with
  | some ipAddr, some (subnetIp, mask) =>
    let maskLen := mask.getD 32
    if 32 < maskLen ∨ maskLen < 1 then false
    else match inetPton4 subnetIp with
      | some subnetAddr =>
        let subnetMask := order.htonl (~~~((1#32 <<< (32 - maskLen).toNat) - 1))
        order.sAddr ipAddr &&& subnetMask == order.sAddr subnetAddr &&& subnetMask
      | none => false
  | _, _ => false

/-! ## The mask of an IPv4 address -/

/-- A byte pushed into a word from below. -/
theorem getLsbD_push (n : BitVec 32) {b i : ℕ} (hb : b < 256) (hi : i < 32) :
  (n <<< 8 ||| BitVec.ofNat 32 b).getLsbD i = if i < 8 then b.testBit i else n.getLsbD (i - 8)
  := by
  rw [BitVec.getLsbD_or, BitVec.getLsbD_shiftLeft, BitVec.getLsbD_ofNat]
  by_cases h : i < 8
  · simp [hi, h]
  · have hbit : b.testBit i = false := by
      apply Nat.testBit_lt_two_pow
      exact hb.trans_le (Nat.pow_le_pow_right (by decide : 0 < 2) (Nat.not_lt.mp h))
    simp [hi, h, hbit]

/-- The bits of a word, counted from the highest, are those of the address. -/
theorem getLsbD_bits {a : List ℕ} (hlen : a.length = 4) (ha : ∀ b ∈ a, b < 256) {j : ℕ}
    (hj : j < 32) :
  (bits a).getLsbD (31 - j) = bitAt a j
  := by
  obtain ⟨b₀, b₁, b₂, b₃, rfl⟩ := List.length_eq_four.mp hlen
  simp only [List.mem_cons, List.not_mem_nil, or_false, forall_eq_or_imp, forall_eq] at ha
  obtain ⟨h₀, h₁, h₂, h₃⟩ := ha
  simp only [bits, bitAt, List.foldl_cons, List.foldl_nil]
  rw [getLsbD_push _ h₃ (by omega), getLsbD_push _ h₂ (by omega), getLsbD_push _ h₁ (by omega),
    getLsbD_push _ h₀ (by omega)]
  interval_cases j <;> rfl

/-- The mask has ones from bit `k` on. -/
theorem getLsbD_mask {k i : ℕ} (hk : k < 32) (hi : i < 32) :
  (~~~((1#32 <<< k) - 1)).getLsbD i = decide (k ≤ i)
  := by
  have hpow : 2 ^ k < 2 ^ 32 := Nat.pow_lt_pow_right (by decide) hk
  have hone : 1 ≤ 2 ^ k := Nat.one_le_two_pow
  have hlow : (1#32 <<< k) - 1 = BitVec.ofNat 32 (2 ^ k - 1) := by
    apply BitVec.eq_of_toNat_eq
    have hsucc : 1#32 <<< k = BitVec.ofNat 32 (2 ^ k) := by
      apply BitVec.eq_of_toNat_eq
      simp [Nat.shiftLeft_eq]
    rw [hsucc, BitVec.toNat_sub, BitVec.toNat_ofNat, BitVec.toNat_ofNat,
      show (1 : BitVec 32).toNat = 1 from rfl]
    omega
  rw [BitVec.getLsbD_not, hlow, BitVec.getLsbD_ofNat, Nat.testBit_two_pow_sub_one, decide_eq_true hi,
    Bool.true_and, Bool.true_and, ← decide_not]
  exact decide_eq_decide.mpr Nat.not_lt

/-- Words under a mask are equal when the addresses have the same bits above it. -/
theorem bits_and_mask_eq_iff {a b : List ℕ} (hla : a.length = 4) (hlb : b.length = 4)
    (ha : ∀ x ∈ a, x < 256) (hb : ∀ x ∈ b, x < 256) {m : ℕ} (hm : 1 ≤ m ∧ m ≤ 32) :
  bits a &&& ~~~((1#32 <<< (32 - m)) - 1) = bits b &&& ~~~((1#32 <<< (32 - m)) - 1) ↔
    PrefixEq m a b
  := by
  have hbit (c : List ℕ) {i : ℕ} (hi : i < 32) :
      (bits c &&& ~~~((1#32 <<< (32 - m)) - 1)).getLsbD i
        = ((bits c).getLsbD i && decide (32 - m ≤ i)) := by
    rw [BitVec.getLsbD_and, getLsbD_mask (by omega) hi]
  constructor
  · intro h j hj
    have hj' : j < 32 := by omega
    have hget := congrArg (·.getLsbD (31 - j)) h
    simp only [hbit a (show 31 - j < 32 by omega), hbit b (show 31 - j < 32 by omega),
      show 32 - m ≤ 31 - j by omega, decide_true, Bool.and_true] at hget
    rwa [getLsbD_bits hla ha hj', getLsbD_bits hlb hb hj'] at hget
  · intro h
    apply BitVec.eq_of_getLsbD_eq
    intro i hi
    rw [hbit a hi, hbit b hi]
    by_cases him : 32 - m ≤ i
    · have hget := h (31 - i) (by omega)
      rw [← getLsbD_bits hla ha (by omega), ← getLsbD_bits hlb hb (by omega),
        show 31 - (31 - i) = i by omega] at hget
      rw [hget]
    · simp [him]

/-! ### The order of the bytes -/

namespace ByteOrder

/-- The bytes are turned around. -/
theorem getLsbD_htonl_little (x : BitVec 32) {i : ℕ} (hi : i < 32) :
  (htonl .little x).getLsbD i = x.getLsbD (24 - 8 * (i / 8) + i % 8)
  := by
  simp only [htonl, BitVec.getLsbD_append, BitVec.getLsbD_extractLsb']
  interval_cases i <;> rfl

theorem htonl_and (order : ByteOrder) (x y : BitVec 32) :
  order.htonl (x &&& y) = order.htonl x &&& order.htonl y
  := by
  cases order with
  | big => rfl
  | little =>
    apply BitVec.eq_of_getLsbD_eq
    intro i hi
    simp only [getLsbD_htonl_little _ hi, BitVec.getLsbD_and]

theorem htonl_injective (order : ByteOrder) :
  Function.Injective order.htonl
  := by
  intro x y h
  cases order with
  | big => exact h
  | little =>
    apply BitVec.eq_of_getLsbD_eq
    intro i hi
    have hget := congrArg (·.getLsbD (24 - 8 * (i / 8) + i % 8)) h
    simp only [getLsbD_htonl_little _ (show 24 - 8 * (i / 8) + i % 8 < 32 by omega)] at hget
    rwa [show 24 - 8 * ((24 - 8 * (i / 8) + i % 8) / 8) + (24 - 8 * (i / 8) + i % 8) % 8 = i by
      omega] at hget

/-- The bytes of an address are in the order of the network. -/
theorem htonl_bits (order : ByteOrder) {a : List ℕ} (hlen : a.length = 4)
    (ha : ∀ b ∈ a, b < 256) :
  order.htonl (bits a) = order.sAddr a
  := by
  cases order with
  | big => rfl
  | little =>
    apply BitVec.eq_of_getLsbD_eq
    intro i hi
    have hrev : ∀ b ∈ a.reverse, b < 256 := fun b hb => ha b (List.mem_reverse.mp hb)
    have hword := getLsbD_bits hlen ha (show 31 - (24 - 8 * (i / 8) + i % 8) < 32 by omega)
    have hword' := getLsbD_bits (by rwa [List.length_reverse]) hrev (show 31 - i < 32 by omega)
    rw [show 31 - (31 - (24 - 8 * (i / 8) + i % 8)) = 24 - 8 * (i / 8) + i % 8 by omega] at hword
    rw [show 31 - (31 - i) = i by omega] at hword'
    rw [getLsbD_htonl_little _ hi, hword, sAddr, hword']
    obtain ⟨b₀, b₁, b₂, b₃, rfl⟩ := List.length_eq_four.mp hlen
    interval_cases i <;> rfl

end ByteOrder

/-- Whatever the order of the bytes, the test compares the numbers that the addresses stand for. -/
theorem isIpInSubnetOn_eq (order : ByteOrder) (ip subnet : Text) :
  isIpInSubnetOn order ip subnet = isIpInSubnet ip subnet
  := by
  unfold isIpInSubnetOn isIpInSubnet
  cases ha : inetPton4 ip with
  | none => rfl
  | some a =>
    cases scanSubnet 15 subnet with
    | none => rfl
    | some p =>
      obtain ⟨subnetIp, mask⟩ := p
      simp only
      apply ite_congr rfl fun _ => rfl
      intro _
      cases hb : inetPton4 subnetIp with
      | none => rfl
      | some b =>
        rw [Bool.eq_iff_iff, beq_iff_eq, beq_iff_eq,
          ← order.htonl_bits (inetPton4_eq_some ha).1 (inetPton4_lt ha),
          ← order.htonl_bits (inetPton4_eq_some hb).1 (inetPton4_lt hb), ← order.htonl_and,
          ← order.htonl_and, order.htonl_injective.eq_iff]

/-! ## The texts of subnets -/

/-- The text of an address, which has no slash and is not too long, is scanned whole. -/
theorem scanSubnet_address {w : ℕ} {s : Text} (hne : s ≠ []) (hlen : s.length ≤ w) (h : '/' ∉ s) :
  scanSubnet w s = some (s, none)
  := by
  have htake : s.takeWhile (· ≠ '/') = s := by
    rw [List.takeWhile_eq_self_iff]
    intro c hc
    rw [decide_eq_true_eq]
    rintro rfl
    exact h hc
  unfold scanSubnet
  rw [htake, List.take_of_length_le hlen]
  simp [hne, lit]

theorem scanSubnet_mask {w : ℕ} {s digits : Text} (hne : s ≠ []) (hlen : s.length ≤ w)
    (h : '/' ∉ s) (hdne : digits ≠ []) (hdigits : ∀ c ∈ digits, c.isDigit = true) :
  scanSubnet w (s ++ '/' :: digits) = some (s, some (number digits : ℤ))
  := by
  have htake : (s ++ '/' :: digits).takeWhile (· ≠ '/') = s := by
    rw [List.takeWhile_append_of_pos]
    · simp
    · intro c hc
      rw [decide_eq_true_eq]
      rintro rfl
      exact h hc
  have hscan := scanInt_append (r := []) hdne hdigits (by simp [StopsDigits])
  rw [List.append_nil] at hscan
  unfold scanSubnet
  rw [htake, List.take_of_length_le hlen]
  simp [hne, lit, hscan]

theorem ne_nil_of_addr {s : Text} {a : List ℕ} (h : inetPton4 s = some a ∨ inetPton6 s = some a) :
  s ≠ [] ∧ '/' ∉ s
  := by
  constructor
  · rintro rfl
    rcases h with h | h
    · rw [show inetPton4 [] = none by decide] at h
      cases h
    · rw [show inetPton6 [] = none by decide] at h
      cases h
  · intro hslash
    have hchar : AddrChar '/' := by
      rcases h with h | h
      · exact addrChar_of_inetPton4 h _ hslash
      · exact (inetPton6_eq_some h).2.2 _ hslash
    exact absurd hchar (by unfold AddrChar; decide)

/-! ## The two tests -/

/-- A test of membership, on the texts that `pton` reads as addresses of `len` bytes: it holds of
a subnet when the addresses have the first bits in common, and of an address when they are equal. -/
def TestsSubnet (test : Text → Text → Bool) (pton : Text → Option (List ℕ)) (len : ℕ) : Prop :=
  ∀ (ip net : Text) (a n : List ℕ), pton ip = some a → pton net = some n →
    (∀ (digits : Text), digits ≠ [] → (∀ c ∈ digits, c.isDigit = true) →
      1 ≤ number digits → number digits ≤ 8 * len →
      (test ip (net ++ '/' :: digits) = true ↔ PrefixEq (number digits) a n)) ∧
    (test ip net = true ↔ a = n)

theorem testsSubnet_isIpInSubnet :
  TestsSubnet isIpInSubnet inetPton4 4
  := by
  intro ip net a n ha hn
  obtain ⟨hla, -, -⟩ := inetPton4_eq_some ha
  obtain ⟨hln, hnet, -⟩ := inetPton4_eq_some hn
  obtain ⟨hne, hslash⟩ := ne_nil_of_addr (.inl hn)
  have hmask (m : ℕ) (h1 : 1 ≤ m) (h2 : m ≤ 32) := bits_and_mask_eq_iff hla hln
    (inetPton4_lt ha) (inetPton4_lt hn) ⟨h1, h2⟩
  constructor
  · intro digits hdne hdigits h1 h2
    unfold isIpInSubnet
    rw [ha, scanSubnet_mask hne hnet hslash hdne hdigits]
    simp only [Option.getD_some]
    rw [if_neg (by omega)]
    simp only [hn]
    rw [beq_iff_eq, ← hmask _ h1 h2, show (32 - (number digits : ℤ)).toNat = 32 - number digits by
      omega]
  · unfold isIpInSubnet
    rw [ha, scanSubnet_address hne hnet hslash]
    simp only [Option.getD_none]
    rw [if_neg (by decide)]
    simp only [hn]
    rw [beq_iff_eq]
    have hall := hmask 32 (by decide) le_rfl
    have hlen := prefixEq_length_iff (inetPton4_lt ha) (inetPton4_lt hn) (hla.trans hln.symm)
    rw [hla] at hlen
    exact hall.trans hlen

theorem testsSubnet_isIpv6InSubnet :
  TestsSubnet isIpv6InSubnet inetPton6 16
  := by
  intro ip net a n ha hn
  obtain ⟨hla, hba⟩ := inetPton6_lt ha
  obtain ⟨hln, hbn⟩ := inetPton6_lt hn
  obtain ⟨hne, hslash⟩ := ne_nil_of_addr (.inr hn)
  have hnet := (inetPton6_eq_some hn).1
  have hlen : n.length = a.length := hln.trans hla.symm
  constructor
  · intro digits hdne hdigits h1 h2
    have hm := Nat.div_add_mod (number digits) 8
    have hprefix := prefixEq_iff hbn hba (Nat.mod_lt (number digits) (by decide))
      (number digits / 8)
    rw [hm, ← take_eq_take_iff hlen (by omega)] at hprefix
    have hsymm : PrefixEq (number digits) a n ↔ PrefixEq (number digits) n a :=
      ⟨fun h j hj => (h j hj).symm, fun h j hj => (h j hj).symm⟩
    unfold isIpv6InSubnet
    rw [ha, scanSubnet_mask hne hnet hslash hdne hdigits]
    simp only [Option.getD_some]
    rw [if_neg (by omega)]
    simp only [hn, Int.toNat_natCast]
    rw [hsymm, hprefix, Bool.and_eq_true, Bool.or_eq_true, beq_iff_eq, beq_iff_eq, beq_iff_eq]
    apply and_congr_right
    intro _
    apply or_iff_right_of_imp
    intro h16
    rw [h16, List.getD_eq_default _ _ hln.le, List.getD_eq_default _ _ hla.le]
  · unfold isIpv6InSubnet
    rw [ha, scanSubnet_address hne hnet hslash]
    simp only [Option.getD_none]
    rw [if_neg (by decide)]
    simp only [hn]
    rw [Bool.and_eq_true, beq_iff_eq, show (128 : ℤ).toNat / 8 = 16 from rfl,
      List.take_of_length_le hln.le, List.take_of_length_le hla.le, and_iff_left (by rfl)]
    exact eq_comm

/-- Both tests are tests of membership, the first one on machines of either order of bytes. -/
theorem testsSubnet (order : ByteOrder) :
  TestsSubnet (isIpInSubnetOn order) inetPton4 4 ∧ TestsSubnet isIpv6InSubnet inetPton6 16
  := by
  refine ⟨?_, testsSubnet_isIpv6InSubnet⟩
  intro ip net a n ha hn
  simpa only [isIpInSubnetOn_eq] using testsSubnet_isIpInSubnet ip net a n ha hn

theorem isIpInSubnetOn_31 :
  isIpInSubnetOn .little "10.0.0.1".toList ("10.0.0.0".toList ++ '/' :: ['3', '1']) = true
  := by
  have hnumber : number ['3', '1'] = 31 := rfl
  apply (((testsSubnet .little).1 "10.0.0.1".toList "10.0.0.0".toList [10, 0, 0, 1] [10, 0, 0, 0]
    (by decide) (by decide)).1 ['3', '1'] (by decide) (by simp) (by rw [hnumber]; decide)
    (by rw [hnumber]; decide)).mpr
  rw [hnumber]
  unfold PrefixEq
  decide

end LoginRule

end BmcAccount
