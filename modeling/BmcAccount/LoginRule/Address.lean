import BmcAccount.Lib.Inet
import BmcAccount.LoginRule.Time
import Mathlib

/-!
# IP and MAC rules

An IP rule is an address, or an address with the length of a mask. Both checks pass the
rule to the same two functions; the manager decides for one of them when the rule is set,
by the format of the whole text, the PAM check when a login is made, by what stands before
the first slash. A MAC rule is a prefix of a MAC address, which the manager compares in
upper case and the PAM check in lower case.

The manager verifies addresses by functions of another package, which are parameters here:
`NetworkCore.Agrees` says that they accept the same texts as those of the PAM check.
-/

namespace BmcAccount

namespace LoginRule

open Fields Inet

/-! ## Addresses -/

namespace CheckLoginRule

/-- `verify_ipv4_address`. -/
def verifyIpv4Address (s : Text) : Bool :=
  match inetPton4 s with
  | some (sect1 :: _) => decide (1 ≤ sect1 ∧ sect1 ≤ 223 ∧ sect1 ≠ 127)
  | _ => false

/-- `verify_ipv6_address`: neither the unspecified address, nor the loopback one, nor a
link-local or a multicast address. -/
def verifyIpv6Address (s : Text) : Bool :=
  match inetPton6 s with
  | some bytes =>
    decide (bytes ≠ List.replicate 16 0 ∧ bytes ≠ List.replicate 15 0 ++ [1]
      ∧ ¬ (bytes.getD 0 0 = 0xfe ∧ bytes.getD 1 0 &&& 0xc0 = 0x80) ∧ bytes.getD 0 0 ≠ 0xff)
  | none => false

end CheckLoginRule

/-- `sscanf_s(subnet_str, "%w[^/]/%d$", …)`: the text before the first slash, cut to the
width `w`, and the number after the slash, if it is there. -/
def scanSubnet (w : ℕ) (s : Text) : Option (Text × Option ℤ) :=
  let ip := (s.takeWhile (· ≠ '/')).take w
  if ip = [] then none
  else some (ip, ((lit '/' (s.drop ip.length)).bind scanInt).map Prod.fst)

/-- The bits of an IPv4 address. -/
def bits (bytes : List ℕ) : BitVec 32 :=
  bytes.foldl (fun n b => n <<< 8 ||| BitVec.ofNat 32 b) 0

/-- `is_ip_in_subnet`. -/
def isIpInSubnet (ipStr subnetStr : Text) : Bool :=
  match inetPton4 ipStr, scanSubnet 15 subnetStr with
  | some ipAddr, some (subnetIp, mask) =>
    let maskLen := mask.getD 32
    if 32 < maskLen ∨ maskLen < 1 then false
    else match inetPton4 subnetIp with
      | some subnetAddr =>
        let subnetMask : BitVec 32 := ~~~((1#32 <<< (32 - maskLen).toNat) - 1)
        bits ipAddr &&& subnetMask == bits subnetAddr &&& subnetMask
      | none => false
  | _, _ => false

/-- `is_ipv6_in_subnet`. -/
def isIpv6InSubnet (ipStr subnetStr : Text) : Bool :=
  match inetPton6 ipStr, scanSubnet 45 subnetStr with
  | some ipAddr, some (subnetIp, mask) =>
    let maskLen := mask.getD 128
    if 128 < maskLen ∨ maskLen < 1 then false
    else match inetPton6 subnetIp with
      | some subnetAddr =>
        let byteLen := maskLen.toNat / 8
        let bitLen := 8 - maskLen.toNat % 8
        subnetAddr.take byteLen == ipAddr.take byteLen
          && (byteLen == 16 || subnetAddr.getD byteLen 0 >>> bitLen
            == ipAddr.getD byteLen 0 >>> bitLen)
      | none => false
  | _, _ => false

/-- The functions of `network.core`, with `true` for the result `0` and `false` for `-1`. -/
structure NetworkCore where
  verifyIpv4Address : Text → Bool
  verifyIpv6Address : Text → Bool

/-- They accept the same texts as the functions of the PAM check. -/
structure NetworkCore.Agrees (net : NetworkCore) : Prop where
  ipv4 : ∀ s, net.verifyIpv4Address s = CheckLoginRule.verifyIpv4Address s
  ipv6 : ∀ s, net.verifyIpv6Address s = CheckLoginRule.verifyIpv6Address s

/-! ## IP rules -/

/-- `IpRuleType`. -/
inductive IpRuleType : Type where
  | null
  | mask
  | noMask
  | ipv6Mask
  | ipv6NoMask
  | invalid
  deriving DecidableEq

namespace IpRule

/-- `string.match(rule, '^.*/%d+$')`. -/
def hasMask (rule : Text) : Bool :=
  decide (2 ≤ (rule.splitOn '/').length)
    && match (rule.splitOn '/').getLast? with
      | some digits => digits ≠ [] && digits.all Char.isDigit
      | none => false

/-- `LoginIpRule.get_format_type`. -/
def getFormatType (net : NetworkCore) (rule : Text) : IpRuleType :=
  if rule.length = 0 then .null
  else if hasMask rule then
    match (rule.splitOn '/').filter (· ≠ []) with
    | [address, digits] =>
      let mask := number digits
      if net.verifyIpv4Address address ∧ 1 ≤ mask ∧ mask ≤ 32 then .mask
      else if net.verifyIpv6Address address ∧ 1 ≤ mask ∧ mask ≤ 128 then .ipv6Mask
      else .invalid
    | _ => .invalid
  else if net.verifyIpv4Address rule then .noMask
  else if net.verifyIpv6Address rule then .ipv6NoMask
  else .invalid

/-- `LoginIpRule.check_format`. -/
def checkFormat (net : NetworkCore) (rule : Text) : Bool :=
  if rule.length = 0 then true
  else if 50 < rule.length then false
  else decide (getFormatType net rule ≠ .invalid)

/-- `LoginIpRule:check_rule`. -/
def checkRule (net : NetworkCore) (sourceIp rule : Text) : Bool :=
  if rule.length = 0 then true
  else if net.verifyIpv4Address sourceIp = false ∧ net.verifyIpv6Address sourceIp = false then
    false
  else match getFormatType net rule with
    | .mask | .noMask => isIpInSubnet sourceIp rule
    | _ => isIpv6InSubnet sourceIp rule

end IpRule

/-- An object of the class `LoginIpRule`: the constructor and `set_rule` check the format. -/
structure LoginIpRule (net : NetworkCore) where
  rule : Text
  valid : IpRule.checkFormat net rule = true

namespace CheckLoginRule

/-- `verify_ip_with_rule`. -/
def verifyIpWithRule (ipRule ipInfo : Text) : Bool :=
  match scanSubnet 45 ipRule with
  | none => false
  | some (subnetIp, _) =>
    if verifyIpv4Address subnetIp then isIpInSubnet ipInfo ipRule
    else if verifyIpv6Address subnetIp then isIpv6InSubnet ipInfo ipRule
    else false

/-- `check_ip_rule`: the address is copied to a buffer of 65 bytes. -/
def checkIpRule (ipRule ipInfo : Text) : Ret :=
  if ipRule.length = 0 then .ok
  else if 65 ≤ ipInfo.length then .err
  else if verifyIpWithRule ipRule ipInfo then .ok else .err

end CheckLoginRule

/-! ## MAC rules -/

/-- The name of the loopback interface. -/
def lo : Text :=
  ['l', 'o']

/-- What the checks see of the network interfaces: their names, the one of the BMC, and the
MAC address, as a text, that an interface has for an IP address. -/
structure Host where
  interfaces : List Text
  ethName : Text
  arp : Text → Text → Option Text

/-- Both checks see the same MAC address: the interface of the BMC is one of those that are
asked, and no other one knows another address. -/
structure Host.SameMac (host : Host) (ip : Text) : Prop where
  mem : host.ethName ∈ host.interfaces
  ne_lo : host.ethName ≠ lo
  arp : ∀ i ∈ host.interfaces, i ≠ lo →
    host.arp ip i = none ∨ host.arp ip i = host.arp ip host.ethName

namespace MacRule

/-- The segments of `^%x+:%x+:%x+:%x+:%x+:%x+$` or of `^%x+:%x+:%x+$`. -/
def getMacInfo (rule : Text) : Option (List Text) :=
  let segments := rule.splitOn ':'
  if (segments.length = 6 ∨ segments.length = 3)
      ∧ ∀ s ∈ segments, s ≠ [] ∧ s.all (fun c => (hexValue c).isSome) then some segments
  else none

/-- `mac_rule.check_format`. -/
def checkFormat (rule : Text) : Bool :=
  if rule.length = 0 then true
  else if 17 < rule.length then false
  else match getMacInfo rule with
    | none => false
    | some macInfo => macInfo.all fun mac => mac.length == 2

/-- `mac_rule.compare_string_prefix`. -/
def compareStringPrefix (src : Option Text) (dest : Text) (len : ℕ) : Bool :=
  match src with
  | none => false
  | some src => (List.range len).all fun i =>
      (src.map Char.toUpper)[i]? == (dest.map Char.toUpper)[i]?

/-- `mac_rule:check_rule`. -/
def checkRule (net : NetworkCore) (host : Host) (sourceIp rule : Text) : Bool :=
  if rule.length = 0 then true
  else if net.verifyIpv6Address sourceIp then true
  else if net.verifyIpv4Address sourceIp = false then false
  else compareStringPrefix (host.arp sourceIp host.ethName) rule rule.length

end MacRule

/-- An object of the class `mac_rule`: the constructor and `set_rule` check the format. -/
structure LoginMacRule where
  rule : Text
  valid : MacRule.checkFormat rule = true

namespace CheckLoginRule

/-- `strncasecmp(a, b, n) == 0`. -/
def strncasecmp : ℕ → Text → Text → Bool
  | 0, _, _ => true
  | _ + 1, [], [] => true
  | n + 1, c :: a, d :: b => c.toLower == d.toLower && strncasecmp n a b
  | _ + 1, _, _ => false

/-- The loop of `check_mac` over the interfaces: `ret` is the result so far. -/
def checkMacLoop (host : Host) (macRule ipInfo : Text) : Ret → List Text → Ret
  | ret, [] => ret
  | ret, i :: interfaces =>
    if i = lo then checkMacLoop host macRule ipInfo ret interfaces
    else match host.arp ipInfo i with
      | none => checkMacLoop host macRule ipInfo .err interfaces
      | some macaddr =>
        if strncasecmp macRule.length macaddr macRule then .ok
        else checkMacLoop host macRule ipInfo .err interfaces

/-- `check_mac_rule`. -/
def checkMacRule (host : Host) (macRule ipInfo : Text) : Ret :=
  if macRule.length = 0 then .ok
  else if ':' ∈ ipInfo then if verifyIpv6Address ipInfo then .ok else .err
  else if verifyIpv4Address ipInfo = false then .err
  else checkMacLoop host macRule ipInfo .ok host.interfaces

end CheckLoginRule

/-! ## The two checks of an IP rule -/

/-- A client address: one that either family accepts. -/
def ValidIp (ip : Text) : Prop :=
  CheckLoginRule.verifyIpv4Address ip = true ∨ CheckLoginRule.verifyIpv6Address ip = true

namespace CheckLoginRule

theorem inetPton4_of_verify {s : Text} (h : verifyIpv4Address s = true) :
  ∃ a, inetPton4 s = some a
  := by
  unfold verifyIpv4Address at h
  split at h
  next sect1 rest ha => exact ⟨_, ha⟩
  next => simp at h

theorem inetPton6_of_verify {s : Text} (h : verifyIpv6Address s = true) :
  ∃ a, inetPton6 s = some a
  := by
  unfold verifyIpv6Address at h
  split at h
  next bytes ha => exact ⟨_, ha⟩
  next => simp at h

theorem not_mem_of_verifyIpv4 {s : Text} (h : verifyIpv4Address s = true) :
  ':' ∉ s
  := by
  obtain ⟨a, ha⟩ := inetPton4_of_verify h
  intro hmem
  rcases (inetPton4_eq_some ha).2.2 _ hmem with h | h
  · exact absurd h (by decide)
  · exact absurd h (by decide)

theorem mem_of_verifyIpv6 {s : Text} (h : verifyIpv6Address s = true) :
  ':' ∈ s
  := by
  obtain ⟨a, ha⟩ := inetPton6_of_verify h
  exact (inetPton6_eq_some ha).2.1

/-- What is used of a text that is accepted as an address. -/
theorem addrChar_of_validIp {s : Text} (h : ValidIp s) :
  s.length ≤ 45 ∧ ∀ c ∈ s, AddrChar c
  := by
  rcases h with h | h
  · obtain ⟨a, ha⟩ := inetPton4_of_verify h
    have := (inetPton4_eq_some ha).2.1
    exact ⟨by omega, addrChar_of_inetPton4 ha⟩
  · obtain ⟨a, ha⟩ := inetPton6_of_verify h
    exact ⟨(inetPton6_eq_some ha).1, (inetPton6_eq_some ha).2.2⟩

theorem not_validIp_nil :
  ¬ ValidIp []
  := by
  unfold ValidIp
  decide

theorem takeWhile_slash {s : Text} (h : ValidIp s) :
  s.takeWhile (· ≠ '/') = s
  := by
  rw [List.takeWhile_eq_self_iff]
  intro c hc
  rw [decide_eq_true_eq]
  rintro rfl
  exact absurd ((addrChar_of_validIp h).2 _ hc) (by unfold AddrChar; decide)

theorem head?_splitOn (s : Text) :
  (s.splitOn '/').head? = some (s.takeWhile (· ≠ '/'))
  := by
  induction s with
  | nil => simp
  | cons c s ih =>
    rw [List.splitOn_cons_eq_if_modifyHead, List.takeWhile_cons]
    by_cases hc : c = '/'
    · simp [hc]
    · simp [hc, ih]

/-- What stands before the first slash of an accepted rule, unless it begins with a slash. -/
theorem scanSubnet_of_takeWhile {rule address : Text} (h : ValidIp address)
    (htake : rule.takeWhile (· ≠ '/') = address) :
  ∃ mask, scanSubnet 45 rule = some (address, mask)
  := by
  have hne : address ≠ [] := by
    rintro rfl
    exact not_validIp_nil h
  simp only [scanSubnet, htake]
  rw [List.take_of_length_le (addrChar_of_validIp h).1, if_neg hne]
  exact ⟨_, rfl⟩

/-- The address in an accepted rule, and how it decides between the two families. -/
theorem address_of_format {net : NetworkCore} (hnet : net.Agrees) {rule : Text}
    (hne : rule.length ≠ 0) (h : IpRule.getFormatType net rule ≠ .invalid) :
  ∃ address, (rule.takeWhile (· ≠ '/') = [] ∨ rule.takeWhile (· ≠ '/') = address)
    ∧ ValidIp address
    ∧ (IpRule.getFormatType net rule ∈ [.mask, .noMask] ↔ verifyIpv4Address address = true)
  := by
  have hfour : ∀ {s}, net.verifyIpv6Address s = true → ¬ verifyIpv4Address s = true := by
    intro s h₆ h₄
    rw [hnet.ipv6] at h₆
    exact not_mem_of_verifyIpv4 h₄ (mem_of_verifyIpv6 h₆)
  unfold IpRule.getFormatType at h ⊢
  rw [if_neg hne] at h ⊢
  split_ifs at h ⊢ with hmask h₄ h₆
  · split at h
    case h_2 => exact absurd rfl h
    case h_1 address digits hfilter =>
      have htake : rule.takeWhile (· ≠ '/') = [] ∨ rule.takeWhile (· ≠ '/') = address := by
        have hhead := head?_splitOn rule
        cases hps : rule.splitOn '/' with
        | nil => simp [hps] at hhead
        | cons p ps =>
          rw [hps] at hhead hfilter
          simp only [List.head?_cons, Option.some.injEq] at hhead
          rw [← hhead]
          by_cases hp : p = []
          · exact Or.inl hp
          · rw [List.filter_cons_of_pos (by simpa using hp)] at hfilter
            exact Or.inr (List.cons.inj hfilter).1
      simp only at h ⊢
      split_ifs at h ⊢ with h₄ h₆
      · have h₄' := hnet.ipv4 address ▸ h₄.1
        exact ⟨address, htake, Or.inl h₄', by simp [h₄']⟩
      · have h₆' := hnet.ipv6 address ▸ h₆.1
        exact ⟨address, htake, Or.inr h₆', by simp [hfour h₆.1]⟩
      · exact absurd rfl h
  · have h₄' := hnet.ipv4 rule ▸ h₄
    exact ⟨rule, Or.inr (takeWhile_slash (Or.inl h₄')), Or.inl h₄', by simp [h₄']⟩
  · have h₆' := hnet.ipv6 rule ▸ h₆
    exact ⟨rule, Or.inr (takeWhile_slash (Or.inr h₆')), Or.inr h₆', by simp [hfour h₆]⟩
  · exact absurd rfl h

theorem scanSubnet_eq_none {rule : Text} (h : rule.takeWhile (· ≠ '/') = []) (w : ℕ) :
  scanSubnet w rule = none
  := by
  unfold scanSubnet
  rw [h, List.take_nil, if_pos rfl]

theorem checkIpRule_eq_ok_iff {net : NetworkCore} (hnet : net.Agrees) (r : LoginIpRule net)
    {ip : Text} (hip : ValidIp ip) :
  checkIpRule r.rule ip = .ok ↔ IpRule.checkRule net ip r.rule = true
  := by
  obtain ⟨rule, hvalid⟩ := r
  simp only [IpRule.checkFormat] at hvalid
  simp only [checkIpRule, IpRule.checkRule]
  by_cases h0 : rule.length = 0
  · simp only [h0, if_true]
  · have hlen := (addrChar_of_validIp hip).1
    have hver : ¬ (net.verifyIpv4Address ip = false ∧ net.verifyIpv6Address ip = false) := by
      rw [hnet.ipv4, hnet.ipv6]
      rcases hip with h | h <;> simp [h]
    rw [if_neg h0] at hvalid
    rw [if_neg h0, if_neg (by omega), if_neg h0, if_neg hver]
    split_ifs at hvalid with h50
    obtain ⟨address, htake, haddr, hfamily⟩ := address_of_format hnet h0 (by simpa using hvalid)
    rcases htake with htake | htake
    · have h₄ : isIpInSubnet ip rule = false := by
        simp [isIpInSubnet, scanSubnet_eq_none htake]
      have h₆ : isIpv6InSubnet ip rule = false := by
        simp [isIpv6InSubnet, scanSubnet_eq_none htake]
      simp only [verifyIpWithRule, scanSubnet_eq_none htake, h₄, h₆]
      cases IpRule.getFormatType net rule <;> simp
    · obtain ⟨mask, hscan⟩ := scanSubnet_of_takeWhile haddr htake
      simp only [verifyIpWithRule, hscan]
      by_cases h₄ : verifyIpv4Address address = true
      · have hf := hfamily.mpr h₄
        simp only [List.mem_cons, List.not_mem_nil, or_false] at hf
        rcases hf with hf | hf <;> simp [h₄, hf]
      · have h₆ : verifyIpv6Address address = true := haddr.resolve_left h₄
        have hf := mt hfamily.mp h₄
        simp only [List.mem_cons, List.not_mem_nil, or_false, not_or] at hf
        rw [if_neg h₄, if_pos h₆]
        cases hty : IpRule.getFormatType net rule <;> simp_all

/-! ## The two checks of a MAC rule -/

theorem toLower_eq_iff_toUpper_eq (c d : Char) :
  c.toLower = d.toLower ↔ c.toUpper = d.toUpper
  := by
  constructor
  · intro h
    rw [← Char.toUpper_toLower_eq_toUpper c, h, Char.toUpper_toLower_eq_toUpper]
  · intro h
    rw [← Char.toLower_toUpper_eq_toLower c, h, Char.toLower_toUpper_eq_toLower]

theorem strncasecmp_eq_compareStringPrefix (a b : Text) :
  strncasecmp b.length a b = MacRule.compareStringPrefix (some a) b b.length
  := by
  induction b generalizing a with
  | nil => simp [strncasecmp, MacRule.compareStringPrefix]
  | cons d b ih =>
    simp only [MacRule.compareStringPrefix, List.length_cons, List.range_succ_eq_map,
      List.all_cons, List.all_map] at ih ⊢
    cases a with
    | nil => simp [strncasecmp]
    | cons c a =>
      have hhead : (c.toLower == d.toLower) = (c.toUpper == d.toUpper) := by
        rw [beq_eq_beq, toLower_eq_iff_toUpper_eq]
      rw [strncasecmp, ih, hhead]
      simp [Function.comp_def]

theorem checkMacLoop_eq_ok_iff {host : Host} {macRule ip : Text} {ret : Ret}
    {interfaces : List Text} :
  checkMacLoop host macRule ip ret interfaces = .ok ↔
    (∃ i ∈ interfaces, i ≠ lo ∧ ∃ m, host.arp ip i = some m
      ∧ strncasecmp macRule.length m macRule = true)
    ∨ ret = .ok ∧ ∀ i ∈ interfaces, i = lo
  := by
  induction interfaces generalizing ret with
  | nil => simp [checkMacLoop]
  | cons i interfaces ih =>
    unfold checkMacLoop
    by_cases hlo : i = lo
    · rw [if_pos hlo, ih]
      simp [hlo]
    · rw [if_neg hlo]
      cases harp : host.arp ip i with
      | none =>
        simp only [ih]
        simp [hlo, harp]
      | some m =>
        simp only
        by_cases hm : strncasecmp macRule.length m macRule = true
        · simp [hm, hlo, harp]
        · rw [if_neg hm, ih]
          simp [hlo, harp, hm]

theorem checkMacRule_eq_ok_iff {net : NetworkCore} (hnet : net.Agrees) (r : LoginMacRule)
    {host : Host} {ip : Text} (hip : ValidIp ip) (hmac : host.SameMac ip) :
  checkMacRule host r.rule ip = .ok ↔ MacRule.checkRule net host ip r.rule = true
  := by
  unfold checkMacRule MacRule.checkRule
  rw [hnet.ipv4, hnet.ipv6]
  by_cases h0 : r.rule.length = 0
  · simp only [h0, if_true]
  · rw [if_neg h0, if_neg h0]
    by_cases h₆ : verifyIpv6Address ip = true
    · simp [h₆, mem_of_verifyIpv6 h₆]
    · have h₄ : verifyIpv4Address ip = true := hip.resolve_right h₆
      rw [if_neg (not_mem_of_verifyIpv4 h₄), if_neg h₆]
      simp only [h₄, Bool.true_eq_false, if_false]
      rw [checkMacLoop_eq_ok_iff]
      constructor
      · rintro (⟨i, hi, hlo, m, harp, hm⟩ | ⟨-, hall⟩)
        · have heth : host.arp ip host.ethName = some m := by
            rcases hmac.arp i hi hlo with h | h
            · simp [h] at harp
            · rw [← h, harp]
          rw [heth, ← strncasecmp_eq_compareStringPrefix]
          exact hm
        · exact absurd (hall _ hmac.mem) hmac.ne_lo
      · intro h
        left
        cases harp : host.arp ip host.ethName with
        | none => simp [harp, MacRule.compareStringPrefix] at h
        | some m =>
          refine ⟨host.ethName, hmac.mem, hmac.ne_lo, m, harp, ?_⟩
          rw [harp, ← strncasecmp_eq_compareStringPrefix] at h
          exact h

end CheckLoginRule

end LoginRule

end BmcAccount
