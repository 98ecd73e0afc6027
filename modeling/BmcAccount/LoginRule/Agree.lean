import BmcAccount.LoginRule.Engines

/-!
# When the two checks of the login rules agree

The account service and the PAM modules visit the three rules with different bookkeeping for
those that are skipped: a count, and a sum of powers of two. Either way a login is let in
when one of the active rules admits it, or when no rule is active. A rule admits a login in
the PAM modules exactly if it does so in the service and its time rule does not straddle the
year 2048.
-/

namespace BmcAccount

namespace LoginRule

open CheckLoginRule LoginRuleCollection

variable {net : NetworkCore}

/-- The rules that a login is checked against. -/
def Active (c : LoginRuleCollection net) (ids : ℕ) (i : Fin 3) : Prop :=
  selected ids i = true ∧ (c.rule i).mLoginRule.enabled = true

instance (c : LoginRuleCollection net) (ids : ℕ) (i : Fin 3) : Decidable (Active c ids i) :=
  inferInstanceAs (Decidable (_ ∧ _))

/-- How a login is decided by the active rules and those that admit it. -/
def LetIn (active admits : Fin 3 → Prop) : Prop :=
  (∃ i, active i ∧ admits i) ∨ ∀ i, ¬ active i

/-! ## The account service -/

theorem checkLoop_eq_true_iff {c : LoginRuleCollection net} {host : Host} {now : LocalTime}
    {ids : ℕ} {ip : Text} {skipNum : ℕ} {is : List (Fin 3)} :
  checkLoop c host now ids ip skipNum is = true ↔
    (∃ i ∈ is, Active c ids i ∧ (c.rule i).admits host now ip = true)
      ∨ skipNum + is.countP (fun i => ¬ Active c ids i) = 3
  := by
  induction is generalizing skipNum with
  | nil => simp [checkLoop]
  | cons i is ih =>
    unfold checkLoop
    by_cases hactive : Active c ids i
    · obtain ⟨hsel, hen⟩ := hactive
      have hact : Active c ids i := ⟨hsel, hen⟩
      simp only [hsel, hen, if_true, Bool.true_eq_false, if_false,
        LoginRuleManager.checkLoginRule]
      by_cases hadm : (c.rule i).admits host now ip = true
      · simp [hadm, hact]
      · rw [if_neg hadm, ih]
        simp [hact, hadm]
    · have hskip : (if selected ids i = true then
            if (c.rule i).mLoginRule.enabled = false then
              checkLoop c host now ids ip (skipNum + 1) is
            else if (c.rule i).checkLoginRule host now ip = true then true
            else checkLoop c host now ids ip skipNum is
          else checkLoop c host now ids ip (skipNum + 1) is)
          = checkLoop c host now ids ip (skipNum + 1) is := by
        by_cases hsel : selected ids i = true
        · have hen : (c.rule i).mLoginRule.enabled = false := by
            simpa [Active, hsel] using hactive
          simp [hsel, hen]
        · rw [if_neg hsel]
      rw [hskip, ih, List.countP_cons_of_pos (by simpa using hactive)]
      simp [hactive, Nat.add_assoc, Nat.add_comm 1]

theorem checkLoginRule_eq_true_iff {c : LoginRuleCollection net} {host : Host}
    {now : LocalTime} {ids : ℕ} {ip : Text} :
  c.checkLoginRule host now ids ip = true ↔
    LetIn (Active c ids) fun i => (c.rule i).admits host now ip = true
  := by
  unfold checkLoginRule LetIn
  rw [checkLoop_eq_true_iff]
  have hcount : (0 + [0, 1, 2].countP (fun i : Fin 3 => ¬ Active c ids i) = 3)
      ↔ ∀ i, ¬ Active c ids i := by
    rw [Nat.zero_add]
    refine (List.countP_eq_length (l := [0, 1, 2])).trans ?_
    simp [Fin.forall_fin_succ]
  rw [hcount]
  simp [Fin.exists_fin_succ]

/-! ## The PAM modules -/

/-- A rule that is read from the file admits the login. -/
def infoAdmits (host : Host) (now : LocalTime) (ip : Text) (r : LoginRuleInfo) : Prop :=
  checkTimeRule now r.timeRule = .ok ∧ checkIpRule (chosenIpRule r) ip = .ok
    ∧ checkMacRule host r.macRule ip = .ok

theorem checkRulesLoop_eq_ok_iff {host : Host} {now : LocalTime} {ids : ℕ} {ip : Text}
    {rules : Fin 3 → LoginRuleInfo} {active : Fin 3 → Bool}
    (hactive : ∀ i, active i = true ↔
      ¬ ((rules i).ruleEnabled = 0 ∨ (ids >>> (i : ℕ)) &&& 1 = 0))
    {flag : ℕ} {is : List (Fin 3)} :
  checkRulesLoop host now ids ip rules flag is = .ok ↔
    (∃ i ∈ is, active i = true ∧ infoAdmits host now ip (rules i))
      ∨ is.foldl (fun flag (i : Fin 3) =>
          if active i then flag else (flag + ((1 <<< (i : ℕ)) &&& 0xff)) % 256) flag = 7
  := by
  induction is generalizing flag with
  | nil =>
    simp only [checkRulesLoop, List.foldl_nil]
    split_ifs with h <;> simp [h]
  | cons i is ih =>
    unfold checkRulesLoop
    by_cases hskip : (rules i).ruleEnabled = 0 ∨ (ids >>> (i : ℕ)) &&& 1 = 0
    · have hact : active i = false := by
        rw [← Bool.not_eq_true, hactive]
        exact not_not_intro hskip
      rw [if_pos hskip, ih]
      simp [hact]
    · have hact : active i = true := (hactive i).mpr hskip
      rw [if_neg hskip]
      by_cases hadm : infoAdmits host now ip (rules i)
      · obtain ⟨ht, hi, hm⟩ := hadm
        simp [hact, infoAdmits, ht, hi, hm]
      · have hnext : (if checkTimeRule now (rules i).timeRule ≠ .ok then
              checkRulesLoop host now ids ip rules flag is
            else if checkIpRule (chosenIpRule (rules i)) ip ≠ .ok then
              checkRulesLoop host now ids ip rules flag is
            else if checkMacRule host (rules i).macRule ip ≠ .ok then
              checkRulesLoop host now ids ip rules flag is
            else .ok) = checkRulesLoop host now ids ip rules flag is := by
          unfold infoAdmits at hadm
          split_ifs with h₁ h₂ h₃
          · rfl
          · rfl
          · rfl
          · exact absurd ⟨not_not.mp h₁, not_not.mp h₂, not_not.mp h₃⟩ hadm
        rw [hnext, ih]
        simp [hact, hadm]

theorem getFormatType_ne_null {rule : Text} (h : rule.length ≠ 0) :
  IpRule.getFormatType net rule ≠ .null
  := by
  unfold IpRule.getFormatType
  rw [if_neg h]
  split_ifs
  · split
    · simp only
      split_ifs <;> simp
    · simp
  · simp
  · simp
  · simp

theorem chosenIpRule_infoOf (m : LoginRuleManager net) :
  chosenIpRule (infoOf m) = m.mIpRule.rule
  := by
  have hip := m.ip_eq
  have hvalid := m.mIpRule.valid
  unfold ipColumns at hip
  unfold IpRule.checkFormat at hvalid
  simp only [chosenIpRule, infoOf]
  by_cases h0 : m.mIpRule.rule.length = 0
  · have hnil := List.length_eq_zero_iff.mp h0
    have htype : IpRule.getFormatType net m.mIpRule.rule = .null := by
      rw [IpRule.getFormatType, if_pos h0]
    simp only [htype, Prod.mk.injEq] at hip
    simp [hip.1, hip.2, hnil]
  · have hinvalid : IpRule.getFormatType net m.mIpRule.rule ≠ .invalid := by
      rw [if_neg h0] at hvalid
      split_ifs at hvalid
      simpa using hvalid
    have hne : m.mIpRule.rule ≠ [] := fun h => h0 (by rw [h, List.length_nil])
    cases htype : IpRule.getFormatType net m.mIpRule.rule with
    | null => exact absurd htype (getFormatType_ne_null h0)
    | invalid => exact absurd htype hinvalid
    | mask => simp_all
    | noMask => simp_all
    | ipv6Mask => simp_all
    | ipv6NoMask => simp_all

/-- A rule that is read back admits a login exactly if it does so in the service and its
time rule does not straddle the year 2048. -/
theorem infoAdmits_infoOf_iff (hnet : net.Agrees) (m : LoginRuleManager net) {host : Host}
    {now : LocalTime} {ip : Text} (hip : ValidIp ip) (hmac : host.SameMac ip) :
  infoAdmits host now ip (infoOf m) ↔
    m.admits host now ip = true ∧ ¬ Straddles m.mTimeRule.rule
  := by
  unfold infoAdmits LoginRuleManager.admits
  rw [chosenIpRule_infoOf, checkIpRule_eq_ok_iff hnet m.mIpRule hip]
  simp only [infoOf, m.time_eq, m.mac_eq]
  rw [checkTimeRule_eq_ok_iff, checkMacRule_eq_ok_iff hnet m.mMacRule hip hmac]
  simp only [Bool.and_eq_true]
  tauto

theorem and_one_eq_zero_iff (ids : ℕ) (i : Fin 3) :
  (ids % 256) >>> (i : ℕ) &&& 1 = 0 ↔ ¬ selected ids i = true
  := by
  have hmod : ∀ n : ℕ, n &&& 1 = n % 2 := fun n => Nat.and_one_is_mod n
  simp only [selected, hmod, Nat.shiftRight_eq_div_pow, beq_iff_eq]
  fin_cases i <;> simp <;> omega

theorem checkSnmpv1v2LoginRule_eq_ok_iff (hnet : net.Agrees) (c : LoginRuleCollection net)
    {order : List (Fin 3)} (horder : order.Perm (List.finRange 3)) {host : Host}
    {now : LocalTime} {ids : ℕ} {ip : Text} (hip : ValidIp ip) (hmac : host.SameMac ip) :
  checkSnmpv1v2LoginRule host now ids ip (c.getLines order) = .ok ↔
    LetIn (Active c ids) fun i =>
      (c.rule i).admits host now ip = true ∧ ¬ Straddles (c.rule i).mTimeRule.rule
  := by
  have hactive : ∀ i, decide (Active c ids i) = true ↔
      ¬ ((infoOf (c.rule i)).ruleEnabled = 0 ∨ (ids % 256) >>> (i : ℕ) &&& 1 = 0) := by
    intro i
    rw [and_one_eq_zero_iff, decide_eq_true_eq]
    simp [Active, infoOf, and_comm]
  have hflag : ∀ active : Fin 3 → Bool,
      (([0, 1, 2] : List (Fin 3)).foldl (fun flag (i : Fin 3) =>
        if active i then flag else (flag + ((1 <<< (i : ℕ)) &&& 0xff)) % 256) 0 = 7
      ↔ ∀ i, active i = false) := by
    decide
  unfold checkSnmpv1v2LoginRule
  rw [getLoginRules_getLines hnet c horder]
  simp only [checkRules, LetIn]
  rw [checkRulesLoop_eq_ok_iff hactive, hflag]
  simp only [infoAdmits_infoOf_iff hnet _ hip hmac, decide_eq_true_eq, decide_eq_false_iff_not]
  simp [Fin.exists_fin_succ]

/-! ## Agreement -/

/-- Whenever a rule that straddles the year 2048 admits the login, so does another rule that
does not. -/
def StraddlingCovered (c : LoginRuleCollection net) (host : Host) (now : LocalTime) (ids : ℕ)
    (ip : Text) : Prop :=
  ∀ i, Active c ids i → Straddles (c.rule i).mTimeRule.rule →
    (c.rule i).admits host now ip = true →
    ∃ j, Active c ids j ∧ ¬ Straddles (c.rule j).mTimeRule.rule
      ∧ (c.rule j).admits host now ip = true

/-- The two checks agree on a login if and only if no rule that straddles the year 2048 is
alone in admitting it. -/
theorem checkLoginRule_iff_checkSnmpv1v2LoginRule_iff (hnet : net.Agrees)
    (c : LoginRuleCollection net) {order : List (Fin 3)}
    (horder : order.Perm (List.finRange 3)) (host : Host) (now : LocalTime) (ids : ℕ)
    {ip : Text} (hip : ValidIp ip) (hmac : host.SameMac ip) :
  (c.checkLoginRule host now ids ip = true ↔
      checkSnmpv1v2LoginRule host now ids ip (c.getLines order) = .ok)
    ↔ StraddlingCovered c host now ids ip
  := by
  rw [checkLoginRule_eq_true_iff, checkSnmpv1v2LoginRule_eq_ok_iff hnet c horder hip hmac]
  unfold LetIn StraddlingCovered
  constructor
  · intro hagree i hact _ hadm
    rcases hagree.mp (Or.inl ⟨i, hact, hadm⟩) with ⟨j, hj, hjadm, hjs⟩ | hnone
    · exact ⟨j, hj, hjs, hjadm⟩
    · exact absurd hact (hnone i)
  · intro hcov
    constructor
    · rintro (⟨i, hact, hadm⟩ | hnone)
      · by_cases hs : Straddles (c.rule i).mTimeRule.rule
        · obtain ⟨j, hj, hjs, hjadm⟩ := hcov i hact hs hadm
          exact Or.inl ⟨j, hj, hjadm, hjs⟩
        · exact Or.inl ⟨i, hact, hadm, hs⟩
      · exact Or.inr hnone
    · rintro (⟨i, hact, hadm, -⟩ | hnone)
      · exact Or.inl ⟨i, hact, hadm⟩
      · exact Or.inr hnone

/-- The verifiers of the PAM check in the place of those of `network.core`. -/
def sameNetworkCore : NetworkCore :=
  ⟨verifyIpv4Address, verifyIpv6Address⟩

/-- A host on which a client has a MAC address. -/
def bmcHost : Host where
  interfaces := [lo, "eth2".toList]
  ethName := "eth2".toList
  arp _ i := if i = "eth2".toList then some "0c:c4:7a:01:02:03\n".toList else none

/-- The client. -/
def clientIp : Text :=
  "192.168.2.14".toList

/-- The first of June 2047, at noon. -/
def june2047 : LocalTime where
  year := 2047
  month := 6
  day := 1
  hour := 12
  min := 0
  year_mem := by decide
  month_mem := by decide
  day_mem := by decide
  hour_lt := by decide
  min_lt := by decide

/-- An enabled rule with a time rule and an IP rule. -/
def timedRule (ruleId : ℕ) (r : LoginTimeRule) (ip : LoginIpRule sameNetworkCore) :
    LoginRuleManager sameNetworkCore where
  mLoginRule :=
    { ruleId
      enabled := true
      timeRule := r.rule
      ipRule := (ipColumns sameNetworkCore ip.rule).1
      ipv6Rule := (ipColumns sameNetworkCore ip.rule).2 }
  mIpRule := ip
  mMacRule := (LoginRuleManager.new sameNetworkCore ruleId).mMacRule
  mTimeRule := r
  ip_eq := rfl
  mac_eq := rfl
  time_eq := rfl

/-- A first rule for the dates from 2047 to 2048, a second one for the whole day. -/
def straddlingTable : LoginRuleCollection sameNetworkCore where
  rule := ![timedRule 1 ⟨"2047-01-01/2048-12-31".toList, by decide⟩
      ⟨"192.168.2.0/24".toList, by decide⟩,
    timedRule 2 ⟨"00:00/23:59".toList, by decide⟩ ⟨[], rfl⟩,
    LoginRuleManager.new sameNetworkCore 3]
  ruleId_eq := by decide

theorem straddling_range_splits_checks :
  sameNetworkCore.Agrees ∧ ValidIp clientIp ∧ bmcHost.SameMac clientIp
    ∧ straddlingTable.checkLoginRule bmcHost june2047 1 clientIp = true
    ∧ checkSnmpv1v2LoginRule bmcHost june2047 1 clientIp (straddlingTable.getLines [0, 1, 2])
      = .userLoginLimited
  := by
  refine ⟨⟨fun _ => rfl, fun _ => rfl⟩, Or.inl (by decide), ⟨by decide, by decide, by decide⟩,
    by decide, by decide⟩

theorem checks_agree_whole_day :
  straddlingTable.checkLoginRule bmcHost june2047 3 clientIp = true ↔
    checkSnmpv1v2LoginRule bmcHost june2047 3 clientIp (straddlingTable.getLines [0, 1, 2])
      = .ok
  := by
  refine (checkLoginRule_iff_checkSnmpv1v2LoginRule_iff ⟨fun _ => rfl, fun _ => rfl⟩
    straddlingTable (by decide) bmcHost june2047 3 (Or.inl (by decide))
    ⟨by decide, by decide, by decide⟩).mpr ?_
  intro i _ _ _
  exact ⟨1, by decide, by decide, by decide⟩

end LoginRule

end BmcAccount
