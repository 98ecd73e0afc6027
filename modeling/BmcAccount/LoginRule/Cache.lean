import BmcAccount.LoginRule.Setting
import BmcAccount.Lib.Mirror

/-!
# The cache of the login rules

The component that authenticates the users of remote groups keeps a cache of the login rules. It
hears of the objects of the rules and of their properties by signals, and every fifteen minutes it
reads the objects one after the other. The rules of the cache are checked as the account service
checks its own, except that a rule that is missing, or has a time in no format, raises an error.
With the rules of the account service the cache admits the logins that the account service admits
(`LoginRuleCache.checkLoginRule_eq`).
-/

namespace BmcAccount

namespace LoginRule

open Fields Inet

variable {net : NetworkCore}

/-! ## Rules of the cache -/

/-- `LoginIpRule` of the cache, whose type is that of its rule. -/
structure LoginIpRuleCache (net : NetworkCore) where
  mRule : Text
  mRuleType : IpRuleType
  type_eq : mRuleType = IpRule.getFormatType net mRule

/-- The constructor, and `set_rule`. -/
def LoginIpRuleCache.new (net : NetworkCore) (rule : Text) : LoginIpRuleCache net :=
  ⟨rule, IpRule.getFormatType net rule, rfl⟩

/-- `check_rule`. -/
def LoginIpRuleCache.checkRule (r : LoginIpRuleCache net) (sourceIp : Text) : Bool :=
  if r.mRule.length = 0 then true
  else if net.verifyIpv4Address sourceIp = false ∧ net.verifyIpv6Address sourceIp = false then
    false
  else match r.mRuleType with
    | .mask | .noMask => isIpInSubnet sourceIp r.mRule
    | _ => isIpv6InSubnet sourceIp r.mRule

/-- `time_rule` of the cache. -/
structure LoginTimeRuleCache where
  mRule : Text
  mRuleType : Option TimeType
  type_eq : mRuleType = TimeRule.getFormatType mRule

/-- The constructor, and `set_rule`. -/
def LoginTimeRuleCache.new (rule : Text) : LoginTimeRuleCache :=
  ⟨rule, TimeRule.getFormatType rule, rfl⟩

/-- `check_rule`; a rule in no format raises an error. -/
def LoginTimeRuleCache.checkRule (r : LoginTimeRuleCache) (now : LocalTime) : Option Bool :=
  if r.mRule.length = 0 then some true
  else r.mRuleType.map fun
    | .ymdhm => TimeRule.checkRuleYmdhm now r.mRule
    | .ymd => TimeRule.checkRuleYmd now r.mRule
    | .hm => TimeRule.checkRuleHm now r.mRule

/-- `LoginRuleManager` of the cache. -/
structure LoginRuleManagerCache (net : NetworkCore) where
  mLoginRule : RuleObject
  mIpRule : LoginIpRuleCache net
  mMacRule : Text
  mTimeRule : LoginTimeRuleCache
  isFlush : Bool

namespace LoginRuleManagerCache

/-- The constructor. -/
def new (net : NetworkCore) (rule : RuleObject) : LoginRuleManagerCache net where
  mLoginRule := rule
  mIpRule := .new net rule.ipRule
  mMacRule := rule.macRule
  mTimeRule := .new rule.timeRule
  isFlush := true

/-- `set_enabled`. -/
def setEnabled (m : LoginRuleManagerCache net) (enabled : Bool) : LoginRuleManagerCache net :=
  { m with mLoginRule.enabled := enabled }

/-- `set_ip_rule`, which leaves `m_login_rule` as it is. -/
def setIpRule (m : LoginRuleManagerCache net) (rule : Text) : LoginRuleManagerCache net :=
  { m with mIpRule := .new net rule }

/-- `set_mac_rule`. -/
def setMacRule (m : LoginRuleManagerCache net) (rule : Text) : LoginRuleManagerCache net :=
  { m with mMacRule := rule, mLoginRule.macRule := rule }

/-- `set_time_rule`. -/
def setTimeRule (m : LoginRuleManagerCache net) (rule : Text) : LoginRuleManagerCache net :=
  { m with mTimeRule := .new rule, mLoginRule.timeRule := rule }

/-- `property_change_cb`. -/
def propertyChangeCb (m : LoginRuleManagerCache net) : RuleProperty → LoginRuleManagerCache net
  | .enabled value => m.setEnabled value
  | .ipRule value => m.setIpRule value
  | .macRule value => m.setMacRule value
  | .timeRule value => m.setTimeRule value

/-- `flush_rule_cache`. -/
def flush (m : LoginRuleManagerCache net) (o : RuleObject) : LoginRuleManagerCache net :=
  { (((m.setEnabled o.enabled).setIpRule o.ipRule).setMacRule o.macRule).setTimeRule o.timeRule with
    isFlush := true }

/-- `check_login_rule`, no value for an error. -/
def checkLoginRule (m : LoginRuleManagerCache net) (host : Host) (now : LocalTime) (ip : Text) :
    Option Bool :=
  if m.mLoginRule.enabled = false then some true
  else if m.mIpRule.checkRule ip && MacRule.checkRule net host ip m.mMacRule then
    m.mTimeRule.checkRule now
  else some false

/-- The rules that are checked. -/
def object (m : LoginRuleManagerCache net) : RuleObject where
  enabled := m.mLoginRule.enabled
  ipRule := m.mIpRule.mRule
  macRule := m.mMacRule
  timeRule := m.mTimeRule.mRule

theorem object_propertyChangeCb (m : LoginRuleManagerCache net) (p : RuleProperty) :
  (m.propertyChangeCb p).object = p.write m.object ∧ (m.propertyChangeCb p).isFlush = m.isFlush
  := by
  cases p <;> exact ⟨rfl, rfl⟩

end LoginRuleManagerCache

/-! ## The cache -/

/-- `cache_collection`. -/
abbrev LoginRuleCache (net : NetworkCore) : Type := Fin 3 → Option (LoginRuleManagerCache net)

namespace LoginRuleCache

/-- `new_rule_cache`. -/
def newRuleCache (c : LoginRuleCache net) (i : Fin 3) (o : RuleObject) : LoginRuleCache net :=
  Function.update c i (some (.new net o))

/-- `del_rule_cache`, for a class of rules that has `destroy`. -/
def delRuleCache (c : LoginRuleCache net) (i : Fin 3) : LoginRuleCache net :=
  Function.update c i none

/-- `edit_rule_cache`. -/
def editRuleCache (c : LoginRuleCache net) (i : Fin 3) (p : RuleProperty) : LoginRuleCache net :=
  Function.update c i ((c i).map fun m => m.propertyChangeCb p)

/-- `clear_cache_flush_state`. -/
def clearCacheFlushState (c : LoginRuleCache net) : LoginRuleCache net :=
  fun i => (c i).map fun m => { m with isFlush := false }

/-- `clean_redundant_cache`. -/
def cleanRedundantCache (c : LoginRuleCache net) : LoginRuleCache net :=
  fun i => (c i).filter fun m => m.isFlush

/-- The part of `sync_rule_info` for one rule, whose object can be read. -/
def syncRule (c : LoginRuleCache net) (i : Fin 3) (o : RuleObject) : LoginRuleCache net :=
  match c i with
  | none => c.newRuleCache i o
  | some m => Function.update c i (some (m.flush o))

/-- The loop of `check_login_rule`, no value for an error. -/
def checkLoop (c : LoginRuleCache net) (host : Host) (now : LocalTime) (ids : ℕ) (ip : Text) :
    ℕ → List (Fin 3) → Option Bool
  | skipNum, [] => some (skipNum == 3)
  | skipNum, i :: is =>
    if LoginRuleCollection.selected ids i then
      match c i with
      | none => none
      | some m =>
        if m.mLoginRule.enabled = false then checkLoop c host now ids ip (skipNum + 1) is
        else match m.checkLoginRule host now ip with
          | none => none
          | some true => some true
          | some false => checkLoop c host now ids ip skipNum is
    else checkLoop c host now ids ip (skipNum + 1) is

/-- `check_login_rule`, and that of a remote group with its `PermitRuleIds`. -/
def checkLoginRule (c : LoginRuleCache net) (host : Host) (now : LocalTime) (ids : ℕ) (ip : Text) :
    Option Bool :=
  c.checkLoop host now ids ip 0 (List.finRange 3)

end LoginRuleCache

/-! ## The checks -/

theorem LoginIpRuleCache.checkRule_eq (r : LoginIpRuleCache net) (ip : Text) :
  r.checkRule ip = IpRule.checkRule net ip r.mRule
  := by
  have htype := r.type_eq
  unfold checkRule IpRule.checkRule
  cases hformat : IpRule.getFormatType net r.mRule <;> simp only [htype, hformat]

/-- A time that the account service has accepted is in a format. -/
theorem LoginTimeRuleCache.checkRule_eq {r : LoginTimeRuleCache}
    (hvalid : TimeRule.checkFormat r.mRule = true) (now : LocalTime) :
  r.checkRule now = some (TimeRule.checkRule now r.mRule)
  := by
  unfold checkRule TimeRule.checkRule
  unfold TimeRule.checkFormat at hvalid
  rw [r.type_eq]
  by_cases hempty : r.mRule.length = 0
  · rw [if_pos hempty, if_pos hempty]
  · rw [if_neg hempty] at hvalid ⊢
    rw [if_neg hempty]
    cases htype : TimeRule.getFormatType r.mRule with
    | none => simp [htype] at hvalid
    | some t => cases t <;> rfl

/-- A rule of the cache is checked as that of the account service. -/
theorem LoginRuleManagerCache.checkLoginRule_eq {e : LoginRuleManagerCache net}
    {m : LoginRuleManager net} (h : e.object = m.object) (host : Host) (now : LocalTime)
    (ip : Text) :
  e.checkLoginRule host now ip = some (m.checkLoginRule host now ip)
  := by
  obtain ⟨henabled, hip, hmac, htime⟩ := RuleObject.mk.inj h
  unfold checkLoginRule LoginRuleManager.checkLoginRule LoginRuleManager.admits
  have hvalid : TimeRule.checkFormat e.mTimeRule.mRule = true := htime ▸ m.mTimeRule.valid
  rw [e.mIpRule.checkRule_eq, LoginTimeRuleCache.checkRule_eq hvalid, henabled, hip, hmac, htime]
  by_cases hoff : m.mLoginRule.enabled = false
  · rw [if_pos hoff, if_pos hoff]
  · rw [if_neg hoff, if_neg hoff]
    cases IpRule.checkRule net ip m.mIpRule.rule <;> cases MacRule.checkRule net host ip
      m.mMacRule.rule <;> rfl

/-- A cache with the rules of the account service admits the logins that the account service
admits. -/
theorem LoginRuleCache.checkLoginRule_eq {c : LoginRuleCache net} {r : LoginRuleCollection net}
    (h : ∀ i, (c i).map LoginRuleManagerCache.object = some (r.rule i).object) (host : Host)
    (now : LocalTime) (ids : ℕ) (ip : Text) :
  c.checkLoginRule host now ids ip = some (r.checkLoginRule host now ids ip)
  := by
  have hloop : ∀ (is : List (Fin 3)) (skipNum : ℕ),
      c.checkLoop host now ids ip skipNum is = some (r.checkLoop host now ids ip skipNum is) := by
    intro is
    induction is with
    | nil => exact fun _ => rfl
    | cons i is ih =>
      intro skipNum
      obtain ⟨e, he, hobject⟩ := Option.map_eq_some_iff.mp (h i)
      unfold checkLoop LoginRuleCollection.checkLoop
      have henabled : e.mLoginRule.enabled = (r.rule i).mLoginRule.enabled :=
        congrArg RuleObject.enabled hobject
      rw [he]
      simp only [henabled, LoginRuleManagerCache.checkLoginRule_eq hobject, ih]
      split_ifs with hselected hoff hcheck
      · rfl
      · rw [hcheck]
      · rw [Bool.not_eq_true] at hcheck
        rw [hcheck]
      · rfl
  exact hloop (List.finRange 3) 0

end LoginRule

end BmcAccount
