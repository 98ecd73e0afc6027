import BmcAccount.LoginRule.Address

/-!
# The table of login rules and its file

The account service keeps three login rules, each with a time, an IP and a MAC rule, and
checks a login against those of them that the account selects. It also writes the rules to
a file, a line for each rule and the fields of a rule between commas, from which the PAM
modules check logins by themselves.

`getLoginRules_getLines` says that the PAM modules read back the rules that the service has.
-/

namespace BmcAccount

namespace LoginRule

open Fields Inet

/-! ## The account service -/

/-- `PropertyValueFormatError` of a value and a property. -/
structure FormatError where
  value : Text
  property : String
  deriving DecidableEq

/-- A row of the table of login rules. -/
structure Row where
  ruleId : ℕ
  enabled : Bool := false
  ipRule : Text := []
  macRule : Text := []
  timeRule : Text := []
  ipv6Rule : Text := []

/-- The columns `IpRule` and `Ipv6Rule` for an IP rule. -/
def ipColumns (net : NetworkCore) (rule : Text) : Text × Text :=
  match IpRule.getFormatType net rule with
  | .mask | .noMask => (rule, [])
  | .ipv6Mask | .ipv6NoMask => ([], rule)
  | .null | .invalid => ([], [])

/-- `LoginRuleManager`: a row and the rule objects that belong to it. -/
structure LoginRuleManager (net : NetworkCore) where
  mLoginRule : Row
  mIpRule : LoginIpRule net
  mMacRule : LoginMacRule
  mTimeRule : LoginTimeRule
  ip_eq : (mLoginRule.ipRule, mLoginRule.ipv6Rule) = ipColumns net mIpRule.rule
  mac_eq : mLoginRule.macRule = mMacRule.rule
  time_eq : mLoginRule.timeRule = mTimeRule.rule

namespace LoginRuleManager

variable {net : NetworkCore}

/-- The manager of a row without rules, as the table is set up with. -/
def new (net : NetworkCore) (ruleId : ℕ) : LoginRuleManager net where
  mLoginRule := { ruleId }
  mIpRule := ⟨[], rfl⟩
  mMacRule := ⟨[], rfl⟩
  mTimeRule := ⟨[], rfl⟩
  ip_eq := rfl
  mac_eq := rfl
  time_eq := rfl

/-- `LoginRuleManager:set_enabled`. -/
def setEnabled (m : LoginRuleManager net) (enabled : Bool) : LoginRuleManager net :=
  { m with
    mLoginRule := { m.mLoginRule with enabled }
    ip_eq := m.ip_eq
    mac_eq := m.mac_eq
    time_eq := m.time_eq }

/-- `LoginRuleManager:set_ip_rule`. -/
def setIpRule (m : LoginRuleManager net) (rule : Text) :
    Except FormatError (LoginRuleManager net) :=
  if h : IpRule.checkFormat net rule = true then
    .ok { m with
      mLoginRule := { m.mLoginRule with
        ipRule := (ipColumns net rule).1
        ipv6Rule := (ipColumns net rule).2 }
      mIpRule := ⟨rule, h⟩
      ip_eq := rfl
      mac_eq := m.mac_eq
      time_eq := m.time_eq }
  else .error ⟨rule, "IP"⟩

/-- `LoginRuleManager:set_mac_rule`. -/
def setMacRule (m : LoginRuleManager net) (rule : Text) :
    Except FormatError (LoginRuleManager net) :=
  if h : MacRule.checkFormat rule = true then
    .ok { m with
      mLoginRule := { m.mLoginRule with macRule := rule }
      mMacRule := ⟨rule, h⟩
      ip_eq := m.ip_eq
      mac_eq := rfl
      time_eq := m.time_eq }
  else .error ⟨rule, "Mac"⟩

/-- `LoginRuleManager:set_time_rule`. -/
def setTimeRule (m : LoginRuleManager net) (rule : Text) :
    Except FormatError (LoginRuleManager net) :=
  if h : TimeRule.checkFormat rule = true then
    .ok { m with
      mLoginRule := { m.mLoginRule with timeRule := rule }
      mTimeRule := ⟨rule, h⟩
      ip_eq := m.ip_eq
      mac_eq := m.mac_eq
      time_eq := rfl }
  else .error ⟨rule, "StartTime/EndTime"⟩

/-- The three rules admit the login. -/
def admits (m : LoginRuleManager net) (host : Host) (now : LocalTime) (ip : Text) : Bool :=
  IpRule.checkRule net ip m.mIpRule.rule && MacRule.checkRule net host ip m.mMacRule.rule
    && TimeRule.checkRule now m.mTimeRule.rule

/-- `LoginRuleManager:check_login_rule`. -/
def checkLoginRule (m : LoginRuleManager net) (host : Host) (now : LocalTime) (ip : Text) :
    Bool :=
  if m.mLoginRule.enabled = false then true else m.admits host now ip

/-- `LoginRuleManager:data_to_line`. -/
def dataToLine (m : LoginRuleManager net) : Text :=
  [','].intercalate
    [Nat.toDigits 10 m.mLoginRule.ruleId,
      if m.mLoginRule.enabled then ['1'] else ['0'],
      m.mLoginRule.timeRule,
      m.mLoginRule.ipRule,
      m.mLoginRule.macRule,
      m.mLoginRule.ipv6Rule]

end LoginRuleManager

/-- `LoginRuleCollection`: the three login rules. -/
structure LoginRuleCollection (net : NetworkCore) where
  rule : Fin 3 → LoginRuleManager net
  ruleId_eq : ∀ i, (rule i).mLoginRule.ruleId = i + 1

namespace LoginRuleCollection

variable {net : NetworkCore}

/-- The account selects the rule. -/
def selected (ids : ℕ) (i : Fin 3) : Bool :=
  (ids >>> (i : ℕ)) &&& 1 == 1

/-- The loop of `check_login_rule`. -/
def checkLoop (c : LoginRuleCollection net) (host : Host) (now : LocalTime) (ids : ℕ)
    (ip : Text) : ℕ → List (Fin 3) → Bool
  | skipNum, [] => skipNum == 3
  | skipNum, i :: is =>
    if selected ids i then
      if (c.rule i).mLoginRule.enabled = false then
        checkLoop c host now ids ip (skipNum + 1) is
      else if (c.rule i).checkLoginRule host now ip then true
      else checkLoop c host now ids ip skipNum is
    else checkLoop c host now ids ip (skipNum + 1) is

/-- `LoginRuleCollection:check_login_rule`. -/
def checkLoginRule (c : LoginRuleCollection net) (host : Host) (now : LocalTime) (ids : ℕ)
    (ip : Text) : Bool :=
  checkLoop c host now ids ip 0 [0, 1, 2]

/-- `LoginRuleCollection:get_lines`, when the rules are visited in the given order. -/
def getLines (c : LoginRuleCollection net) (order : List (Fin 3)) : Text :=
  ['\n'].intercalate (order.map fun i => (c.rule i).dataToLine)

end LoginRuleCollection

/-! ## The PAM modules -/

namespace CheckLoginRule

/-- `LOGIN_RULE_INFO`. -/
structure LoginRuleInfo where
  ruleId : ℕ := 0
  ruleEnabled : ℕ := 0
  timeRule : Text := []
  ipRule : Text := []
  macRule : Text := []
  ipv6Rule : Text := []

/-- `parse_line_token_to_uint8`: a token without a number leaves the target as it is. -/
def parseLineTokenToUint8 (token : Text) (target : ℕ) : ℕ :=
  match scanInt token with
  | some (n, _) => lowBits 8 n
  | none => target

/-- `memcpy_s` of a token to a field of 65 bytes: the bytes after it stay, and a token that
is too long clears the field. -/
def copyField (token target : Text) : Text :=
  if token.length ≤ 65 then token ++ target.drop token.length else []

/-- A token of a line at its position. -/
def setField (r : LoginRuleInfo) (token : Text) : ℕ → LoginRuleInfo
  | 1 => { r with ruleId := parseLineTokenToUint8 token r.ruleId }
  | 2 => { r with ruleEnabled := parseLineTokenToUint8 token r.ruleEnabled }
  | 3 => { r with timeRule := copyField token r.timeRule }
  | 4 => { r with ipRule := copyField token r.ipRule }
  | 5 => { r with macRule := copyField token r.macRule }
  | 6 => { r with ipv6Rule := copyField token r.ipv6Rule }
  | _ => r

/-- `parse_per_rule`. -/
def parsePerRule (line : Text) (r : LoginRuleInfo) : LoginRuleInfo :=
  ((line.splitOn ',').zipIdx 1).foldl (fun r token => setField r token.1 token.2) r

/-- The place in the array of rules that the number in front of a line names. -/
def lineIndex (line : Text) : Option (Fin 3) :=
  match parseLineTokenToUint8 (line.takeWhile (· ≠ ',')) 0 with
  | 1 => some 0
  | 2 => some 1
  | 3 => some 2
  | _ => none

/-- The loop of `parse_rules`: it ends at an empty line, and at one that is longer than the
buffer for a line. A line whose number names no place in the array is not written by the
service. -/
def parseLines (rules : Fin 3 → LoginRuleInfo) : List Text → Fin 3 → LoginRuleInfo
  | [] => rules
  | line :: lines =>
    if line.length = 0 ∨ 259 < line.length then rules
    else match lineIndex line with
      | some i => parseLines (Function.update rules i (parsePerRule line (rules i))) lines
      | none => parseLines rules lines

/-- `get_login_rules`: the result of `parse_rules` is not looked at, and a file that is too
long leaves the rules empty. -/
def getLoginRules (filebuf : Text) : Option (Fin 3 → LoginRuleInfo) :=
  if filebuf.length = 0 then none
  else if 777 < filebuf.length then some fun _ => {}
  else some (parseLines (fun _ => {}) (filebuf.splitOn '\n'))

/-- The IP rule that is checked. -/
def chosenIpRule (r : LoginRuleInfo) : Text :=
  if r.ipRule.length = 0 ∧ r.ipv6Rule.length ≠ 0 then r.ipv6Rule else r.ipRule

/-- The loop of `check_rules`. -/
def checkRulesLoop (host : Host) (now : LocalTime) (ruleIds : ℕ) (ipAddr : Text)
    (loginRules : Fin 3 → LoginRuleInfo) : ℕ → List (Fin 3) → Ret
  | flag, [] => if flag = 7 then .ok else .userLoginLimited
  | flag, i :: is =>
    if (loginRules i).ruleEnabled = 0 ∨ (ruleIds >>> (i : ℕ)) &&& 1 = 0 then
      checkRulesLoop host now ruleIds ipAddr loginRules
        ((flag + ((1 <<< (i : ℕ)) &&& 0xff)) % 256) is
    else if checkTimeRule now (loginRules i).timeRule ≠ .ok then
      checkRulesLoop host now ruleIds ipAddr loginRules flag is
    else if checkIpRule (chosenIpRule (loginRules i)) ipAddr ≠ .ok then
      checkRulesLoop host now ruleIds ipAddr loginRules flag is
    else if checkMacRule host (loginRules i).macRule ipAddr ≠ .ok then
      checkRulesLoop host now ruleIds ipAddr loginRules flag is
    else .ok

/-- `check_rules`: the rules that an account selects are passed in a byte. -/
def checkRules (host : Host) (now : LocalTime) (ruleIds : ℕ) (ipAddr : Text)
    (loginRules : Fin 3 → LoginRuleInfo) : Ret :=
  checkRulesLoop host now (ruleIds % 256) ipAddr loginRules 0 [0, 1, 2]

/-- `check_snmpv1v2_login_rule`, and the end of `check_user_login_rule`. -/
def checkSnmpv1v2LoginRule (host : Host) (now : LocalTime) (ruleids : ℕ) (ipAddr : Text)
    (filebuf : Text) : Ret :=
  match getLoginRules filebuf with
  | none => .err
  | some loginRules => checkRules host now ruleids ipAddr loginRules

end CheckLoginRule

/-! ## The file is read back -/

/-- A text that can be a field of a line. -/
structure Plain (s : Text) : Prop where
  comma : ',' ∉ s
  newline : '\n' ∉ s
  short : s.length ≤ 50

theorem plain_nil :
  Plain []
  :=
  ⟨by simp, by simp, by simp⟩

theorem plain_of_forall {s : Text} (hlen : s.length ≤ 50)
    (h : ∀ c ∈ s, AddrChar c ∨ c ∈ ['-', ' ', '/']) :
  Plain s
  := by
  refine ⟨fun hc => ?_, fun hc => ?_, hlen⟩
  · exact absurd (h _ hc) (by unfold AddrChar; decide)
  · exact absurd (h _ hc) (by unfold AddrChar; decide)

theorem TimeRule.plain {rule : Text} (h : checkFormat rule = true) :
  Plain rule
  := by
  unfold checkFormat at h
  split_ifs at h with h0 h33
  · rw [List.length_eq_zero_iff.mp h0]
    exact plain_nil
  · cases ht : getFormatType rule with
    | none => simp [ht] at h
    | some t =>
      obtain ⟨a, b, hrule, ha, hb, -⟩ := getFormatType_eq_some ht
      have hjoin : ∀ {fs : List Text} {c : Char}, DigitFields (widths t) fs →
          c ∈ joinWith (seps t) fs → AddrChar c ∨ c ∈ ['-', ' ', '/'] := by
        intro fs c hfs hc
        rcases mem_joinWith hc with hc | ⟨f, hf, hc⟩
        · have hsep : c = '-' ∨ c = ' ' ∨ c = ':' := by
            cases t <;> simp [seps, regexp] at hc <;> tauto
          rcases hsep with rfl | rfl | rfl
          · simp
          · simp
          · exact Or.inl (Or.inr (Or.inl rfl))
        · exact Or.inl (addrChar_of_isDigit (hfs.isDigit f hf c hc))
      refine plain_of_forall (by omega) ?_
      intro c hc
      rw [hrule, List.mem_append, List.mem_cons] at hc
      rcases hc with hc | rfl | hc
      · exact hjoin ha hc
      · simp
      · exact hjoin hb hc

/-- A character of a text is a separator or is in one of the pieces between separators. -/
theorem mem_splitOn {a c : Char} {s : Text} (hc : c ∈ s) :
  c = a ∨ ∃ p ∈ s.splitOn a, c ∈ p
  := by
  induction s with
  | nil => simp at hc
  | cons d s ih =>
    rw [List.splitOn_cons_eq_if_modifyHead]
    by_cases hd : d = a
    · rcases List.mem_cons.mp hc with rfl | hc
      · exact Or.inl hd
      · rcases ih hc with h | ⟨p, hp, h⟩
        · exact Or.inl h
        · exact Or.inr ⟨p, by simp [hd, hp], h⟩
    · obtain ⟨q, qs, hq⟩ := List.exists_cons_of_ne_nil (List.splitOn_ne_nil a s)
      rw [hq] at ih ⊢
      simp only [beq_iff_eq, hd, if_false, List.modifyHead_cons, List.mem_cons,
        exists_eq_or_imp] at hc ih ⊢
      rcases hc with rfl | hc
      · exact Or.inr (Or.inl (Or.inl rfl))
      · rcases ih hc with h | h | h
        · exact Or.inl h
        · exact Or.inr (Or.inl (Or.inr h))
        · exact Or.inr (Or.inr h)

theorem MacRule.plain {rule : Text} (h : checkFormat rule = true) :
  Plain rule
  := by
  unfold checkFormat at h
  split_ifs at h with h0 h17
  · rw [List.length_eq_zero_iff.mp h0]
    exact plain_nil
  · cases hinfo : getMacInfo rule with
    | none => simp [hinfo] at h
    | some segments =>
      simp only [getMacInfo] at hinfo
      split_ifs at hinfo with hsegs
      refine plain_of_forall (by omega) ?_
      intro c hc
      left
      rcases mem_splitOn (a := ':') hc with rfl | ⟨p, hp, hc⟩
      · exact Or.inr (Or.inl rfl)
      · exact Or.inl (List.all_eq_true.mp (hsegs.2 p hp).2 c hc)

/-- The length of the mask is the last piece of a rule. -/
theorem IpRule.isDigit_of_hasMask {rule address digits : Text} (h : hasMask rule = true)
    (hfilter : (rule.splitOn '/').filter (· ≠ []) = [address, digits]) :
  ∀ c ∈ digits, c.isDigit = true
  := by
  simp only [hasMask, Bool.and_eq_true] at h
  obtain ⟨-, h⟩ := h
  split at h
  case h_2 => simp at h
  case h_1 last hlast =>
    simp only [ne_eq, Bool.and_eq_true, decide_not, Bool.not_eq_true', decide_eq_false_iff_not]
      at h
    obtain ⟨init, hinit⟩ := List.getLast?_eq_some_iff.mp hlast
    rw [hinit, List.filter_append, List.filter_cons_of_pos (by simp [h.1]),
      List.filter_nil] at hfilter
    have hlast := congrArg List.getLast? hfilter
    simp only [List.getLast?_append, List.getLast?_singleton, Option.some_or,
      List.getLast?_cons_cons, Option.some.injEq] at hlast
    rw [← hlast]
    exact List.all_eq_true.mp h.2

theorem IpRule.plain {net : NetworkCore} (hnet : net.Agrees) {rule : Text}
    (h : checkFormat net rule = true) :
  Plain rule
  := by
  have hvalid : ∀ {s}, net.verifyIpv4Address s = true ∨ net.verifyIpv6Address s = true →
      ∀ c ∈ s, AddrChar c := by
    intro s hs
    rw [hnet.ipv4, hnet.ipv6] at hs
    exact (CheckLoginRule.addrChar_of_validIp hs).2
  unfold checkFormat at h
  split_ifs at h with h0 h50
  · rw [List.length_eq_zero_iff.mp h0]
    exact plain_nil
  · refine plain_of_forall (by omega) ?_
    intro c hc
    simp only [decide_eq_true_eq, ne_eq, getFormatType, if_neg h0] at h
    split_ifs at h with hmask h₄ h₆
    · split at h
      case h_2 => exact absurd rfl h
      case h_1 address digits hfilter =>
        have haddr : ∀ c ∈ address, AddrChar c := by
          split_ifs at h with h₄ h₆
          · exact hvalid (Or.inl h₄.1)
          · exact hvalid (Or.inr h₆.1)
          · exact absurd rfl h
        have hdigits := isDigit_of_hasMask hmask hfilter
        rcases mem_splitOn (a := '/') hc with rfl | ⟨p, hp, hc⟩
        · simp
        · have hmem : p ∈ (rule.splitOn '/').filter (· ≠ []) :=
            List.mem_filter.mpr ⟨hp, by simpa using List.ne_nil_of_mem hc⟩
          rw [hfilter, List.mem_cons, List.mem_singleton] at hmem
          rcases hmem with rfl | rfl
          · exact Or.inl (haddr c hc)
          · exact Or.inl (addrChar_of_isDigit (hdigits c hc))
    · exact Or.inl (hvalid (Or.inl h₄) c hc)
    · exact Or.inl (hvalid (Or.inr h₆) c hc)
    · exact absurd rfl h

theorem plain_ipColumns (net : NetworkCore) {rule : Text} (h : Plain rule) :
  Plain (ipColumns net rule).1 ∧ Plain (ipColumns net rule).2
  := by
  unfold ipColumns
  cases IpRule.getFormatType net rule <;> simp [h, plain_nil]

namespace CheckLoginRule

variable {net : NetworkCore}

/-- What the PAM modules are to read for a rule. -/
def infoOf (m : LoginRuleManager net) : LoginRuleInfo where
  ruleId := m.mLoginRule.ruleId
  ruleEnabled := if m.mLoginRule.enabled then 1 else 0
  timeRule := m.mLoginRule.timeRule
  ipRule := m.mLoginRule.ipRule
  macRule := m.mLoginRule.macRule
  ipv6Rule := m.mLoginRule.ipv6Rule

/-- The columns of a row that are texts. -/
structure PlainRow (r : Row) : Prop where
  time : Plain r.timeRule
  ip : Plain r.ipRule
  mac : Plain r.macRule
  ipv6 : Plain r.ipv6Rule

theorem plainRow (hnet : net.Agrees) (m : LoginRuleManager net) :
  PlainRow m.mLoginRule
  := by
  have hip := plain_ipColumns net (IpRule.plain hnet m.mIpRule.valid)
  rw [← m.ip_eq] at hip
  exact ⟨m.time_eq ▸ TimeRule.plain m.mTimeRule.valid, hip.1,
    m.mac_eq ▸ MacRule.plain m.mMacRule.valid, hip.2⟩

theorem toDigits_ruleId (i : Fin 3) :
  Nat.toDigits 10 ((i : ℕ) + 1) = [Nat.digitChar (i + 1)]
  :=
  Nat.toDigits_of_lt_base (by omega)

theorem digitChar_ruleId (i : Fin 3) :
  Nat.digitChar (i + 1) ≠ ',' ∧ Nat.digitChar (i + 1) ≠ '\n'
    ∧ parseLineTokenToUint8 [Nat.digitChar (i + 1)] 0 = i + 1
  := by
  revert i
  decide

theorem copyField_nil {s : Text} (h : Plain s) :
  copyField s [] = s
  := by
  unfold copyField
  rw [if_pos (by have := h.short; omega), List.drop_nil, List.append_nil]

/-- The fields of a line. -/
theorem splitOn_dataToLine {m : LoginRuleManager net} (h : PlainRow m.mLoginRule) {i : Fin 3}
    (hid : m.mLoginRule.ruleId = i + 1) :
  m.dataToLine.splitOn ','
    = [[Nat.digitChar (i + 1)], if m.mLoginRule.enabled then ['1'] else ['0'],
        m.mLoginRule.timeRule, m.mLoginRule.ipRule, m.mLoginRule.macRule,
        m.mLoginRule.ipv6Rule]
  := by
  unfold LoginRuleManager.dataToLine
  rw [hid, toDigits_ruleId]
  refine List.splitOn_intercalate ',' ?_ (by simp)
  have hdigit := (digitChar_ruleId i).1.symm
  have henabled : ',' ∉ (if m.mLoginRule.enabled then ['1'] else ['0']) := by
    split <;> decide
  simp [hdigit, henabled, h.time.comma, h.ip.comma, h.mac.comma, h.ipv6.comma]

theorem parsePerRule_dataToLine {m : LoginRuleManager net} (h : PlainRow m.mLoginRule)
    {i : Fin 3} (hid : m.mLoginRule.ruleId = i + 1) :
  parsePerRule m.dataToLine {} = infoOf m
  := by
  have henabled : parseLineTokenToUint8 (if m.mLoginRule.enabled then ['1'] else ['0']) 0
      = if m.mLoginRule.enabled then 1 else 0 := by
    split <;> decide
  unfold parsePerRule
  rw [splitOn_dataToLine h hid]
  simp only [List.zipIdx_cons, List.zipIdx_nil, List.foldl_cons, List.foldl_nil, setField,
    (digitChar_ruleId i).2.2, henabled, copyField_nil h.time, copyField_nil h.ip,
    copyField_nil h.mac, copyField_nil h.ipv6]
  rw [infoOf, hid]

theorem lineIndex_dataToLine {m : LoginRuleManager net} {i : Fin 3}
    (hid : m.mLoginRule.ruleId = i + 1) :
  lineIndex m.dataToLine = some i
  := by
  have htake : m.dataToLine.takeWhile (· ≠ ',') = [Nat.digitChar (i + 1)] := by
    unfold LoginRuleManager.dataToLine
    rw [hid, toDigits_ruleId]
    simp [List.intercalate, List.intersperse, (digitChar_ruleId i).1]
  unfold lineIndex
  rw [htake, (digitChar_ruleId i).2.2]
  fin_cases i <;> rfl

/-- A line of the file fits in the buffer for a line. -/
theorem length_dataToLine {m : LoginRuleManager net} (h : PlainRow m.mLoginRule) {i : Fin 3}
    (hid : m.mLoginRule.ruleId = i + 1) :
  m.dataToLine.length ≠ 0 ∧ m.dataToLine.length ≤ 207 ∧ '\n' ∉ m.dataToLine
  := by
  have ht := h.time.short
  have hi := h.ip.short
  have hm := h.mac.short
  have h6 := h.ipv6.short
  have henabled : (if m.mLoginRule.enabled then ['1'] else ['0'] : Text).length = 1
      ∧ '\n' ∉ (if m.mLoginRule.enabled then ['1'] else ['0']) := by
    split <;> decide
  unfold LoginRuleManager.dataToLine
  rw [hid, toDigits_ruleId]
  refine ⟨?_, ?_, ?_⟩
  · simp [List.intercalate, List.intersperse]
  · simp [List.intercalate, List.intersperse, henabled.1]
    omega
  · simp [List.intercalate, List.intersperse, (digitChar_ruleId i).2.1.symm, henabled.2,
      h.time.newline, h.ip.newline, h.mac.newline, h.ipv6.newline]

theorem parseLines_map_dataToLine (hnet : net.Agrees) (c : LoginRuleCollection net)
    {order : List (Fin 3)} (hnodup : order.Nodup) {rules : Fin 3 → LoginRuleInfo}
    (hrules : ∀ i ∈ order, rules i = {}) :
  parseLines rules (order.map fun i => (c.rule i).dataToLine)
    = fun i => if i ∈ order then infoOf (c.rule i) else rules i
  := by
  induction order generalizing rules with
  | nil => simp [parseLines]
  | cons i order ih =>
    have hrow := plainRow hnet (c.rule i)
    have hlen := length_dataToLine hrow (c.ruleId_eq i)
    obtain ⟨hi, hnodup⟩ := List.nodup_cons.mp hnodup
    rw [List.map_cons, parseLines, if_neg (by omega), lineIndex_dataToLine (c.ruleId_eq i)]
    simp only [hrules i List.mem_cons_self, parsePerRule_dataToLine hrow (c.ruleId_eq i)]
    rw [ih hnodup]
    · funext j
      by_cases hj : j = i
      · subst hj
        simp [hi]
      · simp [hj]
    · intro j hj
      have hne : j ≠ i := by
        rintro rfl
        exact hi hj
      rw [Function.update_of_ne hne]
      exact hrules j (List.mem_cons_of_mem _ hj)

/-- The PAM modules read back the rules of the service, in whatever order these are
written. -/
theorem getLoginRules_getLines (hnet : net.Agrees) (c : LoginRuleCollection net)
    {order : List (Fin 3)} (horder : order.Perm (List.finRange 3)) :
  getLoginRules (c.getLines order) = some fun i => infoOf (c.rule i)
  := by
  have hlines : ∀ l ∈ order.map fun i => (c.rule i).dataToLine,
      l.length ≠ 0 ∧ l.length ≤ 207 ∧ '\n' ∉ l := by
    intro l hl
    obtain ⟨i, -, rfl⟩ := List.mem_map.mp hl
    exact length_dataToLine (plainRow hnet (c.rule i)) (c.ruleId_eq i)
  have hsplit : (c.getLines order).splitOn '\n' = order.map fun i => (c.rule i).dataToLine := by
    refine List.splitOn_intercalate '\n' (fun l hl => (hlines l hl).2.2) ?_
    rintro hnil
    have := horder.length_eq
    simp [List.map_eq_nil_iff.mp hnil] at this
  have hlen : (c.getLines order).length ≠ 0 ∧ (c.getLines order).length ≤ 777 := by
    obtain ⟨i, j, k, rfl⟩ := List.length_eq_three.mp (horder.length_eq.trans (by simp))
    simp only [List.map_cons, List.map_nil, List.forall_mem_cons] at hlines
    obtain ⟨hi, hj, hk, -⟩ := hlines
    simp only [LoginRuleCollection.getLines, List.intercalate, List.intersperse, List.map_cons,
      List.map_nil, List.flatten_cons, List.flatten_nil, List.length_append, List.length_cons,
      List.length_nil]
    omega
  unfold getLoginRules
  rw [if_neg hlen.1, if_neg (by omega), hsplit,
    parseLines_map_dataToLine hnet c (horder.nodup_iff.mpr (List.nodup_finRange 3))
      (fun _ _ => rfl)]
  congr 1
  funext i
  rw [if_pos (horder.mem_iff.mpr (List.mem_finRange i))]

end CheckLoginRule

end LoginRule

end BmcAccount
