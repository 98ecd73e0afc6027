import BmcAccount.Linux.LoginModule
import BmcAccount.Account.Authentication

/-!
# The login module and the account service

A user of an account logs in over SSH through the login module, and over the other interfaces
through `authenticate` of the account service. Apart from the password both should come to the
same decision about an account. The service decides by the account itself, the module by the files
that the service has written.

`letsIn_iff_returns_iff` says that they do, unless the account is restricted by login rules and only
rules that straddle the year 2048 admit the login.
-/

namespace BmcAccount

open Raise LoginRule LoginRule.CheckLoginRule

namespace Linux

open LoginModule

/-- The request of a login from an address over SSH. -/
def sshCtx (ip : String) : AuthCtx where
  clientAddr := some ip
  interface := some "SSH"

section Service

variable {auth : AuthEnv} {s : State} {id : ℕ} {a : Account} {ip : String}

/-- What the service asks of an account without looking at the password. -/
def ServiceAdmits (auth : AuthEnv) (s : State) (ip : String) (id : ℕ) (a : Account) : Prop :=
  a.data.locked = false ∧ a.data.enabled = true
    ∧ (s.checkIsEmergencyUser id = true
      ∨ s.checkLoginRule auth id a ip = true ∧ a.data.loginInterface.testBit 3 = true)
    ∧ a.data.roleId ≠ RoleType.noAccess.value

theorem returns_checkAccountLoginInfo_iff :
  Returns (checkAccountLoginInfo auth (sshCtx ip) id a) s
    ↔ s.checkIsEmergencyUser id = true
      ∨ s.checkLoginRule auth id a ip = true ∧ a.data.loginInterface.testBit 3 = true
  := by
  have hbit : LoginInterface.ssh.value &&& a.data.loginInterface = 0
      ↔ ¬ a.data.loginInterface.testBit 3 = true := by
    rw [show LoginInterface.ssh.value = 2 ^ 3 from rfl, Nat.two_pow_and]
    cases a.data.loginInterface.testBit 3 <;> simp
  unfold checkAccountLoginInfo
  rw [returns_get_bind_iff]
  split_ifs with hemergency
  · exact iff_of_true (returns_pure ()) (Or.inl hemergency)
  · rw [or_iff_right hemergency, returns_refuse_bind_iff]
    apply and_congr
    · simp [sshCtx]
    · change Returns (refuse _ _) s ↔ _
      rw [returns_refuse_iff, decide_eq_false_iff_not, hbit, not_not]

theorem returns_authenticate_iff {order : List ℕ} {name password : String} {ext : ExtConfig}
    (hname : auth.baseCheckUserName name = true) (hfind : s.findAccount order name = some (id, a))
    (hext : ext.isAuthPassword = false) :
  Returns (authenticate auth order (sshCtx ip) name password ext) s
    ↔ ServiceAdmits auth s ip id a
  := by
  have hkeeps : Keeps (· = s) (checkAccountLoginInfo auth (sshCtx ip) id a) := by
    unfold checkAccountLoginInfo
    apply Keeps.bind Keeps.get
    intro s'
    apply Keeps.ite
    · exact Keeps.pure
    · apply Keeps.bind Keeps.refuse
      intro _
      exact Keeps.refuse
  have hrecord : ∀ s', Returns (extRecordOperation auth (sshCtx ip) ext id >>= fun _ =>
      (pure (id, a) : AuthM (ℕ × Account))) s' := by
    intro s'
    unfold extRecordOperation
    cases ext.recordLoginInfo <;> cases ext.updateActiveTime <;> exact ⟨_, rfl⟩
  unfold authenticate
  rw [hname, hext, Bool.not_true, returns_refuse_bind_iff, Bool.false_and, returns_refuse_bind_iff,
    returns_get_bind_iff, hfind]
  dsimp only
  rw [returns_refuse_bind_iff, Bool.false_and, returns_refuse_bind_iff, returns_refuse_bind_iff,
    returns_bind_iff_of_keeps hkeeps, returns_checkAccountLoginInfo_iff,
    returns_refuse_bind_iff, and_iff_left (hrecord s)]
  simp [ServiceAdmits]

end Service

/-! ## One decision -/

/-- The account may log in over SSH but for its login rules. -/
def Otherwise (s : State) (id : ℕ) (a : Account) : Prop :=
  a.data.enabled = true ∧ a.data.locked = false ∧ a.data.roleId ≠ RoleType.noAccess.value
    ∧ (s.checkIsEmergencyUser id = true ∨ a.data.loginInterface.testBit 3 = true)

/-- Some rules of the account admit the login, and all of them straddle the year 2048. -/
def OnlyStraddling {net : NetworkCore} (c : LoginRuleCollection net) (host : Host)
    (now : LocalTime) (ip : Text) (ids : ℕ) : Prop :=
  (∃ i, Active c ids i ∧ (c.rule i).admits host now ip = true)
    ∧ ∀ i, Active c ids i → (c.rule i).admits host now ip = true →
      Straddles (c.rule i).mTimeRule.rule

section Decision

variable {net : NetworkCore} {c : LoginRuleCollection net} {host : Host} {now : LocalTime}
  {auth : AuthEnv} {s : State} {id : ℕ} {a : Account}

/-- The rules of the module decide as those of the service, but for a login that only rules that
straddle the year 2048 admit. -/
theorem letIn_iff_letIn_iff {ip : Text} {ids : ℕ} :
  ((LetIn (Active c ids) fun i =>
      (c.rule i).admits host now ip = true ∧ ¬ Straddles (c.rule i).mTimeRule.rule)
    ↔ LetIn (Active c ids) fun i => (c.rule i).admits host now ip = true)
    ↔ ¬ OnlyStraddling c host now ip ids
  := by
  unfold LetIn OnlyStraddling
  constructor
  · rintro hiff ⟨⟨i, hactive, hadmits⟩, hall⟩
    rcases hiff.mpr (Or.inl ⟨i, hactive, hadmits⟩) with ⟨j, hj, hjadmits, hjnot⟩ | hnone
    · exact hjnot (hall j hj hjadmits)
    · exact hnone i hactive
  · intro hnot
    constructor
    · rintro (⟨i, hactive, hadmits, -⟩ | hnone)
      · exact Or.inl ⟨i, hactive, hadmits⟩
      · exact Or.inr hnone
    · rintro (hexists | hnone)
      · left
        by_contra hall
        push Not at hall
        exact hnot ⟨hexists, fun i hi hadmits => hall i hi hadmits⟩
      · exact Or.inr hnone

/-- The decision of the module. -/
theorem admits_ssh_iff {ip : Text} :
  Admits s c host now sshName ip id a ∧ MayUse s sshName id a
    ↔ Otherwise s id a ∧ (s.checkIsEmergencyUser id = true
      ∨ LetIn (Active c a.data.loginRuleIds) fun i =>
        (c.rule i).admits host now ip = true ∧ ¬ Straddles (c.rule i).mTimeRule.rule)
  := by
  have hftp : ¬ ftpName <+: sshName := by decide
  have huart : ¬ uart2Name <+: sshName := by decide
  have hmay : MayUse s sshName id a
      ↔ s.checkIsEmergencyUser id = true ∨ a.data.loginInterface.testBit 3 = true := by
    unfold MayUse
    rw [show interfaceOffset sshName = some 3 by decide]
    simp
  rw [hmay]
  constructor
  · rintro ⟨hadmits, hinterface⟩
    exact ⟨⟨hadmits.enabled, hadmits.unlocked.resolve_left hftp, hadmits.access, hinterface⟩,
      hadmits.rules.resolve_left (not_or.mpr ⟨huart, hftp⟩)⟩
  · rintro ⟨⟨henabled, hunlocked, haccess, hinterface⟩, hrules⟩
    exact ⟨⟨henabled, haccess, Or.inr hunlocked, Or.inr hrules⟩, hinterface⟩

/-- The decision of the service. -/
theorem serviceAdmits_iff {ip : String}
    (hrules : ∀ ids ip, auth.loginRules ids ip = c.checkLoginRule host now ids ip.toList)
    (hcls : a.cls = .localAccount ∨ a.cls = .oemAccount) :
  ServiceAdmits auth s ip id a
    ↔ Otherwise s id a ∧ (s.checkIsEmergencyUser id = true
      ∨ LetIn (Active c a.data.loginRuleIds) fun i =>
        (c.rule i).admits host now ip.toList = true)
  := by
  have hverdict : a.checkLoginRule auth ip = true
      ↔ LetIn (Active c a.data.loginRuleIds) fun i =>
        (c.rule i).admits host now ip.toList = true := by
    rw [← checkLoginRule_eq_true_iff, ← hrules]
    unfold Account.checkLoginRule
    rcases hcls with hcls | hcls <;> rw [hcls]
  unfold ServiceAdmits Otherwise State.checkLoginRule
  rw [Bool.or_eq_true, hverdict]
  constructor
  · rintro ⟨hunlocked, henabled, hemergency | ⟨hrules, hinterface⟩, haccess⟩
    · exact ⟨⟨henabled, hunlocked, haccess, Or.inl hemergency⟩, Or.inl hemergency⟩
    · exact ⟨⟨henabled, hunlocked, haccess, Or.inr hinterface⟩, hrules⟩
  · rintro ⟨⟨henabled, hunlocked, haccess, hinterface⟩, hrules⟩
    refine ⟨hunlocked, henabled, ?_, haccess⟩
    rcases hinterface with hemergency | hinterface
    · exact Or.inl hemergency
    · exact Or.inr ⟨hrules, hinterface⟩

end Decision

namespace World

variable {w : World} {files : Files} {net : NetworkCore} {c : LoginRuleCollection net}
  {order : List (Fin 3)} {host : Host} {now : LocalTime} {errno : Bool} {auth : AuthEnv}
  {h : Handle} {ip password : String} {ext : ExtConfig} {e : ℕ × Account}

/-- The module and the service agree on a login over SSH if and only if it is not one that only
rules that straddle the year 2048 admit. -/
theorem letsIn_iff_returns_iff (hwf : files.WellFormed) (hread : w.Readable files)
    (hkept : w.WellKept) (hnet : net.Agrees) (horder : order.Perm (List.finRange 3))
    (hip : ValidIp ip.toList) (hmac : host.SameMac ip.toList) (hconf : h.Configured)
    (hrhost : h.rhost = some ip.toList) (htty : h.tty = some sshName)
    (hrules : ∀ ids ip, auth.loginRules ids ip = c.checkLoginRule host now ids ip.toList)
    (he : e ∈ w.keptAccounts) (hcls : e.2.cls = .localAccount ∨ e.2.cls = .oemAccount)
    (huser : h.user = e.2.data.userName) (hname : auth.baseCheckUserName h.user = true)
    (hfind : w.state.findAccount w.order h.user = some e) (hext : ext.isAuthPassword = false) :
  (LetsIn (w.flushedSystem files c order host now errno) h
      ↔ Returns (authenticate auth w.order (sshCtx ip) h.user password ext) w.state)
    ↔ ¬ (Otherwise w.state e.1 e.2 ∧ w.state.checkIsEmergencyUser e.1 = false
      ∧ OnlyStraddling c host now ip.toList e.2.data.loginRuleIds)
  := by
  have hmodule := @letsIn_account_iff w files net c order host now errno h ip.toList sshName
    hwf hread hkept hnet horder hconf hrhost htty (fun _ => ⟨hip, hmac⟩) e he (by rw [huser])
  have hservice := @returns_authenticate_iff auth w.state e.1 e.2 ip w.order h.user password ext
    hname hfind hext
  rw [hmodule, hservice, admits_ssh_iff, serviceAdmits_iff hrules hcls, and_congr_right_iff,
    not_and, not_and]
  apply imp_congr_right
  intro _
  cases w.state.checkIsEmergencyUser e.1 with
  | true => simp
  | false => simpa using letIn_iff_letIn_iff

/-- The service with the login rules of the module. -/
def straddlingAuth : AuthEnv where
  env := plainEnv
  baseCheckUserName _ := true
  loginRules ids ip := straddlingTable.checkLoginRule bmcHost june2047 ids ip.toList
  rmcp20Codes _ := none
  rmcp15Code _ := none

theorem letsIn_iff_returns_iff_alice :
  (LetsIn ((plainWorld "alice").flushedSystem rootFiles straddlingTable [0, 1, 2] bmcHost june2047
        false) (sshHandle "alice")
      ↔ Returns (authenticate straddlingAuth (plainWorld "alice").order (sshCtx "192.168.2.14")
        "alice" "" ⟨false, true, true⟩) (plainWorld "alice").state)
    ↔ ¬ (Otherwise (plainWorld "alice").state 2 (plainAccount "alice" 4 223)
      ∧ (plainWorld "alice").state.checkIsEmergencyUser 2 = false
      ∧ OnlyStraddling straddlingTable bmcHost june2047 clientIp
        (plainAccount "alice" 4 223).data.loginRuleIds)
  := by
  have hmem : (2, plainAccount "alice" 4 223) ∈ (plainWorld "alice").keptAccounts := by
    rw [keptAccounts_plainWorld]
    exact List.mem_singleton_self _
  exact letsIn_iff_returns_iff wellFormed_rootFiles readable_rootFiles wellKept_plainWorld
    ⟨fun _ => rfl, fun _ => rfl⟩ (by decide) (Or.inl (by decide))
    ⟨by decide, by decide, by decide⟩ (configured_sshHandle "alice") rfl rfl (fun _ _ => rfl) hmem
    (Or.inl rfl) rfl rfl rfl rfl

end World

end Linux

end BmcAccount
