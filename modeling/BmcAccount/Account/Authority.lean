import BmcAccount.Account.Admin
import BmcAccount.Account.Recover
import BmcAccount.Account.SnmpKeys

/-!
# Who may set the credentials of an account

Four methods of the management tree and two IPMI commands set passwords, SSH keys and the enabled
state of an account. Each of them decides by itself who may do that to another account. The IPMI
commands refuse a user that may only configure itself, whatever its role; the methods of the tree
look at the role of the account that has the name of the caller and not at its current privileges.
So an administrator that has to change its password first can change those of others
(`blocked_iff`).
-/

open Raise

namespace BmcAccount

/-- `privilege_map`: the bit of a privilege in a number. -/
def PrivilegeType.bit : PrivilegeType → ℕ
  | .readOnly => 0
  | .diagnoseMgmt => 1
  | .securityMgmt => 2
  | .basicSetting => 3
  | .userMgmt => 4
  | .powerMgmt => 5
  | .vmmMgmt => 6
  | .kvmMgmt => 7
  | .configureSelf => 8

namespace Authority

/-- The context of a call. -/
structure Ctx where
  userName : String
  clientAddr : String
  privilege : Option ℕ
  ipmi : IpmiCtx
  /-- The identifier of the user of the IPMI session. -/
  sessionUser : Option ℕ

/-- `TELNET_USER` and `HOST_CHAN_IP`. -/
def telnetUser : String := "<su>"
def hostChanIp : String := "HOST"

/-- `IPMI_ACCOUNT_ID`. -/
def ipmiAccountId : ℕ := 19

/-- `num_to_array`, in one of the orders in which the table may be visited. -/
def numToArray (n : ℕ) : List PrivilegeType :=
  [.readOnly, .diagnoseMgmt, .securityMgmt, .basicSetting, .userMgmt, .powerMgmt, .vmmMgmt,
    .kvmMgmt, .configureSelf].filter fun p => n.testBit p.bit

/-- The number of a list of privileges. -/
def number (ps : List PrivilegeType) : ℕ :=
  ps.foldl (fun n p => n ||| 2 ^ p.bit) 0

/-! ## The decisions -/

/-- `_privilege_check`, and the handler that it finds; the accounts are visited in the given
order. -/
def privilegeCheck (order : List ℕ) (ctx : Ctx) (id : ℕ) (s : State) : Bool × Option ℕ :=
  let handler := s.getAccountByName order ctx.userName
  if ctx.userName = telnetUser || ctx.clientAddr = hostChanIp || handler = some id then
    (true, handler)
  else if (handler.bind s.accounts.lookup).any fun a =>
      a.data.roleId = RoleType.administrator.value then
    (true, handler)
  else if ctx.privilege.any fun n => (numToArray n).contains .userMgmt then (true, handler)
  else (false, handler)

/-- `inner_channel_check`: the system channel and that of the CPLD. -/
def innerChannelCheck (ctx : Ctx) : Bool :=
  ctx.ipmi.chanNum = some 15 || ctx.ipmi.chanNum = some 13

/-- `get_ipmi_set_account_password_handler_id`. -/
def handlerId (ctx : Ctx) : Option ℕ :=
  if innerChannelCheck ctx then some ipmiAccountId else ctx.sessionUser

/-- `check_ipmi_password_privilege`. -/
def checkIpmiPasswordPrivilege (handler id : ℕ) (s : State) : Except Err Bool :=
  if maxUserNum < handler || handler < minUserNum then .ok true
  else
    match s.accounts.lookup handler with
    | none => .error .invalidAccountId
    | some a =>
      if handler = id then .ok true
      else if a.currentPrivileges = [.configureSelf] then .ok false
      else if a.data.roleId ≠ RoleType.administrator.value then .ok false
      else .ok true

/-! ## The calls -/

/-- What is raised by the handling of the key file and of the request alone. -/
inductive Fault where
  | propertyValueFormatError
  | publicKeyImportFailed
  | invalidParameter
  | valueOutOfRange
  | invalidPasswordLength
deriving DecidableEq

/-- How a call ends that does not raise an error of the accounts: it returns, with the number of
a task or a completion code, or the error of a path that may not be imported; or it raises one of
the other errors. -/
inductive Outcome where
  | done
  | task (n : ℕ)
  | notPermitted
  | code (n : ℕ)
  | raised (f : Fault)
deriving DecidableEq

/-- The call has done what it is asked for, or has started a task for it. -/
def Outcome.Success : Outcome → Prop
  | .done => True
  | .task _ => True
  | .code n => n = 0
  | _ => False

/-- What a call sees of the rest of the system: the key management, the files of a key and the
identifier of the manufacturer. -/
structure Platform where
  env : Env
  encrypts : String → Bool
  manufactureId : ℕ
  matchesPub : String → Bool
  isPermitted : String → Bool
  realpathOk : Bool
  opens : Bool
  matchesRemote : String → Bool
  fileFromUrl : String → Except Err ℕ
  checkImportPath : String → Bool
  publicKeyHash : Option String

/-- `SSH_PUBLIC_KEY_PARSE_PATH`. -/
def sshPublicKeyParsePath : String := "/dev/shm/tmp/ssh_rsa.pub"

section

variable (sys : Platform)

/-- `is_import_permitted`. -/
def isImportPermitted (type content : String) : Bool :=
  type != "URI"
    || (sys.matchesPub content && (!content.startsWith "/" || sys.isPermitted content))

/-- `parse_content_with_type`. -/
def parseContentWithType (type content : String) : Except Fault String :=
  if type = "URI" then
    let content := if content.startsWith "/" then sshPublicKeyParsePath else content
    if !content.endsWith ".pub" || (!content.startsWith "/" && 1000 < content.utf8ByteSize) then
      .error .propertyValueFormatError
    else .ok content
  else if !sys.realpathOk then .error .propertyValueFormatError
  else if !sys.opens then .error .publicKeyImportFailed
  else .ok sshPublicKeyParsePath

/-- The account with the hash of a key. -/
def withKeyHash (hash : String) (a : Account) : Account :=
  { a with data := { a.data with sshPublicKeyHash := hash } }

/-- `AccountCollection:import_ssh_public_key`: local and inter-chassis accounts get the hash of
the key. -/
def importLocal (id : ℕ) (path : String) : M Outcome :=
  if !sys.checkImportPath path then pure (.raised .publicKeyImportFailed)
  else do
    let a ← getAccount id .indexNil
    match a.cls with
    | .localAccount | .interChassisAccount =>
      match sys.publicKeyHash with
      | none => pure (.raised .publicKeyImportFailed)
      | some hash => do
        updateAccount id fun _ => withKeyHash hash
        pure (.task 0)
    | _ => pure (.task 0)

variable (order : List ℕ) (ctx : Ctx)

/-- `change_password`. -/
def changePassword (id : ℕ) (password : String) : M Outcome := do
  refuse (id = interChassisAccountId) .actionNotSupported
  let s ← get
  refuse (!(privilegeCheck order ctx id s).1) .insufficientPrivilege
  -- without a handler, the account does not configure itself
  AccountService.setAccountPassword sys.env sys.encrypts
    ((privilegeCheck order ctx id s).2.getD (id + 1)) id password
  pure .done

/-- `change_snmp_password`. -/
def changeSnmpPassword (id : ℕ) (password : String) : M Outcome := do
  refuse (id = interChassisAccountId) .actionNotSupported
  let s ← get
  refuse (!(privilegeCheck order ctx id s).1) .insufficientPrivilege
  AccountService.setUserSnmpPwd sys.env id password
  pure .done

/-- `import_ssh_public_key`: a remote file is imported by a task. -/
def importSshPublicKey (id : ℕ) (type content : String) : M Outcome :=
  if !isImportPermitted sys type content then pure .notPermitted
  else
    match parseContentWithType sys type content with
    | .error f => pure (.raised f)
    | .ok path => do
      let s ← get
      refuse (!(privilegeCheck order ctx id s).1) .insufficientPrivilege
      let _ ← getAccount id .invalidAccountId
      if !sys.matchesRemote path then pure (.raised .propertyValueFormatError)
      else if !path.startsWith "/" then do
        let n ← outcome (sys.fileFromUrl path)
        pure (.task n)
      else importLocal sys id path

/-- `delete_ssh_public_key`. -/
def deleteSshPublicKey (id : ℕ) : M Outcome := do
  let s ← get
  refuse (!(privilegeCheck order ctx id s).1) .insufficientPrivilege
  let a ← getAccount id .invalidAccountId
  refuse (!sys.env.sshKeyExists a.data.userName) .publicKeyNotExist
  callAccount id fun _ => Account.deleteSshPublicKey sys.env
  pure .done

/-- `custom_msg_code_map`. -/
def codeOf : Err → ℕ
  | .invalidPassword => 0x94
  | .passwordComplexityCheckFail => 0x84
  | _ => 0x2E

/-- `__ipmi_set_account_password_precheck`. -/
def ipmiSetAccountPasswordPrecheck (id operation passwordSize : ℕ)
    (passwordData : String) : M Unit := do
  refuse (2 < operation) .ipmiOutOfRange
  refuse (id < minUserNum || maxUserNum < id) .ipmiInvalidFieldRequest
  let _ ← getAccount id .invalidAccountId
  refuse (operation = 2 && ((passwordSize = 0 && passwordData.utf8ByteSize != 16)
    || (passwordSize = 1 && passwordData.utf8ByteSize != 20))) .ipmiRequestLengthInvalid
  let s ← get
  refuse (!hostUserMgntEnabled s.config ctx.ipmi) .hostUserManagementDisabled

/-- `trim_tail_zero`. -/
def trimTailZero (s : String) : String :=
  String.ofList (s.toList.rdropWhile (· = '\x00'))

/-- `get_password_len`, where it is not negative. -/
def getPasswordLen (passwordSize : ℕ) (passwordData : String) : ℕ :=
  let len := passwordData.utf8ByteSize - 2
  if passwordSize = 1 && 20 < len then 20
  else if passwordSize = 0 && 16 < len then 16
  else len

/-- The operation of `ipmi_set_account_password`. -/
def ipmiOperate (handler id operation passwordSize : ℕ) (password : String) : M Outcome :=
  if operation = 2 then do
    AccountService.setAccountPassword sys.env sys.encrypts handler id password
    updateAccount id fun _ a =>
      { a with ipmi := { a.ipmi with use20BytesPasswd := getPasswordLen passwordSize password } }
    pure (.code 0)
  else
    protect (do
      setEnabled sys.env id (operation = 1)
      pure (.code 0)) fun e => pure (.code (codeOf e))

/-- `ipmi_set_account_password`. -/
def ipmiSetAccountPassword (id operation passwordSize : ℕ) (passwordData : String) :
    M Outcome := do
  ipmiSetAccountPasswordPrecheck ctx id operation passwordSize passwordData
  match handlerId ctx with
  | none => pure (.code 0xD5)
  | some handler => do
    let s ← get
    let allowed ← outcome (checkIpmiPasswordPrivilege handler id s)
    refuse (!allowed) .unSupported
    ipmiOperate sys handler id operation passwordSize (trimTailZero passwordData)

/-- `ipmi_set_user_snmp_v3_privacy_pwd`. -/
def ipmiSetUserSnmpV3PrivacyPwd (id manufactureId operation pwdLength : ℕ)
    (passwordData : String) : M Outcome := do
  let s ← get
  refuse (!hostUserMgntEnabled s.config ctx.ipmi) .hostUserManagementDisabled
  if manufactureId ≠ sys.manufactureId then pure (.raised .invalidParameter)
  else do
    refuse (id < minUserNum || maxUserNum < id) .ipmiInvalidFieldRequest
    if (s.accounts.lookup id).isNone then pure (.code 0x81)
    else
      match handlerId ctx with
      | none => pure (.code 0xD5)
      | some handler => do
        let allowed ← outcome (checkIpmiPasswordPrivilege handler id s)
        refuse (!allowed) .unSupported
        if operation ≠ 0 then pure (.raised .valueOutOfRange)
        else if pwdLength ≠ passwordData.utf8ByteSize then pure (.raised .invalidPasswordLength)
        else do
          AccountService.setUserSnmpPwd sys.env id passwordData
          pure (.code 0)

end

/-- The six calls, with their arguments. -/
inductive Call where
  | changePassword (password : String)
  | changeSnmpPassword (password : String)
  | importSshPublicKey (type content : String)
  | deleteSshPublicKey
  | ipmiSetAccountPassword (operation passwordSize : ℕ) (passwordData : String)
  | ipmiSetUserSnmpV3PrivacyPwd (manufactureId operation pwdLength : ℕ) (passwordData : String)

/-- The program of a call on the account `id`. -/
def Call.prog (sys : Platform) (order : List ℕ) (ctx : Ctx) (id : ℕ) : Call → M Outcome
  | .changePassword password => Authority.changePassword sys order ctx id password
  | .changeSnmpPassword password => Authority.changeSnmpPassword sys order ctx id password
  | .importSshPublicKey type content =>
    Authority.importSshPublicKey sys order ctx id type content
  | .deleteSshPublicKey => Authority.deleteSshPublicKey sys order ctx id
  | .ipmiSetAccountPassword operation passwordSize passwordData =>
    Authority.ipmiSetAccountPassword sys ctx id operation passwordSize passwordData
  | .ipmiSetUserSnmpV3PrivacyPwd manufactureId operation pwdLength passwordData =>
    Authority.ipmiSetUserSnmpV3PrivacyPwd sys ctx id manufactureId operation pwdLength
      passwordData

/-! ## Restricted accounts -/

/-- The passwords, the SSH key and the enabled state of an account. -/
def credentials (s : State) (id : ℕ) :
    Option (String × Option String × Option String × Option SnmpUserInfo × String × Bool) :=
  (s.accounts.lookup id).map fun a =>
    (a.data.password, a.data.kdfPassword, a.data.ipmiPassword, a.snmp, a.data.sshPublicKeyHash,
      a.data.enabled)

/-- A call has not succeeded, and the credentials of the account are as they were. -/
structure Blocked (s : State) (id : ℕ) (r : Except Err Outcome × State) : Prop where
  fails : ∀ o, r.1 = .ok o → ¬ o.Success
  kept : credentials r.2 id = credentials s id

/-- The handler may only configure itself, and the context names it and no more. -/
structure Restricted (s : State) (ctx : Ctx) (handler : ℕ) (a : Account) : Prop where
  lookup : s.accounts.lookup handler = some a
  range : minUserNum ≤ handler ∧ handler ≤ maxUserNum
  privileges : a.currentPrivileges = [.configureSelf]
  name : ctx.userName = a.data.userName
  session : ctx.sessionUser = some handler
  host : ctx.clientAddr ≠ hostChanIp
  channel : innerChannelCheck ctx = false
  privilege : ctx.privilege = none ∨ ctx.privilege = some (number a.currentPrivileges)

/-- The tree takes the caller for somebody else than a restricted user: for the user of telnet, for
the account itself, or for an administrator. -/
def Mistaken (s : State) (order : List ℕ) (ctx : Ctx) (id : ℕ) : Prop :=
  ctx.userName = telnetUser ∨ s.getAccountByName order ctx.userName = some id
    ∨ ∃ i a, s.getAccountByName order ctx.userName = some i ∧ s.accounts.lookup i = some a
      ∧ a.data.roleId = RoleType.administrator.value

/-! ## The decisions on a restricted account -/

section

variable {s : State} {order : List ℕ} {ctx : Ctx} {handler id : ℕ} {a : Account}

/-- `number` of the privileges of a restricted account has no bit for `UserMgmt`. -/
theorem Restricted.no_userMgmt (h : Restricted s ctx handler a) :
  (ctx.privilege.any fun n => (numToArray n).contains .userMgmt) = false
  := by
  rcases h.privilege with hnone | hsome
  · rw [hnone]
    rfl
  · rw [hsome, h.privileges]
    decide

/-- The tree lets a restricted account through exactly when it takes it for somebody else. -/
theorem privilegeCheck_iff (h : Restricted s ctx handler a) :
  (privilegeCheck order ctx id s).1 = true ↔ Mistaken s order ctx id
  := by
  have hhost : decide (ctx.clientAddr = hostChanIp) = false := decide_eq_false h.host
  rw [privilegeCheck, Mistaken]
  simp only [hhost, h.no_userMgmt, Bool.or_false, Bool.or_eq_true, decide_eq_true_eq]
  by_cases hself : ctx.userName = telnetUser ∨ s.getAccountByName order ctx.userName = some id
  · rw [if_pos hself]
    constructor
    · rintro -
      rcases hself with htelnet | hname
      · exact .inl htelnet
      · exact .inr (.inl hname)
    · rintro -
      rfl
  rw [if_neg hself]
  rw [not_or] at hself
  by_cases hadmin : ((s.getAccountByName order ctx.userName).bind s.accounts.lookup).any
      (fun a => decide (a.data.roleId = RoleType.administrator.value)) = true
  · rw [if_pos hadmin]
    constructor
    · rintro -
      obtain ⟨b, hb, hrole⟩ := (Option.any_eq_true _ _).mp hadmin
      obtain ⟨i, hi, hlookup⟩ := Option.bind_eq_some_iff.mp hb
      exact .inr (.inr ⟨i, b, hi, hlookup, of_decide_eq_true hrole⟩)
    · rintro -
      rfl
  · rw [if_neg hadmin, if_neg Bool.false_ne_true]
    constructor
    · intro hfalse
      exact absurd hfalse Bool.false_ne_true
    · rintro (htelnet | hname | ⟨i, b, hi, hlookup, hrole⟩)
      · exact absurd htelnet hself.1
      · exact absurd hname hself.2
      · exfalso
        apply hadmin
        rw [hi, Option.bind_some, hlookup]
        exact decide_eq_true hrole

/-- The IPMI commands refuse a restricted account another account. -/
theorem checkIpmiPasswordPrivilege_eq (h : Restricted s ctx handler a) (hne : id ≠ handler) :
  checkIpmiPasswordPrivilege handler id s = .ok false
  := by
  have hrange : ¬ (decide (maxUserNum < handler) || decide (handler < minUserNum)) = true := by
    have := h.range
    simp only [Bool.or_eq_true, decide_eq_true_eq]
    omega
  rw [checkIpmiPasswordPrivilege, if_neg hrange, h.lookup]
  simp only [if_neg hne.symm, if_pos h.privileges]

theorem handlerId_eq (h : Restricted s ctx handler a) :
  handlerId ctx = some handler
  := by
  rw [handlerId, h.channel]
  exact h.session

end

/-! ## Calls that fail -/

/-- The program does not succeed from `s` and leaves it as it is. -/
def Fails (s : State) (m : M Outcome) : Prop :=
  Spec (· = s) m (fun o s' => s' = s ∧ ¬ o.Success) (· = s)

theorem Fails.blocked {s : State} {m : M Outcome} (h : Fails s m) (id : ℕ) :
  Blocked s id (exec m s)
  := by
  have hrun := h s rfl
  rcases hexec : exec m s with ⟨e | o, s'⟩
  · rw [hexec] at hrun
    obtain rfl : s' = s := hrun
    exact ⟨by simp, rfl⟩
  · rw [hexec] at hrun
    obtain ⟨rfl, hfails⟩ : s' = s ∧ ¬ o.Success := hrun
    refine ⟨?_, rfl⟩
    intro o' ho
    obtain rfl := Except.ok.inj ho
    exact hfails

section

variable {sys : Platform} {s : State} {order : List ℕ} {ctx : Ctx} {id : ℕ}

theorem Fails.pure {o : Outcome} (h : ¬ o.Success) :
  Fails s (Pure.pure o)
  := Spec.pure fun _ hs => ⟨hs, h⟩

/-- What is refused first does not matter. -/
theorem Fails.refuse_bind {b : Bool} {e : Err} {m : Unit → M Outcome}
    (h : b = false → Fails s (m ())) :
  Fails s (Raise.refuse b e >>= m)
  := Spec.refuse_bind (fun _ hs => hs) h

theorem Fails.get_bind {m : State → M Outcome} (h : Fails s (m s)) :
  Fails s (MonadState.get >>= m)
  := Spec.get_bind h

/-- A program that goes on only when the tree lets the caller through. -/
theorem Fails.tree {e : Err} {m : Unit → M Outcome}
    (h : (privilegeCheck order ctx id s).1 = false) :
  Fails s (Raise.refuse (!(privilegeCheck order ctx id s).1) e >>= m)
  := by
  apply Fails.refuse_bind
  intro hpass
  rw [h] at hpass
  exact nomatch hpass

theorem changePassword_fails (h : (privilegeCheck order ctx id s).1 = false)
    (password : String) :
  Fails s (changePassword sys order ctx id password)
  := by
  apply Fails.refuse_bind
  rintro -
  apply Fails.get_bind
  exact Fails.tree h

theorem changeSnmpPassword_fails (h : (privilegeCheck order ctx id s).1 = false)
    (password : String) :
  Fails s (changeSnmpPassword sys order ctx id password)
  := by
  apply Fails.refuse_bind
  rintro -
  apply Fails.get_bind
  exact Fails.tree h

theorem importSshPublicKey_fails (h : (privilegeCheck order ctx id s).1 = false)
    (type content : String) :
  Fails s (importSshPublicKey sys order ctx id type content)
  := by
  rw [importSshPublicKey]
  split
  · exact Fails.pure not_false
  split
  · exact Fails.pure not_false
  · apply Fails.get_bind
    exact Fails.tree h

theorem deleteSshPublicKey_fails (h : (privilegeCheck order ctx id s).1 = false) :
  Fails s (deleteSshPublicKey sys order ctx id)
  := by
  apply Fails.get_bind
  exact Fails.tree h

/-- A program that goes on only when an IPMI command lets the handler through. -/
theorem Fails.ipmi {handler : ℕ} {e : Err}
    (h : checkIpmiPasswordPrivilege handler id s = .ok false) (m : M Outcome) :
  Fails s (do
    let allowed ← outcome (checkIpmiPasswordPrivilege handler id s)
    Raise.refuse (!allowed) e
    m)
  := by
  apply Spec.outcome_bind (fun _ hs => hs)
  intro allowed hallowed
  rw [h] at hallowed
  obtain rfl := Except.ok.inj hallowed
  apply Fails.refuse_bind
  intro hpass
  exact nomatch hpass

/-- The checks of the request leave the state as it is. -/
theorem ipmiSetAccountPasswordPrecheck_keeps (operation passwordSize : ℕ)
    (passwordData : String) :
  Keeps (· = s) (ipmiSetAccountPasswordPrecheck ctx id operation passwordSize passwordData)
  := by
  have hget : Keeps (· = s) (getAccount id .invalidAccountId) := by
    apply Keeps.bind Keeps.get
    intro s'
    split
    · exact Keeps.throw
    · exact Keeps.pure
  apply Keeps.bind Keeps.refuse
  rintro -
  apply Keeps.bind Keeps.refuse
  rintro -
  apply Keeps.bind hget
  intro a
  apply Keeps.bind Keeps.refuse
  rintro -
  apply Keeps.bind Keeps.get
  intro s'
  exact Keeps.refuse

theorem ipmiSetAccountPassword_fails {handler : ℕ} (hhandler : handlerId ctx = some handler)
    (h : checkIpmiPasswordPrivilege handler id s = .ok false) (operation passwordSize : ℕ)
    (passwordData : String) :
  Fails s (ipmiSetAccountPassword sys ctx id operation passwordSize passwordData)
  := by
  apply Spec.bind (ipmiSetAccountPasswordPrecheck_keeps operation passwordSize passwordData)
  rintro -
  rw [hhandler]
  apply Fails.get_bind
  exact Fails.ipmi h _

theorem ipmiSetUserSnmpV3PrivacyPwd_fails {handler : ℕ}
    (hhandler : handlerId ctx = some handler)
    (h : checkIpmiPasswordPrivilege handler id s = .ok false)
    (manufactureId operation pwdLength : ℕ) (passwordData : String) :
  Fails s (ipmiSetUserSnmpV3PrivacyPwd sys ctx id manufactureId operation pwdLength passwordData)
  := by
  apply Fails.get_bind
  apply Fails.refuse_bind
  rintro -
  split
  · exact Fails.pure not_false
  apply Fails.refuse_bind
  rintro -
  split
  · exact Fails.pure (Nat.succ_ne_zero _)
  rw [hhandler]
  exact Fails.ipmi h _

end

/-! ## Restricted accounts and the others -/

section

variable {sys : Platform} {s : State} {order : List ℕ} {ctx : Ctx} {handler id : ℕ}
  {a b : Account}

/-- A platform on which every key is taken. -/
def permissive : Platform where
  env := plainEnv
  encrypts _ := true
  manufactureId := 0
  matchesPub _ := true
  isPermitted _ := true
  realpathOk := true
  opens := true
  matchesRemote _ := true
  fileFromUrl _ := .ok 1
  checkImportPath _ := true
  publicKeyHash := some "fingerprint"

theorem exec_getAccount (hb : s.accounts.lookup id = some b) (e : Err) :
  exec (getAccount id e) s = (.ok b, s)
  := by
  simp [getAccount, exec_bind, hb]

theorem importLocal_succeeds {path hash : String} (hpath : sys.checkImportPath path = true)
    (hhash : sys.publicKeyHash = some hash) (hb : s.accounts.lookup id = some b) :
  ∃ s', exec (importLocal sys id path) s = (.ok (.task 0), s')
  := by
  rw [importLocal, hpath, if_neg (by decide), exec_bind_ok (exec_getAccount hb _), hhash]
  split
  · exact ⟨_, rfl⟩
  · exact ⟨_, rfl⟩
  · exact ⟨_, rfl⟩

/-- Whoever the tree lets through imports a key, where the files are as they have to be. -/
theorem importSshPublicKey_succeeds (h : (privilegeCheck order ctx id s).1 = true)
    (hb : s.accounts.lookup id = some b) :
  ∃ n s', exec (importSshPublicKey permissive order ctx id "TEXT" "") s = (.ok (.task n), s')
  := by
  have hpermitted : isImportPermitted permissive "TEXT" "" = true := by decide
  have hparse : parseContentWithType permissive "TEXT" "" = .ok sshPublicKeyParsePath := by
    rw [parseContentWithType, if_neg (by decide)]
    rfl
  have hremote : ¬ (!permissive.matchesRemote sshPublicKeyParsePath) = true := by decide
  rw [importSshPublicKey, hpermitted, hparse, if_neg (by decide)]
  simp only [exec_bind, exec_get, h, Bool.not_true, exec_refuse_false, exec_getAccount hb,
    if_neg hremote]
  split
  · exact ⟨1, s, rfl⟩
  · obtain ⟨s', hlocal⟩ : ∃ s', exec (importLocal permissive id sshPublicKeyParsePath) s
        = (.ok (.task 0), s') := importLocal_succeeds rfl rfl hb
    exact ⟨0, s', hlocal⟩

/-- None of the calls of a restricted account on another account succeeds or changes its
credentials, whatever the arguments and the platform are, exactly when the tree does not take
the caller for somebody else. -/
theorem blocked_iff (h : Restricted s ctx handler a) (hne : id ≠ handler)
    (hb : s.accounts.lookup id = some b) :
  (∀ sys c, Blocked s id (exec (Call.prog sys order ctx id c) s)) ↔ ¬ Mistaken s order ctx id
  := by
  rw [← privilegeCheck_iff h]
  constructor
  · intro hblocked hpass
    obtain ⟨n, s', hexec⟩ := importSshPublicKey_succeeds hpass hb
    have himport := hblocked permissive (.importSshPublicKey "TEXT" "")
    rw [Call.prog, hexec] at himport
    exact himport.fails _ rfl trivial
  · intro hrefused sys c
    have hcheck := eq_false_of_ne_true hrefused
    have hhandler := handlerId_eq h
    have hipmi := checkIpmiPasswordPrivilege_eq h hne
    apply Fails.blocked
    cases c with
    | changePassword password => exact changePassword_fails hcheck password
    | changeSnmpPassword password => exact changeSnmpPassword_fails hcheck password
    | importSshPublicKey type content => exact importSshPublicKey_fails hcheck type content
    | deleteSshPublicKey => exact deleteSshPublicKey_fails hcheck
    | ipmiSetAccountPassword operation passwordSize passwordData =>
      exact ipmiSetAccountPassword_fails hhandler hipmi operation passwordSize passwordData
    | ipmiSetUserSnmpV3PrivacyPwd manufactureId operation pwdLength passwordData =>
      exact ipmiSetUserSnmpV3PrivacyPwd_fails hhandler hipmi manufactureId operation pwdLength
        passwordData

end

/-- A user of the given role that may only configure itself, and another user. -/
def eveAndBob (roleId : ℕ) : State :=
  plainState
    [(2, { plainAccount "eve" roleId 223 with currentPrivileges := [.configureSelf] }),
      (3, plainAccount "bob" 3 223)]

/-- A context that names the first of them, with its privileges. -/
def eve : Ctx := ⟨"eve", "10.0.0.5", some 256, ⟨some 1, none⟩, some 2⟩

theorem restricted_eve (roleId : ℕ) :
  Restricted (eveAndBob roleId) eve 2
    { plainAccount "eve" roleId 223 with currentPrivileges := [.configureSelf] }
  where
  lookup := rfl
  range := by decide
  privileges := rfl
  name := rfl
  session := rfl
  host := by decide
  channel := by decide
  privilege := .inr rfl

/-- A common user. -/
theorem blocked_iff_commonUser :
  (∀ sys c, Blocked (eveAndBob 2) 3 (exec (Call.prog sys [2, 3] eve 3 c) (eveAndBob 2)))
    ↔ ¬ Mistaken (eveAndBob 2) [2, 3] eve 3
  := blocked_iff (restricted_eve 2) (by decide) rfl

/-- An administrator that may only configure itself changes the password of the other. -/
theorem not_blocked :
  ¬ ∀ sys c, Blocked (eveAndBob 4) 3 (exec (Call.prog sys [2, 3] eve 3 c) (eveAndBob 4))
  := by
  intro h
  have hchange := h permissive (.changePassword "Secret12")
  have hdone : (exec (Call.prog permissive [2, 3] eve 3 (.changePassword "Secret12"))
      (eveAndBob 4)).1 = .ok .done := by
    decide +kernel
  exact hchange.fails _ hdone trivial

end Authority

end BmcAccount
