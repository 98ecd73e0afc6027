import BmcAccount.Account.Emergency
import BmcAccount.Account.Password
import BmcAccount.Account.View

/-!
# The keys of SNMPv3

An account has two keys that are made with its authentication protocol, one of its login
password and one of its SNMP privacy password. Three operations of the account service change
what the keys are made of, and each of them makes the keys anew. It does so after the
encryption of the login password for IPMI, which may fail when the protocol and the hashes of
the password have been stored already.

The run carries along the login password and the privacy password, of which the code stores
the hashes.
-/

namespace BmcAccount

open Raise

/-- The value of an authentication protocol. -/
def SnmpAuthenticationProtocol.value : SnmpAuthenticationProtocol → ℕ
  | .none => 0
  | .md5 => 1
  | .sha96 => 2
  | .sha224 => 3
  | .sha256 => 4
  | .sha384 => 5
  | .sha512 => 6

/-! ## The row of an account -/

/-- `SNMPKuType`. -/
inductive SnmpKuType where
  | authentication
  | encryption

namespace SnmpUserInfo

/-- `set_user_snmp_pwd`. -/
def setUserSnmpPwd (env : Env) (password : String) (r : SnmpUserInfo) : SnmpUserInfo :=
  let hash := Account.cryptPasswordByRandomSalt env env.snmpRandomBytes password
  { r with snmpPassword := hash, snmpKdfPassword := hash }

/-- `set_account_snmp_privacy_pwd_init_status`. -/
def setPrivacyPwdInitStatus (status : Bool) (r : SnmpUserInfo) : SnmpUserInfo :=
  { r with snmpEncryptionPasswordInitialStatus := some status }

/-- `set_user_ku`, which does not look at whether `generate_ku` failed. -/
def setUserKu (env : Env) (password : String) (kuType : SnmpKuType) (r : SnmpUserInfo) :
    SnmpUserInfo :=
  let ku := (env.generateKu r.authenticationProtocol password).getD ""
  match kuType with
  | .authentication => { r with authenticationKey := ku }
  | .encryption => { r with encryptionKey := ku }

/-- What the account service makes of the row when it is given a privacy password. -/
def givenPrivacyPwd (env : Env) (password : String) (r : SnmpUserInfo) : SnmpUserInfo :=
  ((r.setUserSnmpPwd env password).setPrivacyPwdInitStatus false).setUserKu env password
    .encryption

end SnmpUserInfo

namespace Account

/-- A change of the SNMP row, which needs the row to be there. -/
def onSnmp (f : SnmpUserInfo → SnmpUserInfo) (a : Account) : Except Err Account :=
  match a.snmp with
  | none => .error .indexNil
  | some r => .ok { a with snmp := some (f r) }

/-- `set_user_auth_protocol`. -/
def setUserAuthProtocol (protocol : SnmpAuthenticationProtocol) (a : Account) :
    Except Err Account :=
  if a.cls = .localAccount && !a.getPropertyWritable .authenticationProtocol then
    .error (.propertyNotWritable .authenticationProtocol)
  else a.onSnmp fun r => { r with authenticationProtocol := protocol }

/-- `check_conditions_set_snmp_passwd`, a method of local accounts. -/
def checkConditionsSetSnmpPasswd (env : Env) (cfg : Config) (password : String) (a : Account) :
    Except Err Unit :=
  match a.cls with
  | .localAccount =>
    if !a.getPropertyWritable .snmpPassword then .error (.propertyNotWritable .snmpPassword)
    else if !env.validate a.data.accountType a.data.userName password then
      .error .passwordComplexityCheckFail
    else if password.utf8ByteSize < 1 || 512 < password.utf8ByteSize then
      .error .invalidPasswordLength
    else if cfg.weakPwdDictionaryEnable && cfg.weakPwdDictionaryInProcess then
      .error .operationInProcess
    else if cfg.weakPwdDictionaryEnable && cfg.weakPasswordDictionary.contains password then
      .error .passwordInWeakPwdDict
    else .ok ()
  | _ => .error .indexNil

/-- What `set_account_password` has stored when it calls the KMC. -/
def storeHashes (env : Env) (password : String) (a : Account) : Account :=
  let hash := cryptPasswordByRandomSalt env env.randomBytes password
  { a with data := { a.data with password := hash, kdfPassword := some hash } }

/-- Whether the KMC raises on the password that `set_account_password` gives it. -/
def kmcRaises (encrypts : String → Bool) (password : String) (a : Account) : Bool :=
  match a.cls with
  | .localAccount => !encrypts password
  | .oemAccount => !encrypts (String.ofList (password.toList.take 20))
  | _ => false

/-- `set_account_password`, where the KMC encrypts only some texts. -/
def setAccountPasswordKmc (env : Env) (cfg : Config) (encrypts : String → Bool)
    (password : String) (isConfigSelf : Bool) (a : Account) : Account × Except Err Unit :=
  if a.kmcRaises encrypts password then (a.storeHashes env password, .error .internalError)
  else a.setAccountPassword env cfg password isConfigSelf

end Account

/-! ## The operations -/

/-- `AccountCollection:set_account_password`, where the KMC encrypts only some texts. -/
def AccountCollection.setAccountPassword (env : Env) (encrypts : String → Bool)
    (handler id : ℕ) (password : String) : M Unit := do
  let account ← getAccount id .internalError
  let s ← get
  require (account.passwordValidator env s.config account.data.userName password false
    (handler = id))
  let (account', r) :=
    account.setAccountPasswordKmc env s.config encrypts password (handler = id)
  updateAccount id fun _ _ => account'
  require r
  updateWithinMinPasswordDaysStatus env

/-- Where the KMC encrypts all texts, it is the operation without a failing KMC. -/
theorem AccountCollection.setAccountPassword_eq {env : Env} {encrypts : String → Bool}
    (h : ∀ text, encrypts text = true) (handler id : ℕ) (password : String) :
  AccountCollection.setAccountPassword env encrypts handler id password
    = BmcAccount.setAccountPassword env handler id password
  := by
  have hkmc (a : Account) : a.kmcRaises encrypts password = false := by
    unfold Account.kmcRaises
    cases a.cls <;> simp [h]
  unfold AccountCollection.setAccountPassword BmcAccount.setAccountPassword
  simp only [Account.setAccountPasswordKmc, hkmc, Bool.false_eq_true, if_false]

/-- `AccountCollection:set_user_snmp_pwd`. -/
def AccountCollection.setUserSnmpPwd (env : Env) (id : ℕ) (password : String) : M Unit := do
  let account ← getAccount id .invalidAccountId
  let s ← get
  require (account.checkConditionsSetSnmpPasswd env s.config password)
  callAccount id fun _ => Account.onSnmp (SnmpUserInfo.setUserSnmpPwd env password)

/-- `AccountCollection:set_user_auth_protocol`: `AES256` goes only with `SHA256` and longer. -/
def AccountCollection.setUserAuthProtocol (id : ℕ) (protocol : SnmpAuthenticationProtocol) :
    M Unit := do
  let account ← getAccount id .invalidAccountId
  match account.snmp with
  | none => throw .indexNil
  | some r => do
    refuse (r.encryptionProtocol = .aes256 && protocol.value < 4) .privProtocolAes256NeedMatch
    callAccount id fun _ => Account.setUserAuthProtocol protocol

namespace AccountService

/-- `AccountService:set_account_password`. -/
def setAccountPassword (env : Env) (encrypts : String → Bool) (handler id : ℕ)
    (password : String) : M Unit := do
  let _ ← getAccount id .invalidAccountId
  AccountCollection.setAccountPassword env encrypts handler id password
  checkPasswordValidDays env

/-- `AccountService:set_user_snmp_pwd`. -/
def setUserSnmpPwd (env : Env) (id : ℕ) (password : String) : M Unit := do
  let account ← getAccount id .invalidAccountId
  refuse (!account.loginInterfaceExist .snmp) .unSupported
  AccountCollection.setUserSnmpPwd env id password
  callAccount id fun _ => Account.onSnmp (SnmpUserInfo.setPrivacyPwdInitStatus false)
  callAccount id fun _ => Account.onSnmp (SnmpUserInfo.setUserKu env password .encryption)

/-- `AccountService:set_user_auth_protocol`. -/
def setUserAuthProtocol (env : Env) (encrypts : String → Bool) (handler id : ℕ)
    (protocol : SnmpAuthenticationProtocol) (authPasswd encryptPassword : String) :
    M Unit := do
  let account ← getAccount id .invalidAccountId
  refuse (!account.loginInterfaceExist .snmp) .internalError
  refuse (protocol = .none) .internalError
  refuse (authPasswd = "" || encryptPassword = "") .internalError
  let s ← get
  require (account.passwordValidator env s.config account.data.userName authPasswd false
    (handler = id))
  require (account.checkConditionsSetSnmpPasswd env s.config encryptPassword)
  AccountCollection.setUserAuthProtocol id protocol
  setAccountPassword env encrypts handler id authPasswd
  setUserSnmpPwd env id encryptPassword

end AccountService

/-! ## Runs -/

/-- The operations of a run, on one account. -/
inductive KeyOp where
  | setAccountPassword (handler : ℕ) (password : String)
  | setUserSnmpPwd (password : String)
  | setUserAuthProtocol (handler : ℕ) (protocol : SnmpAuthenticationProtocol)
      (authPasswd encryptPassword : String)

/-- A call of an operation, with what it sees of the rest of the system and the texts that the
KMC encrypts for it. -/
structure KeyCall where
  env : Env
  encrypts : String → Bool
  op : KeyOp

/-- The program of a call on the account `id`. -/
def KeyCall.prog (id : ℕ) (c : KeyCall) : M Unit :=
  match c.op with
  | .setAccountPassword handler password =>
      AccountService.setAccountPassword c.env c.encrypts handler id password
  | .setUserSnmpPwd password => AccountService.setUserSnmpPwd c.env id password
  | .setUserAuthProtocol handler protocol authPasswd encryptPassword =>
      AccountService.setUserAuthProtocol c.env c.encrypts handler id protocol authPasswd
        encryptPassword

/-- The checks that the service itself makes of a protocol and its two passwords. -/
def Account.acceptsPasswords (env : Env) (cfg : Config) (handler id : ℕ)
    (protocol : SnmpAuthenticationProtocol) (authPasswd encryptPassword : String) (a : Account) :
    Bool :=
  a.loginInterfaceExist .snmp && protocol ≠ .none
    && authPasswd ≠ "" && encryptPassword ≠ ""
    && (a.passwordValidator env cfg a.data.userName authPasswd false (handler = id)).isOk
    && (a.checkConditionsSetSnmpPasswd env cfg encryptPassword).isOk

/-- The checks of an operation accept it for the account. -/
def KeyOp.accepts (env : Env) (cfg : Config) (id : ℕ) (a : Account) : KeyOp → Bool
  | .setAccountPassword handler password =>
      (a.passwordValidator env cfg a.data.userName password false (handler = id)).isOk
  | .setUserSnmpPwd password =>
      a.loginInterfaceExist .snmp && (a.checkConditionsSetSnmpPasswd env cfg password).isOk
  | .setUserAuthProtocol handler protocol authPasswd encryptPassword =>
      a.acceptsPasswords env cfg handler id protocol authPasswd encryptPassword
        && a.snmp.any (fun r => !(r.encryptionProtocol = .aes256 && protocol.value < 4))
        && a.getPropertyWritable .authenticationProtocol

/-- The checks of the operation accept the call. -/
def KeyCall.accepted (id : ℕ) (s : State) (c : KeyCall) : Bool :=
  (s.accounts.lookup id).any fun a => c.op.accepts c.env s.config id a

/-- A state, with the passwords that the account under consideration has. -/
structure KeyHolder where
  state : State
  login : String
  privacy : String

/-- The SNMP row of the account. -/
def KeyHolder.row (id : ℕ) (x : KeyHolder) : Option SnmpUserInfo :=
  (x.state.accounts.lookup id).bind Account.snmp

/-- The login password and the privacy password after a call that is accepted. The privacy
password follows the login password while it is initial. -/
def KeyCall.passwords (id : ℕ) (x : KeyHolder) (c : KeyCall) : String × String :=
  match c.op with
  | .setAccountPassword _ password =>
      if c.encrypts password
          && (x.row id).any fun r => r.snmpEncryptionPasswordInitialStatus ≠ some false then
        (password, password)
      else (password, x.privacy)
  | .setUserSnmpPwd password => (x.login, password)
  | .setUserAuthProtocol _ _ authPasswd encryptPassword =>
      (authPasswd, if c.encrypts authPasswd then encryptPassword else x.privacy)

/-- The state after a call, and the passwords that the account has by then. -/
def keyStep (id : ℕ) (x : KeyHolder) (c : KeyCall) : KeyHolder :=
  let passwords := if c.accepted id x.state then c.passwords id x else (x.login, x.privacy)
  ⟨after (c.prog id) x.state, passwords.1, passwords.2⟩

/-- The string is a hash of the password; an empty password may have an empty hash. -/
def IsHashOf (crypt : String → String → String) (password hash : String) : Prop :=
  password = "" ∧ hash = "" ∨ ∃ salt, IsSalt salt ∧ hash = crypt password ("$6$" ++ salt)

/-- The account is a local one with an SNMP row, and stores hashes of the two passwords. -/
def KeyHolder.Stores (crypt : String → String → String) (id : ℕ) (x : KeyHolder) : Prop :=
  ∃ a r, x.state.accounts.lookup id = some a ∧ a.cls = .localAccount ∧ a.snmp = some r ∧
    IsHashOf crypt x.login a.data.password ∧ IsHashOf crypt x.privacy r.snmpPassword

/-- Both keys are those of the protocol and the two passwords. -/
def KeyHolder.Matches (ku : SnmpAuthenticationProtocol → String → String) (id : ℕ) (x : KeyHolder) :
    Prop :=
  ∃ r, x.row id = some r ∧ r.authenticationKey = ku r.authenticationProtocol x.login ∧
    r.encryptionKey = ku r.authenticationProtocol x.privacy

/-- The KMC encrypts the login password that a call stores, or the keys happen to be those of
what the call has stored when the KMC fails. -/
def Unbroken (ku : SnmpAuthenticationProtocol → String → String) (id : ℕ) (x : KeyHolder)
    (c : KeyCall) : Prop :=
  c.accepted id x.state = true →
    match c.op with
    | .setAccountPassword _ password =>
        c.encrypts password = true ∨
          ∃ r, x.row id = some r ∧ r.authenticationKey = ku r.authenticationProtocol password
    | .setUserSnmpPwd _ => True
    | .setUserAuthProtocol _ protocol authPasswd _ =>
        c.encrypts authPasswd = true ∨
          ∃ r, x.row id = some r ∧ r.authenticationKey = ku protocol authPasswd ∧
            r.encryptionKey = ku protocol x.privacy

/-! ## What the checks and the keys depend on -/

/-- What the keys of an account and the checks of its privacy password depend on. -/
structure KeyView where
  cls : AccountClass
  userName : String
  accountType : AccountType
  loginInterface : ℕ
  snmpPasswordWritable : Bool
  password : String
  snmp : Option SnmpUserInfo

/-- The view of an account. -/
def Account.keyView (a : Account) : KeyView :=
  ⟨a.cls, a.data.userName, a.data.accountType, a.data.loginInterface,
    a.data.snmpPasswordWritable, a.data.password, a.snmp⟩

theorem keyView_updatePrivileges (env : Env) (cfg : Config)
    (given : Option (List PrivilegeType)) (a : Account) :
  (a.updatePrivileges env cfg given).keyView = a.keyView
  := by
  unfold Account.updatePrivileges
  simp only
  split <;> rfl

theorem showsStored_keyView :
  ShowsStored Account.keyView
  where
  history _ _ := rfl
  inTable _ _ := rfl
  updatePrivileges := keyView_updatePrivileges
  updateInactiveUserStartTime env cfg a := by
    unfold Account.updateInactiveUserStartTime
    split
    · split_ifs <;> rfl
    · rfl
  updateDeletable cfg only id a := by
    unfold Account.updateDeletable
    split <;> rfl
  setWithinMinPasswordDaysStatus status a := by
    unfold Account.setWithinMinPasswordDaysStatus
    split <;> rfl

theorem keyView_setPasswordChangeRequired (env : Env) (cfg : Config) (required : Bool)
    (a : Account) :
  (a.setPasswordChangeRequired env cfg required).keyView = a.keyView
  := keyView_updatePrivileges ..

theorem keyView_checkPasswordValidDays (env : Env) (cfg : Config) (id : ℕ) (a : Account) :
  (a.checkPasswordValidDays env cfg id).keyView = a.keyView
  := by
  have hexpire (status : Bool) :
      (a.updatePasswordExpireStatus env cfg status).keyView = a.keyView := by
    unfold Account.updatePasswordExpireStatus
    split
    · rfl
    · rw [keyView_updatePrivileges, keyView_setPasswordChangeRequired]
  unfold Account.checkPasswordValidDays
  split_ifs
  · rfl
  · rfl
  · exact hexpire _

/-- The flags that a change of a password gives all accounts anew are not shown. -/
theorem keyView_after_flags (env : Env) (s : State) :
  (after (checkPasswordValidDays env) (after (updateWithinMinPasswordDaysStatus env) s)).view
      Account.keyView
    = s.view Account.keyView
  := by
  have hdays : (after (checkPasswordValidDays env)
      (after (updateWithinMinPasswordDaysStatus env) s)).view Account.keyView
      = (after (updateWithinMinPasswordDaysStatus env) s).view Account.keyView :=
    State.view_mapAccounts fun _ _ => keyView_checkPasswordValidDays ..
  rw [hdays]
  exact State.view_mapAccounts fun _ _ => showsStored_keyView.setWithinMinPasswordDaysStatus ..

/-- The checks of a privacy password depend on the view. -/
theorem checkConditionsSetSnmpPasswd_congr {a b : Account} (h : a.keyView = b.keyView) (env : Env)
    (cfg : Config) (password : String) :
  a.checkConditionsSetSnmpPasswd env cfg password = b.checkConditionsSetSnmpPasswd env cfg password
  := by
  have hcls : a.cls = b.cls := congrArg KeyView.cls h
  have hname : a.data.userName = b.data.userName := congrArg KeyView.userName h
  have htype : a.data.accountType = b.data.accountType := congrArg KeyView.accountType h
  have hwritable : a.getPropertyWritable .snmpPassword = b.getPropertyWritable .snmpPassword := by
    have := congrArg KeyView.snmpPasswordWritable h
    unfold Account.getPropertyWritable Property.writable
    rw [hcls]
    split
    · exact this
    · exact this
    · rfl
  unfold Account.checkConditionsSetSnmpPasswd
  rw [hcls, hname, htype, hwritable]

theorem loginInterfaceExist_congr {a b : Account} (h : a.keyView = b.keyView)
    (interface : LoginInterface) :
  a.loginInterfaceExist interface = b.loginInterfaceExist interface
  := by
  unfold Account.loginInterfaceExist
  rw [show a.data.loginInterface = b.data.loginInterface from congrArg KeyView.loginInterface h]

/-! ## One operation -/

section Operation

variable {env : Env} {encrypts : String → Bool} {handler id : ℕ} {s : State} {a : Account}
  {r : SnmpUserInfo} {password : String}

theorem exec_require_ok {x : Except Err Unit} (hx : x.isOk = true) (s : State) :
  exec (require x) s = (.ok (), s)
  := by
  cases x with
  | error e => cases hx
  | ok u => rfl

theorem exec_require_error {x : Except Err Unit} (hx : x.isOk = false) (s : State) :
  ∃ e, exec (require x) s = (.error e, s)
  := by
  cases x with
  | error e => exact ⟨e, rfl⟩
  | ok u => cases hx

/-- What is shown of a local account after a change of its password. -/
theorem keyView_setAccountPassword (env : Env) (cfg : Config) (password : String)
    (isConfigSelf : Bool) (hcls : a.cls = .localAccount) (hr : a.snmp = some r) :
  ∃ a', a.setAccountPassword env cfg password isConfigSelf = (a', .ok ()) ∧
    a'.keyView
      = { a.keyView with
          password := Account.cryptPasswordByRandomSalt env env.randomBytes password
          snmp := some (Account.snmpAfterPassword env password r) }
  := by
  have hstore : (a.storePassword env cfg password password isConfigSelf).keyView
      = { a.keyView with
          password := Account.cryptPasswordByRandomSalt env env.randomBytes password } :=
    keyView_setPasswordChangeRequired ..
  unfold Account.setAccountPassword
  simp only [hcls, hr]
  refine ⟨_, rfl, ?_⟩
  have hsnmp := congrArg
    (fun v => { v with snmp := some (Account.snmpAfterPassword env password r) }) hstore
  exact hsnmp

/-- A password that is refused changes nothing. -/
theorem AccountService.exec_setAccountPassword_refused (ha : s.accounts.lookup id = some a)
    (hvalid : (a.passwordValidator env s.config a.data.userName password false
      (handler = id)).isOk = false) :
  ∃ e, exec (AccountService.setAccountPassword env encrypts handler id password) s = (.error e, s)
  := by
  obtain ⟨e, he⟩ := exec_require_error hvalid s
  unfold AccountService.setAccountPassword AccountCollection.setAccountPassword
  refine ⟨e, ?_⟩
  rw [exec_bind_ok (exec_getAccount ha)]
  apply exec_bind_error
  rw [exec_bind_ok (exec_getAccount ha), exec_bind_ok (exec_get s), exec_bind_error he]

/-- Where the KMC fails, the hashes of a password that is accepted have been stored. -/
theorem AccountService.exec_setAccountPassword_broken (env : Env) (handler : ℕ)
    (ha : s.accounts.lookup id = some a)
    (hcls : a.cls = .localAccount)
    (hvalid : (a.passwordValidator env s.config a.data.userName password false
      (handler = id)).isOk = true) (hkmc : encrypts password = false) :
  exec (AccountService.setAccountPassword env encrypts handler id password) s
    = (.error .internalError, s.modifyAccount id fun _ => a.storeHashes env password)
  := by
  have hset : a.setAccountPasswordKmc env s.config encrypts password (handler = id)
      = (a.storeHashes env password, .error .internalError) := by
    unfold Account.setAccountPasswordKmc Account.kmcRaises
    simp [hcls, hkmc]
  unfold AccountService.setAccountPassword AccountCollection.setAccountPassword
  rw [exec_bind_ok (exec_getAccount ha)]
  apply exec_bind_error
  rw [exec_bind_ok (exec_getAccount ha), exec_bind_ok (exec_get s),
    exec_bind_ok (exec_require_ok hvalid s)]
  simp only [hset]
  rfl

/-- A password that is accepted and encrypted gives the account its hash and a new key. -/
theorem AccountService.exec_setAccountPassword_ok (env : Env) (handler : ℕ)
    (ha : s.accounts.lookup id = some a)
    (hcls : a.cls = .localAccount) (hr : a.snmp = some r)
    (hvalid : (a.passwordValidator env s.config a.data.userName password false
      (handler = id)).isOk = true) (hkmc : encrypts password = true) :
  ∃ s', exec (AccountService.setAccountPassword env encrypts handler id password) s
      = (.ok (), s') ∧ s'.config = s.config ∧
    s'.view Account.keyView id
      = some { a.keyView with
          password := Account.cryptPasswordByRandomSalt env env.randomBytes password
          snmp := some (Account.snmpAfterPassword env password r) }
  := by
  obtain ⟨a', ha', hview⟩ :=
    keyView_setAccountPassword env s.config password (handler = id) hcls hr
  have hset : a.setAccountPasswordKmc env s.config encrypts password (handler = id)
      = (a', .ok ()) := by
    unfold Account.setAccountPasswordKmc Account.kmcRaises
    simp [hcls, hkmc, ha']
  refine ⟨after (checkPasswordValidDays env) (after (updateWithinMinPasswordDaysStatus env)
    (s.modifyAccount id fun _ => a')), ?_, rfl, ?_⟩
  · unfold AccountService.setAccountPassword
    rw [exec_bind_ok (exec_getAccount ha)]
    have hexec : exec (AccountCollection.setAccountPassword env encrypts handler id password) s
        = (.ok (), after (updateWithinMinPasswordDaysStatus env)
          (s.modifyAccount id fun _ => a')) := by
      unfold AccountCollection.setAccountPassword
      rw [exec_bind_ok (exec_getAccount ha), exec_bind_ok (exec_get s),
        exec_bind_ok (exec_require_ok hvalid s)]
      simp only [hset]
      rfl
    rw [exec_bind_ok hexec]
    rfl
  · rw [keyView_after_flags, State.view_modifyAccount, Function.update_self, ha, Option.map_some,
      hview]

/-- A change of the SNMP row of an account. -/
theorem exec_onSnmp (f : SnmpUserInfo → SnmpUserInfo) (ha : s.accounts.lookup id = some a)
    (hr : a.snmp = some r) :
  exec (callAccount id fun _ => Account.onSnmp f) s
    = (.ok (), s.modifyAccount id fun _ => { a with snmp := some (f r) })
  := by
  rw [exec_callAccount ha]
  simp [Account.onSnmp, hr]

theorem lookup_modifyAccount_self {f : Account → Account} (ha : s.accounts.lookup id = some a) :
  (s.modifyAccount id f).accounts.lookup id = some (f a)
  := by
  simp [State.modifyAccount, ha]

/-- A privacy password that is refused changes nothing. -/
theorem AccountService.exec_setUserSnmpPwd_refused (ha : s.accounts.lookup id = some a)
    (hrefused : (a.loginInterfaceExist .snmp
      && (a.checkConditionsSetSnmpPasswd env s.config password).isOk) = false) :
  ∃ e, exec (AccountService.setUserSnmpPwd env id password) s = (.error e, s)
  := by
  unfold AccountService.setUserSnmpPwd
  rw [exec_bind_ok (exec_getAccount ha)]
  cases hinterface : a.loginInterfaceExist .snmp with
  | false => exact ⟨_, by rw [Bool.not_false, exec_bind_error (exec_refuse_true _ s)]⟩
  | true =>
    rw [hinterface, Bool.true_and] at hrefused
    obtain ⟨e, he⟩ := exec_require_error hrefused s
    refine ⟨e, ?_⟩
    rw [Bool.not_true, exec_bind_ok (exec_refuse_false _ s)]
    apply exec_bind_error
    unfold AccountCollection.setUserSnmpPwd
    rw [exec_bind_ok (exec_getAccount ha), exec_bind_ok (exec_get s), exec_bind_error he]

/-- A privacy password that is accepted gives the account its hash and a new key. -/
theorem AccountService.exec_setUserSnmpPwd_ok (ha : s.accounts.lookup id = some a)
    (hr : a.snmp = some r)
    (haccepted : (a.loginInterfaceExist .snmp
      && (a.checkConditionsSetSnmpPasswd env s.config password).isOk) = true) :
  ∃ s', exec (AccountService.setUserSnmpPwd env id password) s = (.ok (), s') ∧
    s'.view Account.keyView id
      = some { a.keyView with snmp := some (r.givenPrivacyPwd env password) }
  := by
  rw [Bool.and_eq_true] at haccepted
  unfold AccountService.setUserSnmpPwd
  rw [exec_bind_ok (exec_getAccount ha), haccepted.1, Bool.not_true,
    exec_bind_ok (exec_refuse_false _ s)]
  have hexec : exec (AccountCollection.setUserSnmpPwd env id password) s
      = (.ok (), s.modifyAccount id fun _ =>
          { a with snmp := some (r.setUserSnmpPwd env password) }) := by
    unfold AccountCollection.setUserSnmpPwd
    rw [exec_bind_ok (exec_getAccount ha), exec_bind_ok (exec_get s),
      exec_bind_ok (exec_require_ok haccepted.2 s), exec_onSnmp _ ha hr]
  rw [exec_bind_ok hexec]
  have hfirst := lookup_modifyAccount_self
    (f := fun _ => { a with snmp := some (r.setUserSnmpPwd env password) }) ha
  rw [exec_bind_ok (exec_onSnmp _ hfirst rfl)]
  have hsecond := lookup_modifyAccount_self (f := fun _ =>
    { a with snmp := some ((r.setUserSnmpPwd env password).setPrivacyPwdInitStatus false) }) hfirst
  rw [exec_onSnmp _ hsecond rfl]
  refine ⟨_, rfl, ?_⟩
  rw [State.view_modifyAccount, Function.update_self, hsecond]
  rfl

section Protocol

variable {protocol : SnmpAuthenticationProtocol} {authPasswd encryptPassword : String}

/-- What the service does once its own checks accept. -/
theorem AccountService.exec_setUserAuthProtocol_checked (ha : s.accounts.lookup id = some a)
    (h : a.acceptsPasswords env s.config handler id protocol authPasswd encryptPassword = true) :
  exec (AccountService.setUserAuthProtocol env encrypts handler id protocol authPasswd
      encryptPassword) s
    = exec (do
        AccountCollection.setUserAuthProtocol id protocol
        AccountService.setAccountPassword env encrypts handler id authPasswd
        AccountService.setUserSnmpPwd env id encryptPassword) s
  := by
  unfold Account.acceptsPasswords at h
  simp only [Bool.and_eq_true, decide_eq_true_eq] at h
  obtain ⟨⟨⟨⟨⟨hinterface, hprotocol⟩, hauth⟩, hencrypt⟩, hvalid⟩, hcond⟩ := h
  unfold AccountService.setUserAuthProtocol
  rw [exec_bind_ok (exec_getAccount ha), hinterface, Bool.not_true,
    exec_bind_ok (exec_refuse_false _ s), decide_eq_false hprotocol,
    exec_bind_ok (exec_refuse_false _ s), decide_eq_false hauth, decide_eq_false hencrypt,
    Bool.or_false, exec_bind_ok (exec_refuse_false _ s), exec_bind_ok (exec_get s),
    exec_bind_ok (exec_require_ok hvalid s), exec_bind_ok (exec_require_ok hcond s)]

theorem AccountService.exec_setUserAuthProtocol_unchecked (ha : s.accounts.lookup id = some a)
    (h : a.acceptsPasswords env s.config handler id protocol authPasswd encryptPassword = false) :
  ∃ e, exec (AccountService.setUserAuthProtocol env encrypts handler id protocol authPasswd
    encryptPassword) s = (.error e, s)
  := by
  unfold AccountService.setUserAuthProtocol
  rw [exec_bind_ok (exec_getAccount ha)]
  cases hinterface : a.loginInterfaceExist .snmp with
  | false => exact ⟨_, by rw [Bool.not_false, exec_bind_error (exec_refuse_true _ s)]⟩
  | true =>
    rw [Bool.not_true, exec_bind_ok (exec_refuse_false _ s)]
    by_cases hprotocol : protocol = .none
    · exact ⟨_, by rw [decide_eq_true hprotocol, exec_bind_error (exec_refuse_true _ s)]⟩
    rw [decide_eq_false hprotocol, exec_bind_ok (exec_refuse_false _ s)]
    cases hempty : (decide (authPasswd = "") || decide (encryptPassword = "")) with
    | true => exact ⟨_, by rw [exec_bind_error (exec_refuse_true _ s)]⟩
    | false =>
      rw [exec_bind_ok (exec_refuse_false _ s), exec_bind_ok (exec_get s)]
      rw [Bool.or_eq_false_iff, decide_eq_false_iff_not, decide_eq_false_iff_not] at hempty
      unfold Account.acceptsPasswords at h
      simp only [hinterface, hprotocol, hempty.1, hempty.2, ne_eq, not_false_eq_true, decide_true,
        Bool.true_and] at h
      rw [Bool.and_eq_false_iff] at h
      cases hvalid : (a.passwordValidator env s.config a.data.userName authPasswd false
          (handler = id)).isOk with
      | false =>
        obtain ⟨e, he⟩ := exec_require_error hvalid s
        exact ⟨e, by rw [exec_bind_error he]⟩
      | true =>
        have hcond := h.resolve_left (by simp [hvalid])
        obtain ⟨e, he⟩ := exec_require_error hcond s
        exact ⟨e, by rw [exec_bind_ok (exec_require_ok hvalid s), exec_bind_error he]⟩

/-- The protocol of a local account is changed, or nothing is. -/
theorem AccountCollection.exec_setUserAuthProtocol (protocol : SnmpAuthenticationProtocol)
    (ha : s.accounts.lookup id = some a)
    (hcls : a.cls = .localAccount) (hr : a.snmp = some r) :
  if !(r.encryptionProtocol = .aes256 && protocol.value < 4)
      && a.getPropertyWritable .authenticationProtocol then
    exec (AccountCollection.setUserAuthProtocol id protocol) s
      = (.ok (), s.modifyAccount id fun _ =>
          { a with snmp := some { r with authenticationProtocol := protocol } })
  else ∃ e, exec (AccountCollection.setUserAuthProtocol id protocol) s = (.error e, s)
  := by
  unfold AccountCollection.setUserAuthProtocol
  rw [exec_bind_ok (exec_getAccount ha)]
  simp only [hr]
  cases hmatch : (decide (r.encryptionProtocol = .aes256) && decide (protocol.value < 4)) with
  | true =>
    rw [exec_bind_error (exec_refuse_true _ s)]
    exact ⟨_, rfl⟩
  | false =>
    rw [exec_bind_ok (exec_refuse_false _ s), exec_callAccount ha]
    unfold Account.setUserAuthProtocol
    cases hwritable : a.getPropertyWritable .authenticationProtocol with
    | false =>
      simp only [hcls, decide_true, Bool.not_false, Bool.and_self, if_true, Bool.and_false,
        Bool.false_eq_true, if_false]
      exact ⟨_, rfl⟩
    | true => simp [Account.onSnmp, hr]

/-- A change of the protocol that is refused changes nothing. -/
theorem AccountService.exec_setUserAuthProtocol_refused (ha : s.accounts.lookup id = some a)
    (hcls : a.cls = .localAccount) (hr : a.snmp = some r)
    (hrefused : (KeyOp.setUserAuthProtocol handler protocol authPasswd encryptPassword).accepts
      env s.config id a = false) :
  ∃ e, exec (AccountService.setUserAuthProtocol env encrypts handler id protocol authPasswd
    encryptPassword) s = (.error e, s)
  := by
  unfold KeyOp.accepts at hrefused
  simp only [hr, Option.any_some] at hrefused
  cases hpasswords : a.acceptsPasswords env s.config handler id protocol authPasswd
      encryptPassword with
  | false => exact AccountService.exec_setUserAuthProtocol_unchecked ha hpasswords
  | true =>
    rw [hpasswords, Bool.true_and] at hrefused
    have hexec := AccountCollection.exec_setUserAuthProtocol protocol ha hcls hr
    rw [hrefused, if_neg Bool.false_ne_true] at hexec
    obtain ⟨e, he⟩ := hexec
    refine ⟨e, ?_⟩
    rw [AccountService.exec_setUserAuthProtocol_checked ha hpasswords, exec_bind_error he]

/-- The account of which the protocol has been changed. -/
def Account.withProtocol (protocol : SnmpAuthenticationProtocol) (r : SnmpUserInfo)
    (a : Account) : Account :=
  { a with snmp := some { r with authenticationProtocol := protocol } }

/-- What the service does once it has changed the protocol. -/
theorem AccountService.exec_setUserAuthProtocol_accepted (encrypts : String → Bool)
    (ha : s.accounts.lookup id = some a)
    (hcls : a.cls = .localAccount) (hr : a.snmp = some r)
    (haccepted : (KeyOp.setUserAuthProtocol handler protocol authPasswd encryptPassword).accepts
      env s.config id a = true) :
  a.acceptsPasswords env s.config handler id protocol authPasswd encryptPassword = true ∧
  exec (AccountService.setUserAuthProtocol env encrypts handler id protocol authPasswd
      encryptPassword) s
    = exec (do
        AccountService.setAccountPassword env encrypts handler id authPasswd
        AccountService.setUserSnmpPwd env id encryptPassword)
      (s.modifyAccount id fun _ => a.withProtocol protocol r)
  := by
  unfold KeyOp.accepts at haccepted
  simp only [hr, Option.any_some] at haccepted
  rw [Bool.and_assoc, Bool.and_eq_true] at haccepted
  have hexec := AccountCollection.exec_setUserAuthProtocol protocol ha hcls hr
  rw [haccepted.2, if_pos rfl] at hexec
  refine ⟨haccepted.1, ?_⟩
  rw [AccountService.exec_setUserAuthProtocol_checked ha haccepted.1, exec_bind_ok hexec]
  rfl

/-- Where the KMC fails, the protocol and the hashes of the password have been stored. -/
theorem AccountService.exec_setUserAuthProtocol_broken (ha : s.accounts.lookup id = some a)
    (hcls : a.cls = .localAccount) (hr : a.snmp = some r)
    (haccepted : (KeyOp.setUserAuthProtocol handler protocol authPasswd encryptPassword).accepts
      env s.config id a = true) (hkmc : encrypts authPasswd = false) :
  (after (AccountService.setUserAuthProtocol env encrypts handler id protocol authPasswd
      encryptPassword) s).view Account.keyView id
    = some { a.keyView with
        password := Account.cryptPasswordByRandomSalt env env.randomBytes authPasswd
        snmp := some { r with authenticationProtocol := protocol } }
  := by
  obtain ⟨hpasswords, hexec⟩ := AccountService.exec_setUserAuthProtocol_accepted encrypts ha hcls
    hr haccepted
  unfold Account.acceptsPasswords at hpasswords
  simp only [Bool.and_eq_true] at hpasswords
  have hnext := lookup_modifyAccount_self (f := fun _ => a.withProtocol protocol r) ha
  have hbroken := AccountService.exec_setAccountPassword_broken env handler hnext hcls
    hpasswords.1.2 hkmc
  unfold after
  rw [hexec, exec_bind_error hbroken]
  simp only
  rw [State.view_modifyAccount, Function.update_self, hnext]
  rfl

/-- Otherwise all is stored and both keys are made anew. -/
theorem AccountService.exec_setUserAuthProtocol_ok (ha : s.accounts.lookup id = some a)
    (hcls : a.cls = .localAccount) (hr : a.snmp = some r)
    (haccepted : (KeyOp.setUserAuthProtocol handler protocol authPasswd encryptPassword).accepts
      env s.config id a = true) (hkmc : encrypts authPasswd = true) :
  (after (AccountService.setUserAuthProtocol env encrypts handler id protocol authPasswd
      encryptPassword) s).view Account.keyView id
    = some { a.keyView with
        password := Account.cryptPasswordByRandomSalt env env.randomBytes authPasswd
        snmp := some ((Account.snmpAfterPassword env authPasswd
          { r with authenticationProtocol := protocol }).givenPrivacyPwd env encryptPassword) }
  := by
  obtain ⟨hpasswords, hexec⟩ := AccountService.exec_setUserAuthProtocol_accepted encrypts ha hcls
    hr haccepted
  unfold Account.acceptsPasswords at hpasswords
  simp only [Bool.and_eq_true] at hpasswords
  have hnext := lookup_modifyAccount_self (f := fun _ => a.withProtocol protocol r) ha
  obtain ⟨s', hset, hconfig, hview⟩ := AccountService.exec_setAccountPassword_ok env handler hnext
    hcls rfl hpasswords.1.2 hkmc
  obtain ⟨b, hb, hbview⟩ := Option.map_eq_some_iff.mp hview
  have hagain : (b.loginInterfaceExist .snmp
      && (b.checkConditionsSetSnmpPasswd env s'.config encryptPassword).isOk) = true := by
    have hsame : b.keyView = Account.keyView { a.storeHashes env authPasswd with
        snmp := some (Account.snmpAfterPassword env authPasswd
          { r with authenticationProtocol := protocol }) } := hbview
    rw [loginInterfaceExist_congr hsame, checkConditionsSetSnmpPasswd_congr hsame, hconfig,
      Bool.and_eq_true]
    exact ⟨hpasswords.1.1.1.1.1, hpasswords.2⟩
  obtain ⟨s'', hsnmp, hview'⟩ :=
    AccountService.exec_setUserSnmpPwd_ok hb (congrArg KeyView.snmp hbview) hagain
  unfold after
  rw [hexec, exec_bind_ok hset, hsnmp]
  simp only
  rw [hview', hbview]
  rfl

end Protocol

end Operation

/-! ## Runs of operations -/

/-- The hash function and `generate_ku` that a call sees. -/
structure Env.HasKeys (crypt : String → String → String)
    (generateKu : SnmpAuthenticationProtocol → String → Option String) (env : Env) : Prop where
  crypt : env.crypt = crypt
  generateKu : env.generateKu = generateKu

/-- The key that `utils.generate_ku` returns, which is empty where it fails. -/
def kuOf (generateKu : SnmpAuthenticationProtocol → String → Option String)
    (protocol : SnmpAuthenticationProtocol) (password : String) : String :=
  (generateKu protocol password).getD ""

section Step

variable {crypt : String → String → String}
  {generateKu : SnmpAuthenticationProtocol → String → Option String}
  {ku : SnmpAuthenticationProtocol → String → String} {id : ℕ} {x : KeyHolder} {c : KeyCall}
  {v : KeyView} {r : SnmpUserInfo}

theorem Env.HasKeys.isHashOf {env : Env} (henv : env.HasKeys crypt generateKu)
    (bytes : Fin 16 → UInt8) (password : String) :
  IsHashOf crypt password (Account.cryptPasswordByRandomSalt env bytes password)
  := by
  refine .inr ⟨_, isSalt_randomSalt bytes, ?_⟩
  rw [← henv.crypt]
  rfl

theorem KeyHolder.stores_of_view (hv : x.state.view Account.keyView id = some v)
    (hcls : v.cls = .localAccount) (hr : v.snmp = some r)
    (hlogin : IsHashOf crypt x.login v.password)
    (hprivacy : IsHashOf crypt x.privacy r.snmpPassword) :
  x.Stores crypt id
  := by
  obtain ⟨a, ha, rfl⟩ := Option.map_eq_some_iff.mp hv
  exact ⟨a, r, ha, hcls, hr, hlogin, hprivacy⟩

theorem KeyHolder.matches_iff_of_view (hv : x.state.view Account.keyView id = some v)
    (hr : v.snmp = some r) :
  x.Matches ku id ↔ r.authenticationKey = ku r.authenticationProtocol x.login ∧
    r.encryptionKey = ku r.authenticationProtocol x.privacy
  := by
  have hrow : x.row id = some r := by
    obtain ⟨a, ha, rfl⟩ := Option.map_eq_some_iff.mp hv
    unfold KeyHolder.row
    rw [ha]
    exact hr
  unfold KeyHolder.Matches
  rw [hrow]
  simp

/-- A call that is not accepted changes nothing. -/
theorem keyStep_of_not_accepted (hx : x.Stores crypt id) (h : c.accepted id x.state = false) :
  keyStep id x c = x
  := by
  obtain ⟨a, r, ha, hcls, hr, -, -⟩ := hx
  have hrefused : c.op.accepts c.env x.state.config id a = false := by
    rwa [KeyCall.accepted, ha, Option.any_some] at h
  have hexec : ∃ e, exec (c.prog id) x.state = (.error e, x.state) := by
    unfold KeyCall.prog
    cases hop : c.op with
    | setAccountPassword handler password =>
      rw [hop] at hrefused
      exact AccountService.exec_setAccountPassword_refused ha hrefused
    | setUserSnmpPwd password =>
      rw [hop] at hrefused
      exact AccountService.exec_setUserSnmpPwd_refused ha hrefused
    | setUserAuthProtocol handler protocol authPasswd encryptPassword =>
      rw [hop] at hrefused
      exact AccountService.exec_setUserAuthProtocol_refused ha hcls hr hrefused
  obtain ⟨e, he⟩ := hexec
  unfold keyStep after
  rw [he, h]
  rfl

/-- The account with its SNMP row stores hashes of the two passwords. -/
structure KeyHolder.Has (crypt : String → String → String) (id : ℕ) (x : KeyHolder) (a : Account)
    (r : SnmpUserInfo) : Prop where
  lookup : x.state.accounts.lookup id = some a
  cls : a.cls = .localAccount
  snmp : a.snmp = some r
  login : IsHashOf crypt x.login a.data.password
  privacy : IsHashOf crypt x.privacy r.snmpPassword

theorem KeyHolder.Stores.has (hx : x.Stores crypt id) :
  ∃ a r, x.Has crypt id a r
  := by
  obtain ⟨a, r, ha, hcls, hr, hlogin, hprivacy⟩ := hx
  exact ⟨a, r, ha, hcls, hr, hlogin, hprivacy⟩

section Has

variable {a : Account} (hx : x.Has crypt id a r)
include hx

theorem KeyHolder.Has.keys (h : x.Matches ku id) :
  r.authenticationKey = ku r.authenticationProtocol x.login ∧
    r.encryptionKey = ku r.authenticationProtocol x.privacy
  := by
  have hview : x.state.view Account.keyView id = some a.keyView := by
    rw [State.view, hx.lookup, Option.map_some]
  exact (KeyHolder.matches_iff_of_view hview hx.snmp).mp h

theorem KeyHolder.Has.row :
  x.row id = some r
  := by
  rw [KeyHolder.row, hx.lookup]
  exact hx.snmp

theorem KeyHolder.Has.accepts (h : c.accepted id x.state = true) :
  c.op.accepts c.env x.state.config id a = true
  := by
  rwa [KeyCall.accepted, hx.lookup, Option.any_some] at h

variable (henv : c.env.HasKeys crypt generateKu) (h : c.accepted id x.state = true)
include henv h

/-- A change of the login password: the privacy password follows it while it is initial. -/
theorem keyStep_setAccountPassword {handler : ℕ} {password : String}
    (hop : c.op = .setAccountPassword handler password) :
  (keyStep id x c).Stores crypt id ∧
    (x.Matches (kuOf generateKu) id →
      ((keyStep id x c).Matches (kuOf generateKu) id ↔ Unbroken (kuOf generateKu) id x c))
  := by
  have hvalid := hx.accepts h
  rw [hop] at hvalid
  have hunbroken : Unbroken (kuOf generateKu) id x c ↔ c.encrypts password = true ∨
      r.authenticationKey = kuOf generateKu r.authenticationProtocol password := by
    unfold Unbroken
    simp [h, hop, hx.row]
  have hhash := henv.isHashOf c.env.randomBytes password
  have hlogin : (keyStep id x c).login = password := by
    unfold keyStep KeyCall.passwords
    simp only [h, if_true, hop]
    split <;> rfl
  have hstate : (keyStep id x c).state
      = after (AccountService.setAccountPassword c.env c.encrypts handler id password) x.state := by
    unfold keyStep KeyCall.prog
    simp only [hop]
  rw [hunbroken]
  cases hkmc : c.encrypts password with
  | false =>
    have hprivacy : (keyStep id x c).privacy = x.privacy := by
      unfold keyStep KeyCall.passwords
      simp only [h, if_true, hop, hkmc, Bool.false_and, Bool.false_eq_true, if_false]
    have hafter : (keyStep id x c).state.view Account.keyView id = some { a.keyView with
        password := Account.cryptPasswordByRandomSalt c.env c.env.randomBytes password } := by
      rw [hstate, after, AccountService.exec_setAccountPassword_broken c.env handler hx.lookup
        hx.cls hvalid hkmc, State.view_modifyAccount, Function.update_self, hx.lookup]
      rfl
    refine ⟨KeyHolder.stores_of_view hafter hx.cls hx.snmp (hlogin ▸ hhash) (hprivacy ▸ hx.privacy),
      fun hmatches => ?_⟩
    rw [KeyHolder.matches_iff_of_view hafter hx.snmp, hlogin, hprivacy]
    simp [(hx.keys hmatches).2]
  | true =>
    obtain ⟨s', hexec, -, hafter⟩ := AccountService.exec_setAccountPassword_ok c.env handler
      hx.lookup hx.cls hx.snmp hvalid hkmc
    have hs' : (keyStep id x c).state = s' := by
      rw [hstate, after, hexec]
    rw [← hs'] at hafter
    by_cases hinitial : r.snmpEncryptionPasswordInitialStatus = some false
    · have hprivacy : (keyStep id x c).privacy = x.privacy := by
        unfold keyStep KeyCall.passwords
        simp [h, hop, hx.row, hinitial]
      have hrow : Account.snmpAfterPassword c.env password r
          = r.setUserKu c.env password .authentication := if_pos hinitial
      rw [hrow] at hafter
      refine ⟨KeyHolder.stores_of_view hafter hx.cls rfl (hlogin ▸ hhash) (hprivacy ▸ hx.privacy),
      fun hmatches => ?_⟩
      rw [KeyHolder.matches_iff_of_view hafter rfl, hlogin, hprivacy]
      simp [SnmpUserInfo.setUserKu, kuOf, henv.generateKu, (hx.keys hmatches).2]
    · have hprivacy : (keyStep id x c).privacy = password := by
        unfold keyStep KeyCall.passwords
        simp [h, hop, hx.row, hinitial, hkmc]
      have hrow : Account.snmpAfterPassword c.env password r
          = ((r.setUserKu c.env password .authentication).setUserSnmpPwd c.env
              password).setUserKu c.env password .encryption := if_neg hinitial
      rw [hrow] at hafter
      refine ⟨KeyHolder.stores_of_view hafter hx.cls rfl (hlogin ▸ hhash)
        (hprivacy ▸ henv.isHashOf c.env.snmpRandomBytes password), fun hmatches => ?_⟩
      rw [KeyHolder.matches_iff_of_view hafter rfl, hlogin, hprivacy]
      simp [SnmpUserInfo.setUserKu, SnmpUserInfo.setUserSnmpPwd, kuOf, henv.generateKu]

/-- A change of the privacy password. -/
theorem keyStep_setUserSnmpPwd {password : String} (hop : c.op = .setUserSnmpPwd password) :
  (keyStep id x c).Stores crypt id ∧
    (x.Matches (kuOf generateKu) id →
      ((keyStep id x c).Matches (kuOf generateKu) id ↔ Unbroken (kuOf generateKu) id x c))
  := by
  have haccepted := hx.accepts h
  rw [hop] at haccepted
  obtain ⟨s', hexec, hafter⟩ :=
    AccountService.exec_setUserSnmpPwd_ok hx.lookup hx.snmp haccepted
  have hs' : (keyStep id x c).state = s' := by
    unfold keyStep KeyCall.prog after
    simp only [hop, hexec]
  rw [← hs'] at hafter
  have hlogin : (keyStep id x c).login = x.login := by
    unfold keyStep KeyCall.passwords
    simp only [h, if_true, hop]
  have hprivacy : (keyStep id x c).privacy = password := by
    unfold keyStep KeyCall.passwords
    simp only [h, if_true, hop]
  constructor
  · exact KeyHolder.stores_of_view hafter hx.cls rfl (hlogin ▸ hx.login)
      (hprivacy ▸ henv.isHashOf c.env.snmpRandomBytes password)
  · intro hmatches
    rw [KeyHolder.matches_iff_of_view hafter rfl, hlogin, hprivacy]
    unfold Unbroken
    simp [hop, SnmpUserInfo.givenPrivacyPwd, SnmpUserInfo.setUserKu, SnmpUserInfo.setUserSnmpPwd,
      SnmpUserInfo.setPrivacyPwdInitStatus, kuOf, henv.generateKu, (hx.keys hmatches).1]

/-- A change of the protocol with both passwords. -/
theorem keyStep_setUserAuthProtocol {handler : ℕ} {protocol : SnmpAuthenticationProtocol}
    {authPasswd encryptPassword : String}
    (hop : c.op = .setUserAuthProtocol handler protocol authPasswd encryptPassword) :
  (keyStep id x c).Stores crypt id ∧
    (x.Matches (kuOf generateKu) id →
      ((keyStep id x c).Matches (kuOf generateKu) id ↔ Unbroken (kuOf generateKu) id x c))
  := by
  have haccepted := hx.accepts h
  rw [hop] at haccepted
  have hunbroken : Unbroken (kuOf generateKu) id x c ↔ c.encrypts authPasswd = true ∨
      r.authenticationKey = kuOf generateKu protocol authPasswd ∧
        r.encryptionKey = kuOf generateKu protocol x.privacy := by
    unfold Unbroken
    simp [h, hop, hx.row]
  have hhash := henv.isHashOf c.env.randomBytes authPasswd
  have hlogin : (keyStep id x c).login = authPasswd := by
    unfold keyStep KeyCall.passwords
    simp only [h, if_true, hop]
  have hprivacy : (keyStep id x c).privacy
      = if c.encrypts authPasswd then encryptPassword else x.privacy := by
    unfold keyStep KeyCall.passwords
    simp only [h, if_true, hop]
  have hstate : (keyStep id x c).state
      = after (AccountService.setUserAuthProtocol c.env c.encrypts handler id protocol authPasswd
          encryptPassword) x.state := by
    unfold keyStep KeyCall.prog
    simp only [hop]
  rw [hunbroken]
  cases hkmc : c.encrypts authPasswd with
  | false =>
    rw [hkmc, if_neg Bool.false_ne_true] at hprivacy
    have hafter := AccountService.exec_setUserAuthProtocol_broken hx.lookup hx.cls hx.snmp
      haccepted hkmc
    rw [← hstate] at hafter
    refine ⟨KeyHolder.stores_of_view hafter hx.cls rfl (hlogin ▸ hhash) (hprivacy ▸ hx.privacy),
      fun hmatches => ?_⟩
    rw [KeyHolder.matches_iff_of_view hafter rfl, hlogin, hprivacy]
    simp
  | true =>
    rw [hkmc, if_pos rfl] at hprivacy
    have hafter := AccountService.exec_setUserAuthProtocol_ok hx.lookup hx.cls hx.snmp haccepted
      hkmc
    rw [← hstate] at hafter
    refine ⟨KeyHolder.stores_of_view hafter hx.cls rfl (hlogin ▸ hhash)
      (hprivacy ▸ henv.isHashOf c.env.snmpRandomBytes encryptPassword), fun hmatches => ?_⟩
    rw [KeyHolder.matches_iff_of_view hafter rfl, hlogin, hprivacy]
    have hkey : (Account.snmpAfterPassword c.env authPasswd
        { r with authenticationProtocol := protocol }).authenticationKey
          = kuOf generateKu protocol authPasswd := by
      unfold Account.snmpAfterPassword kuOf
      rw [← henv.generateKu]
      simp only
      split_ifs <;> rfl
    have hprotocol : (Account.snmpAfterPassword c.env authPasswd
        { r with authenticationProtocol := protocol }).authenticationProtocol = protocol := by
      unfold Account.snmpAfterPassword
      simp only
      split_ifs <;> rfl
    simp [SnmpUserInfo.givenPrivacyPwd, SnmpUserInfo.setUserKu, SnmpUserInfo.setUserSnmpPwd,
      SnmpUserInfo.setPrivacyPwdInitStatus, kuOf, henv.generateKu, hkey, hprotocol]

end Has

/-- A call keeps the hashes of the passwords, and the keys exactly where it is not broken off. -/
theorem keyStep_spec (henv : c.env.HasKeys crypt generateKu) (hx : x.Stores crypt id) :
  (keyStep id x c).Stores crypt id ∧
    (x.Matches (kuOf generateKu) id →
      ((keyStep id x c).Matches (kuOf generateKu) id ↔ Unbroken (kuOf generateKu) id x c))
  := by
  cases h : c.accepted id x.state with
  | false =>
    rw [keyStep_of_not_accepted hx h]
    refine ⟨hx, fun hmatches => ⟨fun _ htrue => ?_, fun _ => hmatches⟩⟩
    rw [h] at htrue
    cases htrue
  | true =>
    obtain ⟨a, r, hhas⟩ := hx.has
    cases hop : c.op with
    | setAccountPassword handler password => exact keyStep_setAccountPassword hhas henv h hop
    | setUserSnmpPwd password => exact keyStep_setUserSnmpPwd hhas henv h hop
    | setUserAuthProtocol handler protocol authPasswd encryptPassword =>
      exact keyStep_setUserAuthProtocol hhas henv h hop

end Step

/-! ## The law -/

/-- A local account that is created with a plain password stores hashes of it, and its keys are
those of the password. -/
theorem newAccount_keyed {crypt : String → String → String}
    {generateKu : SnmpAuthenticationProtocol → String → Option String} {env : Env}
    (henv : env.HasKeys crypt generateKu) {info : Account.Info} (hlocal : info.oem = false)
    (hplain : info.isPwdEncrypted = false) {isIpmiOrSnmp : Bool} {id : ℕ} {s s' : State}
    (hnew : exec (newAccount env info isIpmiOrSnmp) s = (.ok id, s')) :
  KeyHolder.Stores crypt id ⟨s', info.password, info.password⟩ ∧
    KeyHolder.Matches (kuOf generateKu) id ⟨s', info.password, info.password⟩
  := by
  have hspec := newAccount_init showsStored_keyView env info isIpmiOrSnmp s rfl
  rw [hnew] at hspec
  obtain ⟨-, -, a, ha, hview⟩ := hspec
  have hview' := congrFun hview id
  rw [Function.update_self] at hview'
  unfold Account.init at ha
  cases hpw : Account.initPassword env info with
  | error e =>
    rw [hpw] at ha
    cases ha
  | ok hashes =>
    simp only [hpw] at ha
    cases hku : env.generateKu .sha256 info.password with
    | none =>
      rw [hku] at ha
      cases ha
    | some ku =>
      rw [hku] at ha
      cases ha
      have hlogin : IsHashOf crypt info.password hashes.1 := by
        unfold Account.initPassword at hpw
        simp only [hplain, hlocal, Bool.not_false, Bool.and_true, Bool.false_eq_true,
          if_false] at hpw
        split_ifs at hpw with hempty
        · cases hpw
          exact .inl ⟨by simpa using hempty, rfl⟩
        · cases hpw
          exact henv.isHashOf env.randomBytes info.password
      have hkey : ku = kuOf generateKu .sha256 info.password := by
        rw [kuOf, ← henv.generateKu, hku, Option.getD_some]
      constructor
      · exact KeyHolder.stores_of_view hview' (if_neg (by simp [hlocal])) rfl hlogin
          (henv.isHashOf env.snmpRandomBytes info.password)
      · exact (KeyHolder.matches_iff_of_view hview' rfl).mpr ⟨hkey, hkey⟩

/-- From the creation of a local account with a plain password on, the keys match the protocol
and the passwords after every call exactly when no call is broken off by the KMC. -/
theorem run_keysMatch_iff (crypt : String → String → String)
    (generateKu : SnmpAuthenticationProtocol → String → Option String) (env : Env)
    (henv : env.HasKeys crypt generateKu) (info : Account.Info) (hlocal : info.oem = false)
    (hplain : info.isPwdEncrypted = false) (isIpmiOrSnmp : Bool) (id : ℕ) (s s' : State)
    (hnew : exec (newAccount env info isIpmiOrSnmp) s = (.ok id, s')) (calls : List KeyCall)
    (hcalls : ∀ c ∈ calls, c.env.HasKeys crypt generateKu) :
  (∀ x ∈ Run.states (keyStep id) ⟨s', info.password, info.password⟩ calls, x.Stores crypt id)
    ∧ ((∀ x ∈ Run.states (keyStep id) ⟨s', info.password, info.password⟩ calls,
        x.Matches (kuOf generateKu) id)
      ↔ Run.Along (keyStep id) (Unbroken (kuOf generateKu) id)
        ⟨s', info.password, info.password⟩ calls)
  := by
  obtain ⟨hstores, hmatches⟩ := newAccount_keyed henv hlocal hplain hnew
  have halong : Run.Along (keyStep id) (fun _ c => c.env.HasKeys crypt generateKu)
      ⟨s', info.password, info.password⟩ calls := Run.along_of_forall hcalls
  constructor
  · exact Run.invariant (fun _ _ hx hc => (keyStep_spec hc hx).1) hstores halong
  · apply Run.invariant_iff_along (J := KeyHolder.Stores crypt id) _ hstores hmatches halong
    intro x c hx hm hc
    obtain ⟨hstores', hiff⟩ := keyStep_spec hc hx
    exact ⟨hstores', hiff hm⟩

/-! ### One change of the protocol -/

/-- A system whose keys show the protocol and the password. -/
def keyEnv : Env :=
  { plainEnv with
    generateKu := fun protocol password => some (toString protocol.value ++ password) }

/-- A new user who may log in by SNMP. -/
def snmpInfo : Account.Info := ⟨3, "user", "Admin@9000", 4, 2, none, false, false⟩

/-- The system after the creation of the user. -/
def keyStart : KeyHolder :=
  ⟨after (newAccount keyEnv snmpInfo false) (plainState []), "Admin@9000", "Admin@9000"⟩

/-- The protocol of the user is changed, and the KMC encrypts a text or fails. -/
def protocolCall (kmc : Bool) : KeyCall :=
  ⟨keyEnv, fun _ => kmc, .setUserAuthProtocol 2 .sha512 "Paswd@9000" "Asplin@9000"⟩

theorem newAccount_keyEnv :
  exec (newAccount keyEnv snmpInfo false) (plainState []) = (.ok 3, keyStart.state)
  := Prod.ext rfl rfl

theorem run_keysMatch_iff_changed :
  (∀ x ∈ Run.states (keyStep 3) keyStart [protocolCall true], x.Stores keyEnv.crypt 3)
    ∧ ((∀ x ∈ Run.states (keyStep 3) keyStart [protocolCall true],
        x.Matches (kuOf keyEnv.generateKu) 3)
      ↔ Run.Along (keyStep 3) (Unbroken (kuOf keyEnv.generateKu) 3) keyStart [protocolCall true])
  := by
  apply run_keysMatch_iff keyEnv.crypt keyEnv.generateKu keyEnv ⟨rfl, rfl⟩ snmpInfo rfl rfl false 3
    (plainState []) keyStart.state newAccount_keyEnv [protocolCall true]
  intro c hc
  rw [List.mem_singleton.mp hc]
  exact ⟨rfl, rfl⟩

/-- A KMC that fails leaves the keys of the old protocol beside the new one. -/
theorem broken_keys_not_match :
  ¬ ∀ x ∈ Run.states (keyStep 3) keyStart [protocolCall false],
    x.Matches (kuOf keyEnv.generateKu) 3
  := by
  intro h
  obtain ⟨r, hr, hkey, -⟩ := h (keyStep 3 keyStart (protocolCall false))
    (List.mem_cons_of_mem _ List.mem_cons_self)
  have hrow : ((keyStep 3 keyStart (protocolCall false)).row 3).map
      (fun r => (r.authenticationKey,
        kuOf keyEnv.generateKu r.authenticationProtocol
          (keyStep 3 keyStart (protocolCall false)).login))
      = some ("4Admin@9000", "6Paswd@9000") := by
    decide +kernel
  rw [hr, Option.map_some, Option.some_inj, Prod.mk.injEq, ← hkey] at hrow
  exact absurd (hrow.1.symm.trans hrow.2) (by decide)

end BmcAccount
