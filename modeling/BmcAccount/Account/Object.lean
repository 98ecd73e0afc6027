import BmcAccount.Account.History

/-!
# Account objects

The methods of account objects. A method of the base class that a subclass overrides is
one definition by cases on the class; a method that raises returns in `Except`, and every
such method raises before it changes the object.

`Env` is what a call sees of the rest of the system: the clock, the roles and policies in
force, the channel mappings and the cryptographic services. `Config` is the persistent
configuration of the account service.
-/

namespace BmcAccount

/-- The properties of an account that may be made read-only. -/
inductive Property where
  | password
  | userName
  | loginInterface
  | roleId
  | enabled
  | loginRuleIds
  | authenticationProtocol
  | encryptionProtocol
  | snmpPassword
deriving DecidableEq

/-- What the operations on accounts raise. -/
inductive Err where
  | invalidAccountId
  | invalidDataField
  | indexNil
  | accountNotModified
  | accountForbidRemoved
  | cannotDeleteLastAdministrator
  | cannotDisableLastAdministrator
  | emergencyLoginUser (p : Property)
  | emergencyLoginUserSettingFail
  | propertyNotWritable (p : Property)
  | propertyItemNotInList (p : Property)
  | propertyValueNotInList (p : Property)
  | propertyValueOutOfRange
  | settingPropertyFailedExtend (p : Property)
  | propertyValueError
  | propertyMissing
  | createLimitReachedForResource
  | invalidPassword
  | invalidPasswordLength
  | invalidPasswordSameWithHistory
  | passwordComplexityCheckFail
  | passwordInWeakPwdDict
  | duringMinimumPasswordAge
  | operationInProcess
  | publicKeyNotExist
  | invalidUserName
  | resourceAlreadyExists
  | authAlgoNotSupport
  | actionNotSupported
  | internalError
  | hostUserManagementDisabled
  | ipmiOutOfRange
  | ipmiInvalidFieldRequest
  | ipmiCommandCannotExecute
  | ipmiRequestLengthInvalid
  | jsonSparseArray
  | firstLoginPolicyNotInList
  | privilegeTypeNotInList
  | insufficientPrivilege
  | settingPropertyFailed
  | snmpV3TrapUserNameCannotBeChanged
  | maxPasswordValidDaysNotInList
  | minPwdAgeAndPwdValidityRestrictEachOther
  | propertyMemberQtyExceedLimit
  | propertyItemDuplicate
  | unSupported
  | privProtocolAes256NeedMatch
  | v3UserNameNotUsed
  | snmpV3TrapPolicyNotInList
deriving DecidableEq

/-- What a call sees of the rest of the system. -/
structure Env where
  /-- The clock, in seconds. -/
  now : ℕ
  /-- The privileges of each role in the role collection. -/
  roles : ℕ → Option (List PrivilegeType)
  /-- The name check of the policy of each account type that has one. -/
  checkUserName : AccountType → String → Option Bool
  /-- Whether the policy of each account type that has one lets online accounts be deleted. -/
  onlineDeletable : AccountType → Option Bool
  /-- Whether the policy of each account type that has one lets accounts be deleted. -/
  deletable : AccountType → Option Bool
  /-- `AllowedLoginInterfaces` of the policy of the inter-chassis account. -/
  interChassisInterfaces : ℕ
  /-- The hash of a password under a salt. -/
  crypt : String → String → String
  /-- The random bytes from which the salts of the account and of the SNMP password are made. -/
  randomBytes : Fin 16 → UInt8
  snmpRandomBytes : Fin 16 → UInt8
  /-- The cipher text of a password, which decryption may fail to read. -/
  encryptPassword : String → String
  decryptPassword : String → Option String
  /-- Whether the password validator of the account type accepts a password for a user. -/
  validate : AccountType → String → String → Bool
  /-- `generate_ku`, which may fail. -/
  generateKu : SnmpAuthenticationProtocol → String → Option String
  /-- Whether a user has a public key, and whether its directory can be removed. -/
  sshKeyExists : String → Bool
  removeSshKey : String → Bool
  /-- `0` where only one channel is supported. -/
  multiChannelStatus : ℕ
  /-- The channel numbers that have been customised, the outer one first. -/
  chNumMaps : List (ℕ × ℕ)
  /-- The values, in the order of `pairs`, of what `json.decode` makes of the text that
  `json.encode` makes of a table of channels; `none` stands for a `null`. -/
  jsonChannels : Table ℕ ChannelConfig → Except Err (List (Option ChannelConfig))

/-- The persistent configuration of the account service. -/
structure Config where
  emergencyLoginAccountId : ℕ
  snmpV3TrapAccountId : ℕ
  snmpV3TrapAccountChangePolicy : ℕ
  snmpV3TrapAccountLimitPolicy : SnmpV3TrapAccountLimitPolicy
  inactiveDaysThreshold : ℕ
  maxPasswordValidDays : ℕ
  minPasswordValidDays : ℕ
  historyPasswordCount : ℕ
  maxHistoryPasswordCount : ℕ
  weakPwdDictionaryEnable : Bool
  weakPwdDictionaryInProcess : Bool
  weakPasswordDictionary : List String
  hostUserManagementEnabled : Bool
  initialAccountPrivilegeRestrictEnabled : Bool

/-- Whether a property is writable according to the row of the account. -/
def Property.writable (d : AccountData) : Property → Bool
  | .password => d.passwordWritable
  | .userName => d.userNameWritable
  | .loginInterface => d.loginInterfaceWritable
  | .roleId => d.roleIdWritable
  | .enabled => d.enabledWritable
  | .loginRuleIds => d.loginRuleIdsWritable
  | .authenticationProtocol => d.authenticationProtocolWritable
  | .encryptionProtocol => d.encryptionProtocolWritable
  | .snmpPassword => d.snmpPasswordWritable

namespace Account

/-- `get_property_writable`: only local and OEM accounts have read-only properties. -/
def getPropertyWritable (a : Account) (p : Property) : Bool :=
  match a.cls with
  | .localAccount | .oemAccount => p.writable a.data
  | _ => true

/-- `get_password_change_required`: the built-in accounts never have to change theirs. -/
def getPasswordChangeRequired (a : Account) : Bool :=
  match a.cls with
  | .localAccount | .oemAccount => a.data.passwordChangeRequired
  | _ => false

/-- `get_ipmi_user_privilege`: a reserved level reads as no access. -/
def getIpmiUserPrivilege (a : Account) : IpmiPrivilege :=
  if a.ipmi.privilege1 = .reserved then .noAccess else a.ipmi.privilege1

/-- `check_is_enabled_admin`: an enabled local account that is an administrator by its
role or by its IPMI privilege. -/
def checkIsEnabledAdmin (a : Account) : Bool :=
  match a.cls with
  | .localAccount =>
    (a.getIpmiUserPrivilege = .admin || a.data.roleId = RoleType.administrator.value)
      && a.data.enabled
  | _ => false

/-- `check_is_allowed_operate_interfaces`: a login interface other than SFTP is open. -/
def checkIsAllowedOperateInterfaces (a : Account) : Bool :=
  match a.cls with
  | .localAccount =>
    a.data.loginInterface != LoginInterface.invalid.value
      && a.data.loginInterface != LoginInterface.sftp.value
  | _ => false

/-- The condition that `check_is_last_operate_admin` counts. -/
def isOperateAdmin (a : Account) : Bool :=
  a.checkIsEnabledAdmin && a.checkIsAllowedOperateInterfaces

/-- `update_privileges`: the privileges of the role, replaced by the ones given, and
narrowed to `ConfigureSelf` while a forced password change is due. -/
def updatePrivileges (env : Env) (cfg : Config) (given : Option (List PrivilegeType))
    (a : Account) : Account :=
  let hasRole := a.data.roleId != RoleType.noAccess.value
  let rolePrivileges := (env.roles a.data.roleId).getD []
  let privileges := if hasRole then given.getD rolePrivileges else rolePrivileges
  let restricted := cfg.initialAccountPrivilegeRestrictEnabled
    && a.getPasswordChangeRequired && a.data.firstLoginPolicy = .forcePasswordReset && hasRole
  match a.cls with
  | .vncAccount => a
  | _ => { a with currentPrivileges := if restricted then [.configureSelf] else privileges }

/-- `set_user_name`. -/
def setUserName (name : String) (a : Account) : Except Err Account :=
  match a.cls with
  | .localAccount | .oemAccount =>
    if a.getPropertyWritable .userName then
      .ok { a with data := { a.data with userName := name } }
    else .error (.propertyNotWritable .userName)
  | _ => .ok a

/-- `set_role_id`. -/
def setRoleId (env : Env) (cfg : Config) (roleId : ℕ) (a : Account) : Except Err Account :=
  let a' := { a with data := { a.data with roleId := roleId } }
  match a.cls with
  | .localAccount | .oemAccount =>
    if a.getPropertyWritable .roleId then .ok (a'.updatePrivileges env cfg none)
    else .error (.propertyNotWritable .roleId)
  | .ipmiAccount => .ok (a'.updatePrivileges env cfg none)
  | .interChassisAccount =>
    .ok ({ a' with defaults := { a.defaults with isRoleChanged := true } }.updatePrivileges
      env cfg none)
  | _ => .ok a

/-- `set_login_interface`. -/
def setLoginInterface (env : Env) (interface : ℕ) (a : Account) : Except Err Account :=
  let a' := { a with data := { a.data with loginInterface := interface } }
  match a.cls with
  | .localAccount | .oemAccount =>
    if a.getPropertyWritable .loginInterface then .ok a'
    else .error (.propertyNotWritable .loginInterface)
  | .interChassisAccount =>
    if interface &&& env.interChassisInterfaces = interface then
      .ok { a' with defaults := { a.defaults with isLoginInterfaceChanged := true } }
    else .error (.propertyItemNotInList .loginInterface)
  | _ => .ok a

/-- `login_interface_exist`. -/
def loginInterfaceExist (interface : LoginInterface) (a : Account) : Bool :=
  a.data.loginInterface &&& interface.value != 0

/-- The check of a local account that is enabled while its IPMI interface is open: its
IPMI password must be there and meet the password rules. -/
def checkIpmiPassword (env : Env) (a : Account) : Except Err Unit :=
  match a.data.ipmiPassword.getD "" with
  | "" => .error .invalidPassword
  | cipher =>
    match env.decryptPassword cipher with
    | none => .error .internalError
    | some plain =>
      if env.validate a.data.accountType a.data.userName plain then .ok ()
      else .error .passwordComplexityCheckFail

/-- What `set_enabled` of a local account stores. -/
def markEnabled (enabled : Bool) (a : Account) : Account :=
  { a with
    data := { a.data with enabled := enabled }
    ipmi := { a.ipmi with
      isEnableByPasswd := if enabled then .userEnable else .passwordEnable } }

/-- `set_enabled`. -/
def setEnabled (env : Env) (enabled : Bool) (a : Account) : Except Err Account :=
  match a.cls with
  | .localAccount =>
    if !a.getPropertyWritable .enabled then .error (.propertyNotWritable .enabled)
    else if !a.data.enabled && enabled && a.loginInterfaceExist .ipmi then
      (a.checkIpmiPassword env).map fun _ => a.markEnabled enabled
    else .ok (a.markEnabled enabled)
  | .oemAccount =>
    if !a.getPropertyWritable .enabled then .error (.propertyNotWritable .enabled)
    else .ok { a with data := { a.data with enabled := enabled } }
  | _ => .ok a

/-- `set_ipmi_user_privilege`: no access is stored as the reserved level. -/
def setIpmiUserPrivilege (p : IpmiPrivilege) (a : Account) : Account :=
  { a with ipmi := { a.ipmi with privilege1 := if p = .noAccess then .reserved else p } }

/-- `update_inactive_user_start_time`, which local accounts alone record. -/
def updateInactiveUserStartTime (env : Env) (cfg : Config) (a : Account) : Account :=
  match a.cls with
  | .localAccount =>
    if cfg.inactiveDaysThreshold = 0 then a
    else { a with data := { a.data with inactiveStartTime := env.now } }
  | _ => a

/-- `update_inactive_status`: an enabled local account that has been inactive for `limit`
seconds is disabled, unless it is the emergency account or, when there is only one enabled
administrator, an administrator that can operate. -/
def updateInactiveStatus (env : Env) (cfg : Config) (haveOnlyEnabledAdmin : Bool) (limit : ℕ)
    (id : ℕ) (a : Account) : Except Err Account :=
  match a.cls with
  | .localAccount =>
    if !a.data.enabled then .ok a
    else if id = cfg.emergencyLoginAccountId || (haveOnlyEnabledAdmin && a.isOperateAdmin) then
      .ok a
    else if a.data.inactiveStartTime + limit ≤ env.now then a.setEnabled env false
    else .ok a
  | _ => .ok a

/-- `update_deletable`: the emergency account, a fixed trap account and the last operable
administrator are shown as not deletable. -/
def updateDeletable (cfg : Config) (haveOnlyEnabledAdmin : Bool) (id : ℕ) (a : Account) :
    Account :=
  match a.cls with
  | .localAccount =>
    let kept := id = cfg.emergencyLoginAccountId
      || (id = cfg.snmpV3TrapAccountId && cfg.snmpV3TrapAccountChangePolicy = 0
        && cfg.snmpV3TrapAccountLimitPolicy != .modifiable)
      || (haveOnlyEnabledAdmin && a.isOperateAdmin)
    { a with data := { a.data with deletable := !kept } }
  | _ => a

/-- `delete_ssh_public_key`. -/
def deleteSshPublicKey (env : Env) (a : Account) : Except Err Account :=
  match a.cls with
  | .localAccount | .interChassisAccount =>
    if env.removeSshKey a.data.userName then
      .ok { a with data := { a.data with sshPublicKeyHash := "" } }
    else .error .internalError
  | _ => .ok a

/-- `recover_default`, a method of the inter-chassis account. -/
def recoverDefault (env : Env) (cfg : Config) (a : Account) : Except Err Account :=
  match a.cls with
  | .interChassisAccount =>
    .ok ({ a with
      data := { a.data with
        roleId := a.defaults.defaultRoleId
        loginInterface := a.defaults.defaultLoginInterface }
      defaults := { a.defaults with
        isRoleChanged := false
        isLoginInterfaceChanged := false } }.updatePrivileges env cfg none)
  | _ => .error .indexNil

/-- `is_delete_ipmi_interface`: the IPMI bit is set and would be cleared. -/
def isDeleteIpmiInterface (interface : ℕ) (a : Account) : Bool :=
  a.data.loginInterface.testBit 2 && !interface.testBit 2

/-- `calculate_password_valid_time`. -/
def calculatePasswordValidTime (env : Env) (cfg : Config) (id : ℕ) (a : Account) : ℕ :=
  if cfg.maxPasswordValidDays = 0 || id = cfg.emergencyLoginAccountId then never
  else
    let daysPassed := ((env.now : ℤ) - a.data.passwordValidStartTime) / daySecondCount
    ((cfg.maxPasswordValidDays : ℤ) - daysPassed).toNat

/-- `set_password_change_required`. -/
def setPasswordChangeRequired (env : Env) (cfg : Config) (required : Bool) (a : Account) :
    Account :=
  { a with data := { a.data with passwordChangeRequired := required } }.updatePrivileges
    env cfg none

/-- `update_password_expire_status`. -/
def updatePasswordExpireStatus (env : Env) (cfg : Config) (status : Bool) (a : Account) :
    Account :=
  if !status && 0 < a.data.passwordExpiration then a
  else (a.setPasswordChangeRequired env cfg status).updatePrivileges env cfg
    (if status then some [.configureSelf] else none)

/-- `set_password_valid_start_time`. -/
def setPasswordValidStartTime (time : ℕ) (a : Account) : Account :=
  { a with data := { a.data with passwordValidStartTime := time } }

/-- `set_password_valid_time`. -/
def setPasswordValidTime (days : ℕ) (a : Account) : Account :=
  { a with data := { a.data with passwordExpiration := days } }

/-- `set_within_min_password_days_status`, which local accounts alone record. -/
def setWithinMinPasswordDaysStatus (status : Bool) (a : Account) : Account :=
  match a.cls with
  | .localAccount => { a with data := { a.data with withinMinPasswordDays := status } }
  | _ => a

/-! ## Passwords -/

/-- `SaltCharset`. -/
def saltCharset : List Char :=
  "./0123456789ABCDEFGHIJKLMNOPQRSTUVWXYZabcdefghijklmnopqrstuvwxyz".toList

/-- The salt made from random bytes. -/
def randomSalt (bytes : Fin 16 → UInt8) : String :=
  String.ofList (List.ofFn fun i => saltCharset.getD ((bytes i).toNat % saltCharset.length) '.')

/-- `crypt_password_by_random_salt`; the same hash serves as the second one. -/
def cryptPasswordByRandomSalt (env : Env) (bytes : Fin 16 → UInt8) (password : String) : String :=
  env.crypt password ("$6$" ++ randomSalt bytes)

/-- The checks of a password that do not depend on the history of the account. -/
def checkPasswordRules (env : Env) (cfg : Config) (userName password : String) (a : Account) :
    Except Err Unit :=
  if !a.getPropertyWritable .password then .error (.propertyNotWritable .password)
  else if !env.validate a.data.accountType userName password then
    .error .passwordComplexityCheckFail
  else if password.utf8ByteSize < 1 || 512 < password.utf8ByteSize then
    .error .invalidPasswordLength
  else if !password.toList.all fun c => c.toNat < 128 then .error .invalidPassword
  else if cfg.weakPwdDictionaryEnable && cfg.weakPwdDictionaryInProcess then
    .error .operationInProcess
  else if cfg.weakPwdDictionaryEnable && cfg.weakPasswordDictionary.contains password then
    .error .passwordInWeakPwdDict
  else .ok ()

/-- `password_validator` of local and OEM accounts. -/
def passwordValidator (env : Env) (cfg : Config) (userName password : String)
    (isInitial isConfigSelf : Bool) (a : Account) : Except Err Unit :=
  match a.cls with
  | .oemAccount =>
    if isInitial then .ok ()
    else do
      a.checkPasswordRules env cfg userName password
      if History.check env.crypt password a.history then .ok ()
      else .error .invalidPasswordSameWithHistory
  | .localAccount => do
    a.checkPasswordRules env cfg userName password
    if !isInitial && !History.check env.crypt password a.history then
      .error .invalidPasswordSameWithHistory
    else if a.data.withinMinPasswordDays && isConfigSelf && !isInitial
        && (!a.getPasswordChangeRequired || a.data.firstLoginPolicy != .forcePasswordReset) then
      .error .duringMinimumPasswordAge
    else .ok ()
  | _ => .ok ()

/-- The SNMP row of a local account whose password is changed: the authentication key
always follows the password, the privacy password and key while they are initial. -/
def snmpAfterPassword (env : Env) (password : String) (r : SnmpUserInfo) : SnmpUserInfo :=
  let ku := (env.generateKu r.authenticationProtocol password).getD ""
  let hash := cryptPasswordByRandomSalt env env.snmpRandomBytes password
  if r.snmpEncryptionPasswordInitialStatus = some false then { r with authenticationKey := ku }
  else { r with
    authenticationKey := ku
    encryptionKey := ku
    snmpPassword := hash
    snmpKdfPassword := hash }

/-- The common part of `set_account_password` of local and OEM accounts: the new hashes,
the entry in the history, and whether the password has to be changed again. -/
def storePassword (env : Env) (cfg : Config) (password ipmiPassword : String)
    (isConfigSelf : Bool) (a : Account) : Account :=
  let hash := cryptPasswordByRandomSalt env env.randomBytes password
  { a with
    data := { a.data with
      password := hash
      kdfPassword := some hash
      ipmiPassword := some (env.encryptPassword ipmiPassword) }
    history := History.insert hash (some hash) cfg.historyPasswordCount a.history
  }.setPasswordChangeRequired env cfg !isConfigSelf

/-- `set_account_password`. The SNMP keys of a local account are set after the rest, so
an account without an SNMP row has changed its password when it raises. -/
def setAccountPassword (env : Env) (cfg : Config) (password : String) (isConfigSelf : Bool)
    (a : Account) : Account × Except Err Unit :=
  match a.cls with
  | .oemAccount =>
    (a.storePassword env cfg password (String.ofList (password.toList.take 20)) isConfigSelf,
      .ok ())
  | .localAccount =>
    let a' := a.storePassword env cfg password password isConfigSelf
    match a.snmp with
    | none => (a', .error .indexNil)
    | some r =>
      ({ a'.setPasswordValidStartTime env.now with snmp := some (snmpAfterPassword env password r) },
        .ok ())
  | _ => (a, .ok ())

/-! ## Creation -/

/-- What `new_account` is given. -/
structure Info where
  id : ℕ
  name : String
  password : String
  roleId : ℕ
  interface : ℕ
  firstLoginPolicy : Option FirstLoginPolicy
  oem : Bool
  isPwdEncrypted : Bool

/-- The hashes and the cipher text of the password of a new account. -/
def initPassword (env : Env) (info : Info) : Except Err (String × Option String × String) :=
  let hash := cryptPasswordByRandomSalt env env.randomBytes info.password
  if info.password = "" && !info.oem then .ok ("", some "", "")
  else if info.isPwdEncrypted then
    match History.saltOf info.password with
    | none => .error .internalError
    | some _ => .ok (info.password, if info.oem then some info.password else none, "")
  else .ok (hash, some hash, env.encryptPassword info.password)

/-- The IPMI privilege of a role identifier. -/
def privilegeOfRole (roleId : ℕ) : IpmiPrivilege :=
  ((RoleType.ofValue roleId).map roleToPrivilege).getD .reserved

/-- A new account before its password is checked: the row as the table creates it. -/
def blank (info : Info) : Account where
  cls := if info.oem then .oemAccount else .localAccount
  data :=
    { userName := info.name
      accountExpiration := none
      certificates := none
      enabled := false
      locked := false
      deletable := false
      password := ""
      kdfPassword := none
      passwordChangeRequired := true
      passwordExpiration := never
      roleId := info.roleId
      sshPublicKeyHash := ""
      ipmiPassword := none
      withinMinPasswordDays := false
      loginRuleIds := 0
      inactUserRemainDays := never
      lastLoginTime := never
      lastLoginIP := ""
      lastLoginInterface := .web
      firstLoginPolicy := .forcePasswordReset
      accountType := .localUser
      loginInterface := 0
      passwordValidStartTime := 0
      inactiveStartTime := 0
      passwordWritable := true
      userNameWritable := true
      loginInterfaceWritable := true
      roleIdWritable := true
      enabledWritable := true
      loginRuleIdsWritable := true
      authenticationProtocolWritable := true
      encryptionProtocolWritable := true
      snmpPasswordWritable := true
      isOnline := false }
  inTable := true
  defaults := ⟨255, LoginInterface.unset.value, false, false⟩
  ipmi := ⟨1, 0, 1, 1, .disable, .reserved, privilegeOfRole info.roleId⟩
  snmp := none
  history := []
  currentPrivileges := []
  tmpLastLogin := ⟨none, none, none⟩

/-- The account that `init_account` and `new_account_snmp_info` make of the hashes and the
cipher text of its password and of its SNMP key. -/
def initial (env : Env) (info : Info) (password : String) (kdfPassword : Option String)
    (ipmiPassword ku : String) : Account :=
  let hash := cryptPasswordByRandomSalt env env.snmpRandomBytes info.password
  { blank info with
    data := { (blank info).data with
      password := password
      kdfPassword := kdfPassword
      ipmiPassword := some ipmiPassword
      enabled := true
      deletable := true
      lastLoginInterface := .invalid
      firstLoginPolicy := info.firstLoginPolicy.getD .forcePasswordReset
      accountType := if info.oem then .oem else .localUser
      loginInterface := info.interface
      passwordValidStartTime := env.now }
    snmp := some ⟨ku, none, .sha256, ku, none, .aes128, hash, hash, some true⟩ }

/-- `init_account` and `new_account_snmp_info`. -/
def init (env : Env) (info : Info) : Except Err Account :=
  match initPassword env info with
  | .error e => .error e
  | .ok (password, kdfPassword, ipmiPassword) =>
    match env.generateKu .sha256 info.password with
    | none => .error .authAlgoNotSupport
    | some ku => .ok (initial env info password kdfPassword ipmiPassword ku)

/-! ## Backup and recovery -/

/-- `get_accoutn_data_str`: the row, with the last login that has not been written yet. -/
def getAccountData (a : Account) : AccountData :=
  { a.data with
    lastLoginTime := a.tmpLastLogin.lastLoginTime.getD a.data.lastLoginTime
    lastLoginIP := a.tmpLastLogin.lastLoginIP.getD a.data.lastLoginIP
    lastLoginInterface := a.tmpLastLogin.lastLoginInterface.getD a.data.lastLoginInterface }

/-- `recover_account_data` and `recover_ipmi_data`. -/
def recoverData (b : BackupRecord) (a : Account) : Account :=
  { a with data := b.accountData, ipmi := b.ipmiData }

/-- `recover_snmp_data`, which needs the row to be there. -/
def recoverSnmpData (b : BackupRecord) (a : Account) : Except Err Account :=
  match a.snmp with
  | some _ => .ok { a with snmp := some b.snmpData }
  | none => .error .indexNil

end Account

end BmcAccount
