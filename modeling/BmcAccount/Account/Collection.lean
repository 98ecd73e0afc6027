import BmcAccount.Account.Object
import BmcAccount.Lib.Raise

/-!
# The account collection

The operations of the account collection, as programs on its state. The state holds the
account objects, the IPMI channel configurations, the configuration of the service and
the backup table. An operation that raises keeps the changes it has made before.

The order in which the source visits the accounts is that of the table; where the result
depends on it, the order is an argument of the operation.
-/

namespace BmcAccount

open Raise

/-- The state of the account collection and of what it works on. -/
structure State where
  accounts : Table ℕ Account
  channels : Table ℕ (Table ℕ ChannelConfig)
  config : Config
  backup : Table ℕ BackupRecord

/-- Programs on the state of the account collection. -/
abbrev M (α : Type) : Type := Prog Err State α

namespace State

/-- The state with the account `id` changed by `f`. -/
def modifyAccount (id : ℕ) (f : Account → Account) (s : State) : State :=
  { s with accounts := s.accounts.modify id f }

/-- `check_is_emergency_user`. -/
def checkIsEmergencyUser (s : State) (id : ℕ) : Bool :=
  id = s.config.emergencyLoginAccountId

/-- The number of enabled administrators that can operate. -/
def operateAdminNumber (s : State) : ℕ :=
  s.accounts.count fun _ a => a.isOperateAdmin

/-- `get_enabled_admin_number`, which does not look at the interfaces. -/
def enabledAdminNumber (s : State) : ℕ :=
  s.accounts.count fun _ a => a.checkIsEnabledAdmin

/-- `ipmi_channel_config:get`. -/
def channel (s : State) (id channelNumber : ℕ) : Option ChannelConfig :=
  (s.channels.lookup id).bind (·.lookup channelNumber)

/-- The row that `ipmi_channel_config:update` stores: a new row, or the old one with its
limits replaced, takes the other fields only when they are to be changed. -/
def channelRow (old : Option ChannelConfig) (info : ChannelConfig) (changeEnable : ℕ) :
    ChannelConfig :=
  if changeEnable = 1 then info
  else match old with
    | some row =>
      { row with privilegeLimit := info.privilegeLimit, sessionLimit := info.sessionLimit }
    | none =>
      { info with
        callbackRestriction := 0
        linkAuthenticationEnabled := true
        ipmiMessagingEnabled := true }

/-- The state with a row for a channel of the account `id`. -/
def setChannel (id channelNumber : ℕ) (row : ChannelConfig) (s : State) : State :=
  { s with
    channels := s.channels.insert id
      (((s.channels.lookup id).getD ∅).insert channelNumber row) }

/-- `ipmi_channel_config:update`. -/
def updateChannel (id : ℕ) (info : ChannelConfig) (changeEnable : ℕ) (s : State) : State :=
  s.setChannel id info.channelNumber
    (channelRow (s.channel id info.channelNumber) info changeEnable)

end State

/-! ## Access to accounts -/

/-- The account `id`; its absence raises `e`. -/
def getAccount (id : ℕ) (e : Err) : M Account := do
  let s ← get
  match s.accounts.lookup id with
  | none => throw e
  | some a => pure a

/-- Change the account `id` by `f`. -/
def updateAccount (id : ℕ) (f : Config → Account → Account) : M Unit :=
  modify fun s => s.modifyAccount id (f s.config)

/-- Call a method of the account `id` that may raise. -/
def callAccount (id : ℕ) (f : Config → Account → Except Err Account) : M Unit := do
  let s ← get
  match s.accounts.lookup id with
  | none => throw .indexNil
  | some a =>
    match f s.config a with
    | .error e => throw e
    | .ok a' => modify fun s => s.modifyAccount id fun _ => a'

theorem exec_callAccount {id : ℕ} {f : Config → Account → Except Err Account} {s : State}
    {a : Account} (ha : s.accounts.lookup id = some a) :
  exec (callAccount id f) s =
    match f s.config a with
    | .error e => (.error e, s)
    | .ok a' => (.ok (), s.modifyAccount id fun _ => a')
  := by
  unfold callAccount
  rw [exec_bind_ok (exec_get s)]
  simp only [ha]
  cases f s.config a <;> rfl

theorem exec_getAccount {id : ℕ} {e : Err} {s : State} {a : Account}
    (ha : s.accounts.lookup id = some a) :
  exec (getAccount id e) s = (.ok a, s)
  := by
  unfold getAccount
  rw [exec_bind_ok (exec_get s)]
  simp only [ha]
  rfl

theorem exec_getAccount_none {id : ℕ} {e : Err} {s : State} (h : s.accounts.lookup id = none) :
  exec (getAccount id e) s = (.error e, s)
  := by
  unfold getAccount
  rw [exec_bind_ok (exec_get s), h]
  rfl

/-! ## Guards -/

/-- `check_is_last_operate_admin`: reading the account fails when it is not there, which
happens only if at most one administrator can operate. -/
def checkIsLastOperateAdmin (id : ℕ) : M Bool := do
  let s ← get
  if s.operateAdminNumber ≤ 1 then
    match s.accounts.lookup id with
    | none => throw .indexNil
    | some a => pure a.isOperateAdmin
  else pure false

/-- Raise `e` if `b` holds and the account is the last administrator that can operate. -/
def refuseLastOperateAdmin (b : Bool) (id : ℕ) (e : Err) : M Unit :=
  onlyIf b do
    let last ← checkIsLastOperateAdmin id
    refuse last e

/-- Raise `e` if `b` holds and the account is the emergency account. -/
def refuseEmergencyUser (b : Bool) (id : ℕ) (e : Err) : M Unit := do
  let s ← get
  refuse (b && s.checkIsEmergencyUser id) e

theorem exec_refuseEmergencyUser (b : Bool) (id : ℕ) (e : Err) (s : State) :
  exec (refuseEmergencyUser b id e) s = exec (refuse (b && s.checkIsEmergencyUser id) e) s
  := rfl

/-! ## Deletion -/

/-- `update_deletable`. -/
def updateDeletable : M Unit :=
  modify fun s =>
    { s with accounts := s.accounts.map (Account.updateDeletable s.config (s.enabledAdminNumber = 1)) }

/-- `change_snmp_v3_trap_account`: the account of least identifier that is an enabled
administrator whose password has not expired, or the emergency account. -/
def changeSnmpV3TrapAccount (deleteId : ℕ) : M Unit := do
  let s ← get
  let changeId := s.accounts.entries.foldl (fun changeId e =>
    if ((e.2.checkIsEnabledAdmin && e.2.data.passwordExpiration != 0)
        || s.checkIsEmergencyUser e.1) && e.1 != deleteId && e.1 ≤ changeId then e.1
    else changeId) maxInvalidUserId
  refuse (s.accounts.lookup changeId).isNone .accountForbidRemoved
  modify fun s => { s with config := { s.config with snmpV3TrapAccountId := changeId } }

/-- The treatment of the account used for SNMPv3 traps in `delete_account`. -/
def leaveTrapAccount (id : ℕ) : M Unit := do
  let s ← get
  if id = s.config.snmpV3TrapAccountId && s.config.snmpV3TrapAccountChangePolicy = 0
      && s.config.snmpV3TrapAccountLimitPolicy != .modifiable then
    throw .accountForbidRemoved
  else if id = s.config.snmpV3TrapAccountId && s.config.snmpV3TrapAccountChangePolicy = 1 then
    changeSnmpV3TrapAccount id
  else pure ()

/-- `recover_inter_chassis_account_to_default`. -/
def recoverInterChassisAccountToDefault (env : Env) : M Unit := do
  callAccount interChassisAccountId (Account.recoverDefault env)
  let account ← getAccount interChassisAccountId .indexNil
  onlyIf (account.data.sshPublicKeyHash != "") do
    refuse (!env.sshKeyExists account.data.userName) .publicKeyNotExist
    callAccount interChassisAccountId fun _ => Account.deleteSshPublicKey env

/-- What `_clear_account` and `force_delete_account` share: the history, the channels and
the row of the account table go first, an account without an SNMP row raises, and then the
account goes. -/
def removeAccount (id : ℕ) : M Unit := do
  updateAccount id fun _ a => { a with history := [] }
  modify fun s => { s with channels := s.channels.erase id }
  updateAccount id fun _ a => { a with inTable := false }
  let account ← getAccount id .indexNil
  refuse account.snmp.isNone .indexNil
  modify fun s => { s with accounts := s.accounts.erase id }
  updateDeletable

/-- `delete_account`. -/
def deleteAccount (env : Env) (id : ℕ) (validationSkipped : Bool) : M Unit :=
  if id = interChassisAccountId then recoverInterChassisAccountToDefault env
  else do
    let account ← getAccount id .invalidAccountId
    refuse (!(env.onlineDeletable .localUser).getD true && account.data.isOnline)
      .accountNotModified
    refuse (!account.getPropertyWritable .userName) .accountForbidRemoved
    refuseEmergencyUser true id .accountForbidRemoved
    refuseLastOperateAdmin true id .cannotDeleteLastAdministrator
    leaveTrapAccount id
    refuse (!validationSkipped && (env.deletable account.data.accountType).isNone) .internalError
    refuse (!validationSkipped && !(env.deletable account.data.accountType).getD true)
      .accountForbidRemoved
    removeAccount id

/-- `force_delete_account`. -/
def forceDeleteAccount (id : ℕ) : M Unit := do
  let _ ← getAccount id .indexNil
  removeAccount id

/-! ## Changes of one account -/

/-- `check_interface_info`: no name is repeated, and each names an interface that can be
opened. -/
def checkInterfaceInfo (interfaces : List String) : Bool :=
  decide interfaces.Nodup
    && interfaces.all fun i => i != "Invalid" && (LoginInterface.ofName i).isSome

/-- `cover_interface_str_to_num`: the bits of the interfaces together. -/
def coverInterfaceStrToNum (interfaces : List String) : ℕ :=
  (interfaces.filterMap LoginInterface.ofName).foldl (fun n i => n ||| i.value)
    LoginInterface.invalid.value

/-- `set_login_interface`. -/
def setLoginInterface (env : Env) (id : ℕ) (interfaces : List String) : M Unit := do
  let account ← getAccount id .invalidAccountId
  refuse (!checkInterfaceInfo interfaces) (.propertyItemNotInList .loginInterface)
  let last ← checkIsLastOperateAdmin id
  let interfaceNum := coverInterfaceStrToNum interfaces
  refuse (last && (interfaceNum = LoginInterface.sftp.value
    || interfaceNum = LoginInterface.invalid.value)) (.settingPropertyFailedExtend .loginInterface)
  onlyIf (account.isDeleteIpmiInterface interfaceNum)
    (updateAccount id fun _ a => { a with data := { a.data with ipmiPassword := some "" } })
  callAccount id fun _ => Account.setLoginInterface env interfaceNum

/-- The last step of `set_role_id` for local accounts: the channel `1` follows the role. -/
def limitFirstChannel (id : ℕ) (privilege : IpmiPrivilege) : M Unit := do
  let s ← get
  if minUserNum ≤ id && id ≤ maxUserNum then
    match s.channel id 1 with
    | none => pure ()
    | some row =>
      modify (State.setChannel id 1 { row with privilegeLimit := privilege.value })
  else pure ()

/-- `set_role_id`. -/
def setRoleId (env : Env) (id roleId : ℕ) (ipmiPrivilege : Option IpmiPrivilege) : M Unit := do
  let _ ← getAccount id .invalidAccountId
  refuse ((RoleType.ofValue roleId).isNone || (env.roles roleId).isNone)
    (.propertyValueNotInList .roleId)
  refuseLastOperateAdmin (roleId != RoleType.administrator.value) id .accountNotModified
  refuseEmergencyUser true id (.emergencyLoginUser .roleId)
  let privilege := ipmiPrivilege.getD (Account.privilegeOfRole roleId)
  callAccount id fun cfg => Account.setRoleId env cfg roleId
  updateAccount id fun _ => Account.setIpmiUserPrivilege privilege
  limitFirstChannel id privilege
  updateDeletable

/-- `set_enabled`. -/
def setEnabled (env : Env) (id : ℕ) (status : Bool) : M Unit := do
  refuseLastOperateAdmin (!status) id .cannotDisableLastAdministrator
  refuseEmergencyUser (!status) id (.emergencyLoginUser .enabled)
  callAccount id fun _ => Account.setEnabled env status
  onlyIf status (updateAccount id (Account.updateInactiveUserStartTime env))

/-- `change_user_name`: the old public key is removed with the old name. -/
def changeUserName (env : Env) (id : ℕ) (name : String) : M Unit := do
  let account ← getAccount id .invalidAccountId
  match env.checkUserName account.data.accountType name with
  | none => throw .indexNil
  | some allowed => do
    refuse (!allowed) .invalidUserName
    callAccount id fun _ => Account.setUserName name
    callAccount id fun _ => Account.deleteSshPublicKey env
    updateAccount id (Account.updateInactiveUserStartTime env)

/-! ## User access by IPMI -/

/-- A request to set the access of a user on a channel. -/
structure UserAccessReq where
  userId : ℕ
  channelNumber : ℕ
  userPrivilege : ℕ
  sessionLimit : List UInt8
  userRestricted : ℕ
  authenticationEnable : ℕ
  messagingEnable : ℕ
  changeEnable : ℕ

/-- Where a request comes from. -/
structure IpmiCtx where
  chanNum : Option ℕ
  chanType : Option ℕ

/-- The channel a request is about; `14` stands for the one it arrives on. -/
def UserAccessReq.channel (req : UserAccessReq) (ctx : IpmiCtx) : ℕ :=
  if req.channelNumber = 14 then ctx.chanNum.getD req.channelNumber else req.channelNumber

/-- `channel_number_translation`: a number that has been given another meaning can no
longer be used in its own. -/
def channelNumberTranslation (env : Env) (ch : ℕ) : Option ℕ :=
  match env.chNumMaps.find? (·.1 = ch) with
  | some m => some m.2
  | none => if env.chNumMaps.any (·.2 = ch) then none else some ch

/-- `check_session_limit`: at most one byte, of at most 15. -/
def checkSessionLimit : List UInt8 → Except Err ℕ
  | [] => .ok 0
  | [b] => if 15 < b.toNat then .error .ipmiOutOfRange else .ok b.toNat
  | _ => .error .ipmiRequestLengthInvalid

/-- `check_ipmi_host_user_mgnt_enabled`: whether the request may come from the host. -/
def hostUserMgntEnabled (cfg : Config) (ctx : IpmiCtx) : Bool :=
  cfg.hostUserManagementEnabled
    || !(ctx.chanNum = some 15 || ctx.chanNum = some 21 || ctx.chanNum = some 22
      || ctx.chanNum = some 9 || ctx.chanNum = some 6 || ctx.chanType = some 3)

/-- `ipmi_set_user_access_input_check`; returns the privilege and the session limit. -/
def ipmiSetUserAccessInputCheck (env : Env) (req : UserAccessReq) (ctx : IpmiCtx) (s : State) :
    Except Err (IpmiPrivilege × ℕ) :=
  match IpmiPrivilege.ofValue req.userPrivilege with
  | none => .error .ipmiOutOfRange
  | some .reserved => .error .ipmiOutOfRange
  | some privilege =>
    if req.userId < minUserNum || maxUserNum < req.userId then .error .ipmiInvalidFieldRequest
    else if (s.accounts.lookup req.userId).isNone then .error .ipmiOutOfRange
    else
      match channelNumberTranslation env (req.channel ctx) with
      | none => .error .ipmiCommandCannotExecute
      | some ch =>
        if !defaultChannels.contains ch || (env.multiChannelStatus = 0 && ch != 1) then
          .error .ipmiCommandCannotExecute
        else (checkSessionLimit req.sessionLimit).map fun limit => (privilege, limit)

/-- `set_ipmi_user_access` of account objects: the configuration of the channel, and the
old table kept in step with it. -/
def Account.setIpmiUserAccess (req : UserAccessReq) (privilege : IpmiPrivilege) (a : Account) :
    Account :=
  if req.changeEnable = 1 then
    { a with ipmi := { a.ipmi with
      privilege1 := privilege
      isCallin := req.userRestricted
      isEnableAuth := req.authenticationEnable
      isEnableIpmiMsg := req.messagingEnable } }
  else { a with ipmi := { a.ipmi with privilege1 := privilege } }

/-- The role follows the privilege where there is one channel, and on the first channel. -/
def setsRole (env : Env) (req : UserAccessReq) (ctx : IpmiCtx) : Bool :=
  env.multiChannelStatus = 0 || req.channel ctx = 1

/-- The configuration that a request gives the channel it is about. -/
def UserAccessReq.channelConfig (req : UserAccessReq) (ctx : IpmiCtx) (privilege : IpmiPrivilege)
    (limit : ℕ) : ChannelConfig where
  channelNumber := req.channel ctx
  privilegeLimit := privilege.value
  sessionLimit := limit
  callbackRestriction := req.userRestricted
  linkAuthenticationEnabled := req.authenticationEnable = 1
  ipmiMessagingEnabled := req.messagingEnable = 1

/-- `set_ipmi_user_access`. -/
def setIpmiUserAccess (env : Env) (req : UserAccessReq) (ctx : IpmiCtx) : M Unit := do
  let s ← get
  match ipmiSetUserAccessInputCheck env req ctx s with
  | .error e => throw e
  | .ok (privilege, limit) => do
    refuse (!hostUserMgntEnabled s.config ctx) .hostUserManagementDisabled
    onlyIf (setsRole env req ctx)
      (setRoleId env req.userId (privilegeToRole privilege).value (some privilege))
    modify (State.updateChannel req.userId (req.channelConfig ctx privilege limit) req.changeEnable)
    updateAccount req.userId fun _ => Account.setIpmiUserAccess req privilege

/-! ## The sweep over inactive accounts -/

/-- One step of the sweep: the enabled administrators are counted anew before each account. -/
def visitInactive (env : Env) (limit id : ℕ) : M Unit := do
  let s ← get
  callAccount id fun cfg =>
    Account.updateInactiveStatus env cfg (s.enabledAdminNumber = 1) limit id

/-- `update_inactive_status`, visiting the accounts in the given order. -/
def updateInactiveStatus (env : Env) (order : List ℕ) : M Unit := do
  let s ← get
  if s.config.inactiveDaysThreshold = 0 then pure ()
  else order.forM (visitInactive env (s.config.inactiveDaysThreshold * daySecondCount))

end BmcAccount
