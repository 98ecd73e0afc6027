import BmcAccount.Account.Create

/-!
# Backup and recovery of accounts

`backup_account_info` writes a record of every local account, and `recover_account` gives
an account the contents of its record. If another account has the name in the record, it
is renamed first and deleted in the end; when the recovery raises it gets its name back.
-/

namespace BmcAccount

open Raise

/-! ## Backup -/

/-- `get_backup_info`, each part as it is read back. -/
def getBackupInfo (env : Env) (s : State) (id : ℕ) (a : Account) : Except Err BackupRecord :=
  match a.snmp, s.channels.lookup id with
  | some snmp, some channels =>
    (env.jsonChannels channels).map fun l => ⟨a.getAccountData, a.ipmi, snmp, some l⟩
  | _, _ => .error .indexNil

/-- `backup_account_info`. -/
def backupAccountInfo (env : Env) : M Unit := do
  modify fun s => { s with backup := ∅ }
  let s ← get
  s.accounts.entries.forM fun e =>
    if e.2.data.accountType = .localUser then
      match getBackupInfo env s e.1 e.2 with
      | .error err => throw err
      | .ok b => modify fun s => { s with backup := s.backup.insert e.1 b }
    else pure ()

/-! ## Recovery -/

/-- `get_account_by_name`, visiting the accounts in the given order. -/
def State.getAccountByName (s : State) (order : List ℕ) (name : String) : Option ℕ :=
  order.find? fun id => (s.accounts.lookup id).any fun a => a.data.userName = name

theorem userName_of_getAccountByName {s : State} {order : List ℕ} {name : String} {d : ℕ}
    (h : s.getAccountByName order name = some d) :
  ∃ a, s.accounts.lookup d = some a ∧ a.data.userName = name
  := by
  have hname := List.find?_some h
  obtain ⟨a, ha, hname⟩ := (Option.any_eq_true _ _).mp hname
  exact ⟨a, ha, of_decide_eq_true hname⟩

/-- Run `m` on the account of the same name, if there is one. -/
def forDup (dup : Option ℕ) (m : ℕ → M Unit) : M Unit :=
  match dup with
  | none => pure ()
  | some d => m d

/-- `recover_ipmi_channel_data`: an old record gives the default channels the settings of
the IPMI row; a `null` raises. -/
def recoverIpmiChannelData (id : ℕ) (b : BackupRecord) : M Unit :=
  match b.ipmiChannelData with
  | none => defaultChannels.forM fun ch => modify (State.updateChannel id
      { channelNumber := ch
        privilegeLimit := b.ipmiData.privilege1.value
        sessionLimit := 0
        callbackRestriction := b.ipmiData.isCallin
        linkAuthenticationEnabled := b.ipmiData.isEnableAuth = 1
        ipmiMessagingEnabled := b.ipmiData.isEnableIpmiMsg = 1 } 1)
  | some l => l.forM fun
      | none => throw .indexNil
      | some c => modify (State.updateChannel id c 1)

/-- `ManagerAccount:recover`. -/
def recover (id : ℕ) (b : BackupRecord) : M Unit := do
  updateAccount id fun _ => Account.recoverData b
  callAccount id fun _ => Account.recoverSnmpData b
  recoverIpmiChannelData id b

/-- `cover_account_info`. -/
def coverAccountInfo (env : Env) (id : ℕ) (b : BackupRecord) : M Unit := do
  let account ← getAccount id .invalidAccountId
  refuseLastOperateAdmin (account.data.roleId = RoleType.administrator.value
    && b.accountData.roleId != RoleType.administrator.value) id .actionNotSupported
  recover id b
  updateAccount id fun cfg => Account.updatePrivileges env cfg none

/-- The configuration without the account `id`. -/
def Config.forget (id : ℕ) (cfg : Config) : Config :=
  { cfg with
    emergencyLoginAccountId :=
      if id = cfg.emergencyLoginAccountId then 0 else cfg.emergencyLoginAccountId
    snmpV3TrapAccountId := if id = cfg.snmpV3TrapAccountId then 0 else cfg.snmpV3TrapAccountId }

/-- `account_recover:delete_user`. -/
def deleteUser (id : ℕ) : M Unit := do
  modify fun s => { s with config := s.config.forget id }
  forceDeleteAccount id

/-- Make way for the account that is recovered: the account of the same name is renamed,
unless it is the last operable administrator and the record is none of an administrator. -/
def renameDup (env : Env) (b : BackupRecord) (d : ℕ) : M Unit := do
  refuseLastOperateAdmin (b.accountData.roleId != RoleType.administrator.value) d
    .actionNotSupported
  changeUserName env d deleteUserName

/-- What `new_account` is given for an account that is recovered. -/
def BackupRecord.info (id : ℕ) (b : BackupRecord) : Account.Info where
  id := id
  name := b.accountData.userName
  password := ""
  roleId := b.accountData.roleId
  interface := b.accountData.loginInterface
  firstLoginPolicy := some b.accountData.firstLoginPolicy
  oem := false
  isPwdEncrypted := false

/-- `recover_account_while_id_not_exist`. -/
def recoverAccountWhileIdNotExist (env : Env) (order : List ℕ) (id : ℕ) (b : BackupRecord) :
    M Unit := do
  let s ← get
  let dup := s.getAccountByName order b.accountData.userName
  forDup dup (renameDup env b)
  protect (do let _ ← newAccount env (b.info id) true) fun e => do
    forDup dup fun d => changeUserName env d b.accountData.userName
    throw e
  protect (coverAccountInfo env id b) fun e => do
    forceDeleteAccount id
    forDup dup fun d => changeUserName env d b.accountData.userName
    throw e
  forDup dup deleteUser

/-- The other account that has the name in the record. -/
def State.dupOf (s : State) (order : List ℕ) (id : ℕ) (b : BackupRecord) : Option ℕ :=
  (s.getAccountByName order b.accountData.userName).filter (· ≠ id)

/-- `recover_account_while_id_exist`. -/
def recoverAccountWhileIdExist (env : Env) (order : List ℕ) (id : ℕ) (b : BackupRecord) :
    M Unit := do
  let s ← get
  let dup := s.dupOf order id b
  forDup dup (renameDup env b)
  protect (coverAccountInfo env id b) fun e => do
    forDup dup fun d => changeUserName env d b.accountData.userName
    throw e
  forDup dup deleteUser

/-- `recover_account`. -/
def recoverAccount (env : Env) (order : List ℕ) (id : ℕ) : M Unit := do
  refuse (id < 2 || 17 < id) .invalidDataField
  let s ← get
  match s.backup.lookup id with
  | none => throw .propertyMissing
  | some b =>
    if (s.accounts.lookup id).isNone then recoverAccountWhileIdNotExist env order id b
    else recoverAccountWhileIdExist env order id b

end BmcAccount
