import BmcAccount.Lib.Table

/-!
# Accounts and their records

The enumerations and records of the account service. An account object holds its class,
its row of the account table, its IPMI row, its SNMP row if it has one, and the rows of
its password history. The identifier of an account is the key under which the collection
holds it, so no record repeats it.

Role identifiers, login interfaces and IPMI privileges are stored as numbers, as the
database does; the enumerations name the values that the code compares them with.
-/

namespace BmcAccount

/-! ## Enumerations -/

/-- The login interfaces. `unset` is the default of the generated enumeration. -/
inductive LoginInterface where
  | invalid
  | web
  | snmp
  | ipmi
  | ssh
  | sftp
  | console
  | redfish
  | unset
deriving DecidableEq

/-- The bit of a login interface. -/
def LoginInterface.value : LoginInterface → ℕ
  | .invalid => 0
  | .web => 1
  | .snmp => 2
  | .ipmi => 4
  | .ssh => 8
  | .sftp => 16
  | .console => 64
  | .redfish => 128
  | .unset => 2147483647

/-- The login interface of a given name. -/
def LoginInterface.ofName : String → Option LoginInterface
  | "Invalid" => some .invalid
  | "Web" => some .web
  | "SNMP" => some .snmp
  | "IPMI" => some .ipmi
  | "SSH" => some .ssh
  | "SFTP" => some .sftp
  | "Local" => some .console
  | "Redfish" => some .redfish
  | "default" => some .unset
  | _ => none

/-- The types of accounts. -/
inductive AccountType where
  | localUser
  | ldap
  | kerberos
  | vnc
  | kvm
  | kerberosSSO
  | ipmiInner
  | snmpCommunity
  | oem
  | interChassis
deriving DecidableEq

/-- The roles that the code names; the identifiers `5` to `20` are the custom roles. -/
inductive RoleType where
  | noAccess
  | commonUser
  | operator
  | administrator
  | customRole (n : Fin 16)
deriving DecidableEq

/-- The identifier of a role. -/
def RoleType.value : RoleType → ℕ
  | .noAccess => 0
  | .commonUser => 2
  | .operator => 3
  | .administrator => 4
  | .customRole n => 5 + n

/-- The role of a given identifier. -/
def RoleType.ofValue (n : ℕ) : Option RoleType :=
  if n = 0 then some .noAccess
  else if n = 2 then some .commonUser
  else if n = 3 then some .operator
  else if n = 4 then some .administrator
  else if h : 5 ≤ n ∧ n ≤ 20 then some (.customRole ⟨n - 5, by omega⟩)
  else none

/-- The IPMI privilege levels. -/
inductive IpmiPrivilege where
  | reserved
  | callback
  | user
  | operator
  | admin
  | oem
  | noAccess
deriving DecidableEq

/-- The number of an IPMI privilege level. -/
def IpmiPrivilege.value : IpmiPrivilege → ℕ
  | .reserved => 0
  | .callback => 1
  | .user => 2
  | .operator => 3
  | .admin => 4
  | .oem => 5
  | .noAccess => 15

/-- The IPMI privilege level of a given number. -/
def IpmiPrivilege.ofValue : ℕ → Option IpmiPrivilege
  | 0 => some .reserved
  | 1 => some .callback
  | 2 => some .user
  | 3 => some .operator
  | 4 => some .admin
  | 5 => some .oem
  | 15 => some .noAccess
  | _ => none

/-- `role_to_privilege_map`: the IPMI privilege of a role. -/
def roleToPrivilege : RoleType → IpmiPrivilege
  | .noAccess => .noAccess
  | .commonUser => .user
  | .operator => .operator
  | .administrator => .admin
  | .customRole _ => .operator

/-- `privilege_to_role_map`: the role of an IPMI privilege. -/
def privilegeToRole : IpmiPrivilege → RoleType
  | .reserved => .noAccess
  | .callback => .noAccess
  | .user => .commonUser
  | .operator => .operator
  | .admin => .administrator
  | .oem => .noAccess
  | .noAccess => .noAccess

/-- How an IPMI user has been enabled. -/
inductive IpmiUserEnableByPassword where
  | disable
  | userEnable
  | passwordEnable
deriving DecidableEq

/-- What happens when an account logs in for the first time. -/
inductive FirstLoginPolicy where
  | null
  | promptPasswordReset
  | forcePasswordReset
deriving DecidableEq

/-- Whether the account used for SNMPv3 traps may be modified. -/
inductive SnmpV3TrapAccountLimitPolicy where
  | modifiable
  | nameModifiable
  | notModifiable
deriving DecidableEq

/-- The privileges that a role may grant. -/
inductive PrivilegeType where
  | userMgmt
  | basicSetting
  | kvmMgmt
  | readOnly
  | vmmMgmt
  | securityMgmt
  | powerMgmt
  | diagnoseMgmt
  | configureSelf
deriving DecidableEq

inductive SnmpAuthenticationProtocol where
  | none
  | md5
  | sha96
  | sha224
  | sha256
  | sha384
  | sha512
deriving DecidableEq

inductive SnmpEncryptionProtocol where
  | none
  | des
  | aes128
  | aes256
deriving DecidableEq

/-! ## Constants -/

/-- `MIN_USER_NUM` and `MAX_USER_NUM` of the local accounts. -/
def minUserNum : ℕ := 2
def maxUserNum : ℕ := 17

/-- `INTER_CHASSIS_ACCOUNT_ID`, the account of the chassis manager. -/
def interChassisAccountId : ℕ := 23

/-- `MAX_INVALID_USER_ID`, an identifier above those of the local accounts. -/
def maxInvalidUserId : ℕ := 50

/-- `DAY_SECOND_COUNT`. -/
def daySecondCount : ℕ := 24 * 60 * 60

/-- `DETELE_USER_NAME`, the name an account is given before it is replaced. -/
def deleteUserName : String := "delete_user"

/-- `DEFAULT_CHANNELS_MAP`, the channels every local account has a configuration for. -/
def defaultChannels : List ℕ := [1, 2]

/-- `0xffffffff`, the time of what has not happened and the term of what does not end. -/
def never : ℕ := 0xffffffff

/-! ## Records -/

/-- The class of an account object, which decides what its methods do. -/
inductive AccountClass where
  | localAccount
  | oemAccount
  | vncAccount
  | ipmiAccount
  | snmpCommunity
  | interChassisAccount
deriving DecidableEq

/-- The part of a row of the account table that is backed up and recovered. -/
structure AccountData where
  userName : String
  accountExpiration : Option String
  certificates : Option ℕ
  enabled : Bool
  locked : Bool
  deletable : Bool
  password : String
  kdfPassword : Option String
  passwordChangeRequired : Bool
  passwordExpiration : ℕ
  roleId : ℕ
  sshPublicKeyHash : String
  ipmiPassword : Option String
  withinMinPasswordDays : Bool
  loginRuleIds : ℕ
  inactUserRemainDays : ℕ
  lastLoginTime : ℕ
  lastLoginIP : String
  lastLoginInterface : LoginInterface
  firstLoginPolicy : FirstLoginPolicy
  accountType : AccountType
  loginInterface : ℕ
  passwordValidStartTime : ℕ
  inactiveStartTime : ℕ
  passwordWritable : Bool
  userNameWritable : Bool
  loginInterfaceWritable : Bool
  roleIdWritable : Bool
  enabledWritable : Bool
  loginRuleIdsWritable : Bool
  authenticationProtocolWritable : Bool
  encryptionProtocolWritable : Bool
  snmpPasswordWritable : Bool
  isOnline : Bool

/-- The columns of a row of the account table that only the inter-chassis account uses. -/
structure DefaultData where
  defaultRoleId : ℕ
  defaultLoginInterface : ℕ
  isRoleChanged : Bool
  isLoginInterfaceChanged : Bool

/-- A row of the IPMI user table. -/
structure IpmiUserInfo where
  use20BytesPasswd : ℕ
  isCallin : ℕ
  isEnableAuth : ℕ
  isEnableIpmiMsg : ℕ
  isEnableByPasswd : IpmiUserEnableByPassword
  privilege0 : IpmiPrivilege
  privilege1 : IpmiPrivilege

/-- A row of the SNMP user table. -/
structure SnmpUserInfo where
  authenticationKey : String
  authenticationKeySet : Option Bool
  authenticationProtocol : SnmpAuthenticationProtocol
  encryptionKey : String
  encryptionKeySet : Option Bool
  encryptionProtocol : SnmpEncryptionProtocol
  snmpPassword : String
  snmpKdfPassword : String
  snmpEncryptionPasswordInitialStatus : Option Bool

/-- A row of the password history of an account. -/
structure HistoryRow where
  sequenceNumber : ℕ
  password : String
  kdfPassword : Option String
deriving DecidableEq

/-- The configuration of an account on one IPMI channel. -/
structure ChannelConfig where
  channelNumber : ℕ
  privilegeLimit : ℕ
  sessionLimit : ℕ
  callbackRestriction : ℕ
  linkAuthenticationEnabled : Bool
  ipmiMessagingEnabled : Bool

/-- The time, address and interface of a login that have not been written to the row. -/
structure LastLogin where
  lastLoginTime : Option ℕ
  lastLoginIP : Option String
  lastLoginInterface : Option LoginInterface

/-- An account object. An object whose row has been deleted from the account table, `inTable`
being `false`, keeps the values of the row. -/
structure Account where
  cls : AccountClass
  data : AccountData
  inTable : Bool
  defaults : DefaultData
  ipmi : IpmiUserInfo
  snmp : Option SnmpUserInfo
  history : List HistoryRow
  currentPrivileges : List PrivilegeType
  tmpLastLogin : LastLogin

/-- What `backup_account_info` writes of an account, as it is read back. A channel configuration
of `none` stands for a `null` that the JSON encoding may leave in an array; the whole list is
`none` in a record written before channels were backed up. -/
structure BackupRecord where
  accountData : AccountData
  ipmiData : IpmiUserInfo
  snmpData : SnmpUserInfo
  ipmiChannelData : Option (List (Option ChannelConfig))

end BmcAccount
