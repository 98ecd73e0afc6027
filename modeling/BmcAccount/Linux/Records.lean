import BmcAccount.Account.Collection

/-!
# The entries of the account files

The accounts are also kept in four files of the operating system: `passwd`, `shadow`, `group`
and the file of IPMI users that the login module reads. An entry is a table whose fields can
be missing, and a number that is read from a file is not the same value as its text.
-/

namespace BmcAccount

namespace Linux

/-- A value of a Lua table. -/
inductive Value where
  | nil
  | num (n : ℕ)
  | text (s : String)
deriving DecidableEq

/-- `str`: the characters of a value in a line. -/
def Value.str : Value → List Char
  | .nil => []
  | .num n => Nat.toDigits 10 n
  | .text s => s.toList

@[simp]
theorem Value.str_nil :
  Value.nil.str = []
  := rfl

/-- `ACTUAL_ROOT_USER_NAME` and `RESERVED_ROOT_USER_NAME`. -/
def actualRootUserName : String := "root"
def reservedRootUserName : String := "<root>"

/-- `LINUX_USER_ID_BASE`. -/
def linuxUserIdBase : ℕ := 500

/-- The name under which the files have an account: the system has a user `root` already. -/
def fileName (name : String) : String :=
  if name = actualRootUserName then reservedRootUserName else name

/-! ## The users of the system -/

/-- A user of the system. -/
structure AppUser where
  name : String
  uid : ℕ
  gids : List ℕ
deriving DecidableEq

/-- `APP_USERS`. -/
def appUsers : List AppUser :=
  [⟨"root", 0, [0]⟩, ⟨"sshd", 74, [74]⟩, ⟨"apache", 98, [98, 103]⟩,
    ⟨"snmpd_user", 95, [95, 103]⟩, ⟨"ipmi_user", 96, [96, 103, 106]⟩,
    ⟨"kvm_user", 97, [97, 103, 200, 201, 202]⟩, ⟨"discovery_user", 100, [100, 103]⟩,
    ⟨"comm_user", 101, [101, 103]⟩, ⟨"redfish_user", 102, [102, 103, 200, 201, 202]⟩,
    ⟨"secbox", 104, [104, 103]⟩, ⟨"<tsb_user>", 105, [105, 106, 103]⟩]

/-! ## Names of accounts -/

/-- The characters of the default pattern for names; the class has the range from `+` to `=`. -/
def isNameChar (c : Char) : Bool :=
  c.isAlphanum || '+' ≤ c && c ≤ '='
    || c ∈ ['\x60', '~', '!', '@', '#', '$', '%', '^', '&', '*', '(', ')', '_', '\x7b', '\x7d', ';',
      '[', ']', '?', '.', '|']

/-- The characters that the default pattern excludes. -/
def isBarredChar (c : Char) : Bool :=
  c ∈ ['<', '>', '&', ',', '\x27', '/', '%', ':', '\x22', ' ']

/-- The default pattern for names. -/
def defaultNamePattern (name : String) : Bool :=
  match name.toList with
  | [] => false
  | c :: cs =>
    (c :: cs).all (fun c => isNameChar c && !isBarredChar c)
      && c ∉ ['#', '+', '-'] && cs.length < 16

/-- `check_user_name` of a policy without a pattern of its own. -/
def checkUserName (name : String) : Bool :=
  if name = actualRootUserName then true
  else if name = "." ∨ name = ".." then false
  else if name ∈ appUsers.map AppUser.name then false
  else defaultNamePattern name

/-! ## Entries -/

/-- An entry of the file of IPMI users. -/
structure IpmiUser where
  userId : Value
  userName : String
  password : Value
  userPasswordMaxLength : Value
  maxSessionCnt : Value
  isCallin : Value
  userEnabled : Value
  authEnabled : Value
  ipmiMsgEnabled : Value
  isEnabledByPasswd : Value
  privilege0 : Value
  privilege1 : Value
  snmpPrivacyPassword : Value
  isLocked : Value
  loginRuleIdsNum : Value
  loginInterfaceNum : Value
  isExcludeUser : Value
  isPasswordExpired : Value
  roleId : Value
deriving DecidableEq

/-- The fields of a line of the file of IPMI users. -/
def IpmiUser.fields (u : IpmiUser) : List (List Char) :=
  [u.userId.str, u.userName.toList, ['x'], u.userPasswordMaxLength.str, u.maxSessionCnt.str,
    u.isCallin.str, u.userEnabled.str, u.authEnabled.str, u.ipmiMsgEnabled.str,
    u.isEnabledByPasswd.str, u.privilege0.str, u.privilege1.str, ['x'], u.isLocked.str,
    u.loginRuleIdsNum.str, u.loginInterfaceNum.str, u.isExcludeUser.str,
    u.isPasswordExpired.str, u.roleId.str]

/-- `IpmiFile:data_to_line`. -/
def IpmiUser.dataToLine (u : IpmiUser) : List Char := [':'].intercalate u.fields

/-- What `get_account_file_line` collects about an account. -/
structure AccountLine where
  userName : String
  password : String
  id : ℕ
  role : ℕ
  isLocalUser : Bool
  userEnabled : ℕ
  privilegeNum : Option ℕ
  isLocked : ℕ
  loginRuleIdsNum : ℕ
  loginInterfaceNum : ℕ
  isExcludeUser : ℕ
  isPasswordExpired : ℕ
  oldUsername : Option String

/-- `is_local_user`, where `visible` is the policy on accounts of the chassis manager. -/
def isLocalUser (visible : Bool) : AccountType → Bool
  | .localUser | .oem => true
  | .interChassis => visible
  | _ => false

/-- `get_account_file_line`; the account is renamed if an old name is given. -/
def getAccountFileLine (s : State) (visible : Bool) (id : ℕ) (a : Account)
    (oldUsername : Option String) : AccountLine where
  userName := fileName a.data.userName
  password := a.data.password
  id := id
  role := a.data.roleId
  isLocalUser := isLocalUser visible a.data.accountType
  userEnabled := if a.data.enabled then 1 else 0
  privilegeNum := (RoleType.ofValue a.data.roleId).map fun r => (roleToPrivilege r).value
  isLocked := if a.data.locked then 1 else 0
  loginRuleIdsNum := a.data.loginRuleIds
  loginInterfaceNum := a.data.loginInterface
  isExcludeUser := if s.checkIsEmergencyUser id then 1 else 0
  isPasswordExpired := if a.data.passwordExpiration = 0 then 1 else 0
  oldUsername := oldUsername

/-- The IPMI entry that `prepare_user` makes. -/
def AccountLine.ipmiUser (l : AccountLine) : IpmiUser where
  userId := .num l.id
  userName := l.userName
  password := .text "x"
  userPasswordMaxLength := .num 1
  maxSessionCnt := .num 5
  isCallin := .num 0
  userEnabled := .num l.userEnabled
  authEnabled := .num 1
  ipmiMsgEnabled := .num 1
  isEnabledByPasswd := .num 0
  privilege0 := .num IpmiPrivilege.reserved.value
  privilege1 := (l.privilegeNum.map Value.num).getD .nil
  snmpPrivacyPassword := .text "x"
  isLocked := .num l.isLocked
  loginRuleIdsNum := .num l.loginRuleIdsNum
  loginInterfaceNum := .num l.loginInterfaceNum
  isExcludeUser := .num l.isExcludeUser
  isPasswordExpired := .num l.isPasswordExpired
  roleId := .num l.role

end Linux

end BmcAccount
