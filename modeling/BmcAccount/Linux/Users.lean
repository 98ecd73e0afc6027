import BmcAccount.Linux.Files

/-!
# The users of the operating system

`LinuxUserMgr` opens the four files together and adds, updates and removes users in them.
`file_synchronization` calls it whenever an account is added, changed or removed, and once a
minute for all accounts.

An operation that raises an error does so before it saves, so it leaves the files as they are.
-/

namespace BmcAccount

namespace Linux

open Keyed

/-! ## Groups of roles -/

/-- A role with the number and the name of its group. -/
structure RoleGroup where
  role : ℕ
  gid : ℕ
  name : String
deriving DecidableEq

/-- `role_group_map`. -/
def roleGroupMap : List RoleGroup :=
  [⟨4, 204, "admin"⟩, ⟨3, 200, "operator"⟩]
    ++ (List.range 16).map (fun n => ⟨5 + n, 200, "operator"⟩)
    ++ [⟨2, 201, "user"⟩, ⟨0, 202, "no_access"⟩]

/-- The group of a role. -/
def roleGroup (role : ℕ) : Option RoleGroup :=
  roleGroupMap.find? (·.role = role)

/-- `check_id_in_base_group` and `get_base_group_name`. -/
def baseGroupName (gid : ℕ) : Option String :=
  (roleGroupMap.find? (·.gid = gid)).map RoleGroup.name

/-- `APP_GID_NAME_MAP`. -/
def appGidName : ℕ → String
  | 0 => "root"
  | 74 => "sshd"
  | 95 => "snmpd_user"
  | 96 => "ipmi_user"
  | 97 => "kvm_user"
  | 98 => "apache"
  | 100 => "discovery_user"
  | 101 => "comm_user"
  | 102 => "redfish_user"
  | 103 => "apps"
  | 104 => "secbox"
  | 105 => "<tsb_user>"
  | 106 => "tpcm_device"
  | 200 => "operator"
  | 201 => "user"
  | 202 => "no_access"
  | 204 => "admin"
  | _ => ""

/-- The orders in which `pairs` visits the roles and the entries of a file. -/
structure Pairs where
  roleGroups : List RoleGroup
  roleGroups_perm : roleGroups.Perm roleGroupMap
  visit : List String → List String
  visit_perm : ∀ names, (visit names).Perm names

/-! ## Entries -/

/-- `HomeDir:get`. -/
def homeDir (username : String) : String :=
  "/data/trust/home/" ++ fileName username

/-- The entry of `passwd` that `prepare_user` makes. -/
def AccountLine.passwdUser (shell : String) (l : AccountLine) (g : RoleGroup) : PasswdUser where
  userName := l.userName
  userId := .num (linuxUserIdBase + l.id)
  groupId := .num g.gid
  gecos := g.name
  homeDir := homeDir l.userName
  shell := shell

/-- The entry of `shadow` that `prepare_user` makes. -/
def AccountLine.shadowUser (l : AccountLine) : ShadowUser where
  userName := l.userName
  password := l.password
  lastPwdChange := .text ""
  minimumor := .num 0
  maximumor := .num 99999
  warnor := .text ""
  inactiveor := .text ""
  expire := .text ""
  reserved := ""

/-- The entry of `passwd` of a user of the system. -/
def AppUser.passwdUser (u : AppUser) : PasswdUser :=
  let gid := u.gids.headD 0
  if u.name = "sshd" then
    ⟨u.name, .num u.uid, .num gid, "Privilege-separated SSH", "/var/run/sshd", "/sbin/nologin"⟩
  else ⟨u.name, .num u.uid, .num gid, appGidName gid, "/", "/sbin/nologin"⟩

/-! ## The user manager -/

/-- The lines of the four files. -/
structure Files where
  passwd : List Line
  shadow : List Line
  group : List GroupLine
  ipmi : List Line

/-- `LinuxUserMgr`: the four files. -/
structure LinuxUserMgr where
  passwdFile : LinuxFile passwdFile
  shadowFile : LinuxFile shadowFile
  groupFile : LinuxFile groupFile
  ipmiFile : LinuxFile ipmiUserFile

namespace LinuxUserMgr

/-- The user manager on the given files. -/
def new (files : Files) : LinuxUserMgr where
  passwdFile := .load _ files.passwd
  shadowFile := .load _ files.shadow
  groupFile := .load _ files.group
  ipmiFile := .load _ files.ipmi

/-- The files as they are now. -/
def files (la : LinuxUserMgr) : Files :=
  ⟨la.passwdFile.lines, la.shadowFile.lines, la.groupFile.lines, la.ipmiFile.lines⟩

/-- `LinuxUserMgr:save`. -/
def save (la : LinuxUserMgr) : LinuxUserMgr :=
  ⟨la.passwdFile.save, la.shadowFile.save, la.groupFile.save, la.ipmiFile.save⟩

/-- The files are saved at once if the manager is opened so. -/
def saveIf (isSave : Bool) (la : LinuxUserMgr) : LinuxUserMgr :=
  if isSave then la.save else la

variable (shell : String) (pairs : Pairs) (isSave : Bool)

/-- `LinuxUserMgr:add_user`. -/
def addUser (account : AccountLine) (la : LinuxUserMgr) : Option LinuxUserMgr :=
  (roleGroup account.role).map fun g =>
    saveIf isSave
      { passwdFile := la.passwdFile.addItem (account.passwdUser shell g) true
        shadowFile := la.shadowFile.addItem account.shadowUser true
        ipmiFile := la.ipmiFile.addItem account.ipmiUser true
        groupFile := la.groupFile.addUser account.userName g.gid g.name (baseGroupName g.gid) }

/-- A user leaves the groups of all roles. -/
def leaveGroups (username : String) (la : LinuxUserMgr) : LinuxUserMgr :=
  { la with
    groupFile := pairs.roleGroups.foldl (fun f g => f.removeUser username g.name) la.groupFile }

/-- `LinuxUserMgr:update_user`. -/
def updateUser (account : AccountLine) (la : LinuxUserMgr) : Option LinuxUserMgr :=
  ((la.leaveGroups pairs account.userName).addUser shell isSave account).map (saveIf isSave)

/-- An entry is deleted from the three files of users. -/
def deleteEntries (username : String) (la : LinuxUserMgr) : LinuxUserMgr :=
  { la with
    passwdFile := la.passwdFile.deleteDataByKey username
    shadowFile := la.shadowFile.deleteDataByKey username
    ipmiFile := la.ipmiFile.deleteDataByKey username }

/-- `LinuxUserMgr:remove_user` for a role. -/
def removeUser (username : String) (role : ℕ) (la : LinuxUserMgr) : Option LinuxUserMgr :=
  (roleGroup role).map fun g =>
    let la := la.deleteEntries username
    saveIf isSave { la with groupFile := la.groupFile.removeUser username g.name }

/-- `LinuxUserMgr:remove_user` without a role. -/
def removeUserOfAll (username : String) (la : LinuxUserMgr) : LinuxUserMgr :=
  saveIf isSave ((la.deleteEntries username).leaveGroups pairs username)

/-- `LinuxUserMgr:flush_ipmi_user_cfg`. -/
def flushIpmiUserCfg (user : IpmiUser) (la : LinuxUserMgr) : LinuxUserMgr :=
  let la := { la with ipmiFile := la.ipmiFile.addItem user true }
  if isSave then { la with ipmiFile := la.ipmiFile.save } else la

/-- A user of the system is added unless there is one of its name, and joins its groups. -/
def ensureAppUser (la : LinuxUserMgr) (u : AppUser) : LinuxUserMgr :=
  { la with
    passwdFile := la.passwdFile.addItem u.passwdUser false
    groupFile := u.gids.foldl
      (fun f gid => f.addUser u.name gid (appGidName gid) (baseGroupName gid)) la.groupFile }

/-- `LinuxUserMgr:ensure_system_base_user_exists`. -/
def ensureSystemBaseUserExists (la : LinuxUserMgr) : LinuxUserMgr :=
  appUsers.foldl ensureAppUser
    { la with
      groupFile := (pairs.roleGroups.foldl (fun f g => f.createGroup g.name g.gid)
        la.groupFile).createGroup "apps" 103 }

end LinuxUserMgr

/-! ## Synchronisation -/

/-- What `file_synchronization` knows: the accounts in the order in which `pairs` visits them,
the policies on the accounts of the chassis manager, the shell of users and the orders of other
tables. -/
structure World where
  state : State
  order : List ℕ
  order_nodup : order.Nodup
  mem_order : ∀ id, id ∈ order ↔ (state.accounts.lookup id).isSome = true
  visible : Bool
  interChassisEnabled : Bool
  shell : String
  pairs : Pairs

namespace World

variable (w : World)

/-- `get_account_file_line`, of an account that there is. -/
def accountLine (id : ℕ) (oldUsername : Option String) : Option AccountLine :=
  (w.state.accounts.lookup id).map fun a =>
    getAccountFileLine w.state w.visible id a oldUsername

/-- `file_synchronization:add_user`. -/
def addUser (id : ℕ) (files : Files) : Option LinuxUserMgr :=
  (w.accountLine id none).bind fun account =>
    (LinuxUserMgr.new files).addUser w.shell true account

/-- `file_synchronization:remove_user`. -/
def removeUser (id : ℕ) (files : Files) : Option LinuxUserMgr :=
  (w.accountLine id none).bind fun account =>
    (LinuxUserMgr.new files).removeUser true account.userName account.role

/-- `file_synchronization:update_user`: the old name is removed as it is given. -/
def updateUser (id : ℕ) (oldUsername : Option String) (files : Files) : Option LinuxUserMgr :=
  match oldUsername.filter (· ≠ "") with
  | some old =>
    (w.accountLine id (some old)).bind fun account =>
      ((LinuxUserMgr.new files).removeUser true old account.role).bind
        (LinuxUserMgr.updateUser w.shell w.pairs true account)
  | none =>
    (w.accountLine id none).bind fun account =>
      (LinuxUserMgr.new files).updateUser w.shell w.pairs true account

/-- `file_synchronization:flush_ipmi`. -/
def flushIpmi (id : ℕ) (files : Files) : Option LinuxUserMgr :=
  (w.accountLine id none).map fun account =>
    (LinuxUserMgr.new files).flushIpmiUserCfg true account.ipmiUser

/-- The account is kept in the files. -/
def isSynchronized (a : Account) : Bool :=
  match a.data.accountType with
  | .localUser | .oem => true
  | .interChassis => w.interChassisEnabled
  | _ => false

/-- The accounts that `flush_account` visits, in their order. -/
def flushed : List AccountLine :=
  w.order.filterMap fun id =>
    (w.state.accounts.lookup id).bind fun a =>
      if w.isSynchronized a then some (getAccountFileLine w.state w.visible id a none) else none

/-- The names of the keys of `user_map`. -/
def userMap : List String :=
  w.flushed.map AccountLine.userName

/-- `LINUX_USER_ID_MAX`. -/
def linuxUserIdMax : ℕ := 520

/-- The user identifiers of accounts. -/
def isAccountUid : Value → Bool
  | .num n => linuxUserIdBase < n && n < linuxUserIdMax
  | _ => false

/-- The first loop of `clean_abnormal_data`. An entry has a slot under its number and one under
its name; that removing an entry moves the numbers does not matter, since the slot under the
name is still visited. -/
def cleanPasswd (la : LinuxUserMgr) : LinuxUserMgr :=
  (w.pairs.visit (la.passwdFile.datas.entries.map PasswdUser.userName)).foldl
    (fun la name =>
      match la.passwdFile.get name with
      | none => la
      | some user =>
        if isAccountUid user.userId && name ∉ w.userMap then
          la.removeUserOfAll w.pairs false name
        else la) la

/-- The second loop of `clean_abnormal_data`. -/
def cleanIpmi (la : LinuxUserMgr) : LinuxUserMgr :=
  (w.pairs.visit (la.ipmiFile.datas.entries.map IpmiUser.userName)).foldl
    (fun la name =>
      match la.ipmiFile.get name with
      | none => la
      | some _ => if name ∉ w.userMap then la.removeUserOfAll w.pairs false name else la) la

/-- `file_synchronization:flush_account`. -/
def flushAccount (files : Files) : Option LinuxUserMgr :=
  let la := (LinuxUserMgr.new files).ensureSystemBaseUserExists w.pairs
  (w.flushed.foldlM (fun (la : LinuxUserMgr) account =>
      la.updateUser w.shell w.pairs false account) la).map
    fun la => (w.cleanIpmi (w.cleanPasswd la)).save

end World

end Linux

end BmcAccount
