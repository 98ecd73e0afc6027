import BmcAccount.Linux.Agreement
import BmcAccount.Linux.Pam
import BmcAccount.LoginRule.Agree

/-!
# The login module

The PAM module of the BMC lets a user log in over SSH, SFTP, telnet or the serial console. It
takes the user identifier from `passwd`, the data of the account from the file of IPMI users and
the login rules from their own file, so it sees the accounts only through what the account
service has written.

* `pam_sm_authenticate` checks the name, that the account is enabled, has a privilege and is not
  locked, and the login rules.
* `pam_sm_acct_mgmt` checks that the account may use the login interface.

Both let every user pass whose identifier is not one of an account.
-/

namespace BmcAccount

namespace Linux

open LoginRule LoginRule.CheckLoginRule LoginRule.LoginRuleCollection

namespace LoginModule

/-- The results of the module. -/
inductive PamRet where
  | success
  | serviceErr
  | authErr
  | permDenied
  | userUnknown
deriving DecidableEq

/-- `IMANA_OPTIONS`. -/
structure ImanaOptions where
  filename : Text
  failOnError : Bool
  quiet : Bool

/-- `DEFAULT_PRIVILEGE_FILE`. -/
def defaultPrivilegeFile : Text := "/data/trust/ipmi".toList

/-- The loop of `parse_args`, which also gives the options if an argument is refused. -/
def parseArgsLoop (opts : ImanaOptions) : List Text → ImanaOptions × Bool
  | [] => (opts, true)
  | arg :: args =>
    if "file=".toList <+: arg then
      if (arg.drop 5).head? = some '/' then parseArgsLoop { opts with filename := arg.drop 5 } args
      else (opts, false)
    else if arg = "onerr=fail".toList then parseArgsLoop { opts with failOnError := true } args
    else if arg = "onerr=succeed".toList then parseArgsLoop { opts with failOnError := false } args
    else if arg = "quiet".toList then parseArgsLoop { opts with quiet := true } args
    else parseArgsLoop opts args

/-- `parse_args`. -/
def parseArgs (args : List Text) : ImanaOptions × Bool :=
  parseArgsLoop { filename := defaultPrivilegeFile, failOnError := true, quiet := false } args

/-- What the module sees of the system: the lines of `passwd`, the files that can be read, the
file of login rules, and the `errno` that earlier calls have left. -/
structure System where
  passwd : List Line
  file : Text → Option Text
  loginRules : Text
  host : Host
  now : LocalTime
  errno : Bool

/-- A login: the arguments of the module and the items of the handle, where `none` is an item
that cannot be read. -/
structure Handle where
  args : List Text
  rhost : Option Text
  tty : Option Text
  user : String

/-- The module has the file of the account service and fails on errors. -/
structure Handle.Configured (h : Handle) : Prop where
  ok : (parseArgs h.args).2 = true
  filename : (parseArgs h.args).1.filename = defaultPrivilegeFile
  failOnError : (parseArgs h.args).1.failOnError = true

/-- The user identifier in a line of `passwd`. -/
def pwUid (l : Line) : Option ℕ :=
  (passwdFile.lineToData l).bind fun user =>
    match user.userId with
    | .num n => some n
    | _ => none

/-- `getpwnam`: the user identifier in the first line of a name that can be read. -/
def getpwnam (passwd : List Line) (user : String) : Option ℕ :=
  passwd.findSome? fun l => if l.name = user then pwUid l else none

/-- `pam_get_uid`. -/
def pamGetUid (sys : System) (h : Handle) : Except PamRet (ℕ × String) :=
  if h.user = "" then .error .authErr
  else
    match getpwnam sys.passwd (fileName h.user) with
    | none => .error .userUnknown
    | some uid => .ok (uid, fileName h.user)

/-- `IMANA_UID_BASE`. -/
def imanaUidBase : ℕ := 500

/-- `check_uid_is_local_user`. -/
def checkUidIsLocalUser (uid : ℕ) : Bool :=
  imanaUidBase + 1 < uid && uid ≤ imanaUidBase + 17
    || uid = imanaUidBase + 23
    || imanaUidBase + 101 ≤ uid && uid ≤ imanaUidBase + 115

/-- `get_ipmi_user`: an empty file has no user, and one that cannot be read is an error or has
an empty user. -/
def getIpmiUser (sys : System) (opts : ImanaOptions) (uid : ℤ) : Option IpmiUserS :=
  match sys.file opts.filename with
  | none => if opts.failOnError then none else some {}
  | some [] => none
  | some data => getUser sys.errno uid data

/-! ## Devices -/

/-- `FTP_NAME`, `SSH_NAME`, `TELNET_NAME` and `UART2_NAME`. -/
def ftpName : Text := "ftp".toList
def sshName : Text := "ssh".toList
def telnetName : Text := "/dev/pts".toList
def uart2Name : Text := "/dev/ttyS0".toList

/-- The bit of the login interface of a device, for the interfaces that are checked. -/
def interfaceOffset (tty : Text) : Option ℕ :=
  if tty = uart2Name then some 6
  else if tty = sshName then some 3
  else if tty = ftpName then some 4
  else if telnetName <:+: tty then some 5
  else none

/-! ## The checks -/

/-- `check_user_login_rule`. -/
def checkUserLoginRule (sys : System) (u : IpmiUserS) (ip tty : Text) : Ret :=
  if uart2Name <+: tty ∨ ftpName <+: tty then .ok
  else if u.userLoginRule = 0 then .ok
  else if u.isExcludeUser = 1 then .ok
  else checkSnmpv1v2LoginRule sys.host sys.now u.userLoginRule ip sys.loginRules

/-- `check_user`. -/
def checkUser (sys : System) (userName : String) (tty ip : Text) (u : IpmiUserS) : PamRet :=
  if u.userName ≠ userName.toList then .authErr
  else if u.userEnabled = 0 then .authErr
  else if u.privilege1 < 2 ∨ 4 < u.privilege1 then .authErr
  else if ¬ ftpName <+: tty ∧ u.userLockStatus = 1 then .permDenied
  else if checkUserLoginRule sys u ip tty ≠ .ok then .authErr
  else .success

/-- `check_user_login_interface`. -/
def checkUserLoginInterface (u : IpmiUserS) (tty : Text) : PamRet :=
  if u.isExcludeUser = 1 then .success
  else
    match interfaceOffset tty with
    | none => .success
    | some offset =>
      if (u.userLoginInterface &&& 1 <<< offset) >>> offset = 0 then .authErr else .success

/-- An error that the options can turn into a success. -/
def onError (opts : ImanaOptions) (r : PamRet) : PamRet :=
  if opts.failOnError then r else .success

/-- What both functions of the module do with the user of a login: one with the identifier of an
account is checked with what the file has under this number. -/
def checkLocalUser (sys : System) (opts : ImanaOptions) (h : Handle)
    (check : String → IpmiUserS → PamRet) : PamRet :=
  match pamGetUid sys h with
  | .error r => onError opts r
  | .ok (uid, user) =>
    if checkUidIsLocalUser uid = false then .success
    else
      match getIpmiUser sys opts (uid - imanaUidBase : ℕ) with
      | none => .userUnknown
      | some u => if check user u = .success then .success else .permDenied

/-- `pam_sm_authenticate`. -/
def pamSmAuthenticate (sys : System) (h : Handle) : PamRet :=
  let (opts, ok) := parseArgs h.args
  if ok = false then onError opts .serviceErr
  else
    match h.rhost, h.tty with
    | some ip, some tty => checkLocalUser sys opts h fun user => checkUser sys user tty ip
    | _, _ => .authErr

/-- `pam_sm_acct_mgmt`. -/
def pamSmAcctMgmt (sys : System) (h : Handle) : PamRet :=
  let (opts, ok) := parseArgs h.args
  if ok = false then onError opts .serviceErr
  else
    match h.tty with
    | none => .serviceErr
    | some tty => checkLocalUser sys opts h fun _ u => checkUserLoginInterface u tty

/-- Both functions let the user pass. -/
def LetsIn (sys : System) (h : Handle) : Prop :=
  pamSmAuthenticate sys h = .success ∧ pamSmAcctMgmt sys h = .success

/-! ## A user in `passwd` -/

/-- A user whose only line is read has its identifier. -/
theorem getpwnam_of_filter {passwd : List Line} {d : PasswdUser} {n : ℕ}
    (h : (passwd.filter (·.name = d.userName)).map passwdFile.lineToData = [some d])
    (hid : d.userId = .num n) :
  getpwnam passwd d.userName = some n
  := by
  have hfilter : ∀ ls : List Line, getpwnam ls d.userName
      = (ls.filter (·.name = d.userName)).findSome? pwUid := by
    intro ls
    induction ls with
    | nil => rfl
    | cons l ls ih =>
      by_cases hl : l.name = d.userName
      · rw [List.filter_cons_of_pos (by simpa using hl), List.findSome?_cons, ← ih, getpwnam,
          List.findSome?_cons, if_pos hl]
        rfl
      · rw [List.filter_cons_of_neg (by simpa using hl), ← ih, getpwnam, List.findSome?_cons,
          if_neg hl]
        rfl
  obtain ⟨l, hl, hd⟩ := List.map_eq_singleton_iff.mp h
  rw [hfilter, hl, List.findSome?_cons, pwUid, hd, Option.bind_some, hid]

/-! ## A user in the file of IPMI users -/

/-- The file has the line of every account, and no others. -/
theorem getUser_ipmiFile_eq {s : State} {visible errno : Bool} {accounts : List (ℕ × Account)}
    (hkept : ∀ e ∈ accounts, Kept e.1 e.2) (uid : ℕ) :
  getUser errno uid (ipmiFile s visible accounts)
    = (accounts.find? (·.1 = uid)).map fun e => readOf s e.1 e.2
  := by
  have hloop : getUserLoop uid errno
        (accounts.map fun e => (ipmiUserOf s visible e.1 e.2).dataToLine)
      = (accounts.find? (·.1 = uid)).map fun e => readOf s e.1 e.2 := by
    induction accounts with
    | nil => rfl
    | cons e rest ih =>
      rw [List.map_cons, getUserLoop_cons (hkept e List.mem_cons_self), List.find?_cons,
        ih fun e he => hkept e (List.mem_cons_of_mem _ he)]
      by_cases he : e.1 = uid <;> simp [he]
  cases accounts with
  | nil => rfl
  | cons e rest =>
    have hsplit : (ipmiFile s visible (e :: rest)).splitOn '\n'
        = (e :: rest).map fun e => (ipmiUserOf s visible e.1 e.2).dataToLine := by
      apply List.splitOn_intercalate
      · intro l hl
        obtain ⟨b, hb, rfl⟩ := List.mem_map.mp hl
        exact newline_dataToLine (hkept b hb)
      · exact List.cons_ne_nil _ _
    rw [getUser, hsplit, hloop]

/-! ## The decision about an account -/

/-- What decides about a login as an account: it is enabled, its role has access, it is not
locked, and the login rules let it in. SFTP ignores the lock, and neither SFTP nor the serial
console has login rules. A rule that straddles the year 2048 admits no login. -/
structure Admits {net : NetworkCore} (s : State) (c : LoginRuleCollection net) (host : Host)
    (now : LocalTime) (tty ip : Text) (id : ℕ) (a : Account) : Prop where
  enabled : a.data.enabled = true
  access : a.data.roleId ≠ RoleType.noAccess.value
  unlocked : ftpName <+: tty ∨ a.data.locked = false
  rules : (uart2Name <+: tty ∨ ftpName <+: tty) ∨ s.checkIsEmergencyUser id = true
    ∨ LetIn (Active c a.data.loginRuleIds) fun i =>
      (c.rule i).admits host now ip = true ∧ ¬ Straddles (c.rule i).mTimeRule.rule

/-- The account may use the login interface of a device, if it is one that is checked. -/
def MayUse (s : State) (tty : Text) (id : ℕ) (a : Account) : Prop :=
  s.checkIsEmergencyUser id = true
    ∨ ∀ offset ∈ interfaceOffset tty, a.data.loginInterface.testBit offset = true

/-- The masks of an account are integers of the service. -/
def IsInteger (a : Account) : Prop :=
  (a.data.loginRuleIds : ℤ) ≤ longMax ∧ (a.data.loginInterface : ℤ) ≤ longMax

theorem readByte_eq_mod {n : ℕ} (h : (n : ℤ) ≤ longMax) :
  readByte n = n % 256
  := by
  unfold readByte lowBits
  rw [if_neg (not_lt.mpr h)]
  omega

section Account

variable {net : NetworkCore} {c : LoginRuleCollection net} {order : List (Fin 3)} {sys : System}
  {s : State} {id : ℕ} {a : Account} {ip tty : Text}

theorem active_mod_iff (n : ℕ) (i : Fin 3) :
  Active c (n % 256) i ↔ Active c n i
  := by
  have hselected : selected (n % 256) i = selected n i := by
    have hmod : ∀ n : ℕ, n &&& 1 = n % 2 := fun n => Nat.and_one_is_mod n
    simp only [selected, hmod, Nat.shiftRight_eq_div_pow]
    fin_cases i <;> simp <;> omega
  unfold Active
  rw [hselected]

/-- The login rules, for the account that is read from its line. -/
theorem checkUserLoginRule_readOf_iff (hnet : net.Agrees) (horder : order.Perm (List.finRange 3))
    (hfile : sys.loginRules = c.getLines order)
    (hip : ¬ (uart2Name <+: tty ∨ ftpName <+: tty) → ValidIp ip ∧ sys.host.SameMac ip)
    (hint : IsInteger a) :
  checkUserLoginRule sys (readOf s id a) ip tty = .ok
    ↔ (uart2Name <+: tty ∨ ftpName <+: tty) ∨ s.checkIsEmergencyUser id = true
      ∨ LetIn (Active c a.data.loginRuleIds) fun i =>
        (c.rule i).admits sys.host sys.now ip = true ∧ ¬ Straddles (c.rule i).mTimeRule.rule
  := by
  have hactive : Active c (a.data.loginRuleIds % 256) = Active c a.data.loginRuleIds := by
    funext i
    exact propext (active_mod_iff _ i)
  have hexclude : (readOf s id a).isExcludeUser = 1 ↔ s.checkIsEmergencyUser id = true := by
    simp only [readOf]
    split <;> simp_all
  unfold checkUserLoginRule
  rw [hfile, show (readOf s id a).userLoginRule = a.data.loginRuleIds % 256 from
    readByte_eq_mod hint.1]
  split_ifs with hdevice hzero hemergency
  · exact iff_of_true rfl (Or.inl hdevice)
  · apply iff_of_true rfl
    right
    right
    right
    intro i hi
    rw [← hactive, hzero] at hi
    revert hi
    unfold Active selected
    fin_cases i <;> simp
  · exact iff_of_true rfl (Or.inr (Or.inl (hexclude.mp hemergency)))
  · rw [hexclude] at hemergency
    obtain ⟨hvalid, hmac⟩ := hip hdevice
    rw [checkSnmpv1v2LoginRule_eq_ok_iff hnet c horder hvalid hmac, hactive, or_iff_right hdevice,
      or_iff_right hemergency]

theorem privilege_readOf_iff (h : Kept id a) :
  ¬ ((readOf s id a).privilege1 < 2 ∨ 4 < (readOf s id a).privilege1)
    ↔ a.data.roleId ≠ RoleType.noAccess.value
  := by
  obtain ⟨r, hr⟩ := Option.isSome_iff_exists.mp h.role
  have hnoAccess : a.data.roleId = RoleType.noAccess.value ↔ r = .noAccess := by
    simp only [RoleType.ofValue] at hr
    simp only [RoleType.value]
    split_ifs at hr <;> simp_all <;> subst hr <;> simp
  have hvalue : (readOf s id a).privilege1 = readByte (roleToPrivilege r).value := by
    simp only [readOf, hr, Option.map_some, Option.getD_some]
  rw [Ne, hnoAccess, hvalue]
  cases r with
  | noAccess => decide
  | commonUser => decide
  | operator => decide
  | administrator => decide
  | customRole n => simp [roleToPrivilege, IpmiPrivilege.value, readByte_of_lt]

theorem checkUser_readOf_iff (hnet : net.Agrees) (horder : order.Perm (List.finRange 3))
    (hfile : sys.loginRules = c.getLines order)
    (hip : ¬ (uart2Name <+: tty ∨ ftpName <+: tty) → ValidIp ip ∧ sys.host.SameMac ip)
    (hint : IsInteger a) (h : Kept id a) (user : String) :
  checkUser sys user tty ip (readOf s id a) = .success
    ↔ fileName a.data.userName = user ∧ Admits s c sys.host sys.now tty ip id a
  := by
  have hname : (readOf s id a).userName = user.toList ↔ fileName a.data.userName = user :=
    String.toList_inj
  have henabled : (readOf s id a).userEnabled = 0 ↔ ¬ a.data.enabled = true := by
    simp only [readOf]
    split <;> simp_all
  have hlocked : (readOf s id a).userLockStatus = 1 ↔ a.data.locked = true := by
    simp only [readOf]
    split <;> simp_all
  have hrules := @checkUserLoginRule_readOf_iff net c order sys s id a ip tty hnet horder hfile
    hip hint
  have hprivilege := @privilege_readOf_iff s id a h
  unfold checkUser
  split_ifs with h₁ h₂ h₃ h₄ h₅
  · exact iff_of_false (by decide) fun hand => h₁ (hname.mpr hand.1)
  · exact iff_of_false (by decide) fun hand => henabled.mp h₂ hand.2.enabled
  · exact iff_of_false (by decide) fun hand => hprivilege.mpr hand.2.access h₃
  · apply iff_of_false (by decide)
    rintro ⟨-, hadmits⟩
    rcases hadmits.unlocked with hftp | hunlocked
    · exact h₄.1 hftp
    · exact absurd (hlocked.mp h₄.2) (Bool.eq_false_iff.mp hunlocked)
  · exact iff_of_false (by decide) fun hand => h₅ (hrules.mpr hand.2.rules)
  · refine iff_of_true rfl ⟨hname.mp (not_not.mp h₁), not_not.mp (henabled.not.mp h₂),
      hprivilege.mp h₃, ?_, hrules.mp (not_not.mp h₅)⟩
    by_cases hftp : ftpName <+: tty
    · exact Or.inl hftp
    · exact Or.inr (Bool.eq_false_iff.mpr fun hl => h₄ ⟨hftp, hlocked.mpr hl⟩)

/-- The login interface that a device needs, for the account that is read from its line. -/
theorem checkUserLoginInterface_readOf_iff (hint : IsInteger a) :
  checkUserLoginInterface (readOf s id a) tty = .success
    ↔ MayUse s tty id a
  := by
  have hexclude : (readOf s id a).isExcludeUser = 1 ↔ s.checkIsEmergencyUser id = true := by
    simp only [readOf]
    split <;> simp_all
  have hlt : ∀ offset ∈ interfaceOffset tty, offset < 8 := by
    intro offset hoffset
    simp only [interfaceOffset] at hoffset
    split_ifs at hoffset <;> simp_all <;> omega
  unfold checkUserLoginInterface MayUse
  split_ifs with hemergency
  · exact iff_of_true rfl (Or.inl (hexclude.mp hemergency))
  · rw [or_iff_right (hexclude.not.mp hemergency)]
    cases hoffset : interfaceOffset tty with
    | none => simp
    | some offset =>
      have hbit : (readOf s id a).userLoginInterface &&& 1 <<< offset
          = if a.data.loginInterface.testBit offset then 2 ^ offset else 0 := by
        rw [Nat.one_shiftLeft, Nat.and_two_pow, show (readOf s id a).userLoginInterface
          = a.data.loginInterface % 2 ^ 8 from readByte_eq_mod hint.2, Nat.testBit_mod_two_pow,
          decide_eq_true (hlt offset hoffset), Bool.true_and]
        cases a.data.loginInterface.testBit offset <;> simp
      simp only [hbit, Option.mem_some_iff, forall_eq']
      by_cases htest : a.data.loginInterface.testBit offset = true
      · simp [htest, Nat.shiftRight_eq_div_pow]
      · simp [htest]

end Account

end LoginModule

namespace World

open LoginModule

/-- The accounts that are kept in the files, with their numbers. -/
def keptAccounts (w : World) : List (ℕ × Account) :=
  w.order.filterMap fun id =>
    (w.state.accounts.lookup id).bind fun a => if w.isSynchronized a then some (id, a) else none

/-- The text of a file. -/
def fileText (lines : List Line) : Text :=
  ['\n'].intercalate (lines.map [':'].intercalate)

/-- The system after a flush, when the login rules have been written too. -/
def flushedSystem {net : NetworkCore} (w : World) (files : Files) (c : LoginRuleCollection net)
    (order : List (Fin 3)) (host : Host) (now : LocalTime) (errno : Bool) : System where
  passwd := (w.flush files).passwd
  file path :=
    if path = defaultPrivilegeFile then some (fileText (w.flush files).ipmi) else none
  loginRules := c.getLines order
  host := host
  now := now
  errno := errno

variable {w : World} {files : Files}

theorem flushed_eq :
  w.flushed = w.keptAccounts.map fun e => getAccountFileLine w.state w.visible e.1 e.2 none
  := by
  rw [flushed, keptAccounts, List.map_filterMap]
  congr 1
  funext id
  cases w.state.accounts.lookup id with
  | none => rfl
  | some a =>
    simp only [Option.bind_some]
    split <;> rfl

theorem mem_flushed {e : ℕ × Account} (he : e ∈ w.keptAccounts) :
  getAccountFileLine w.state w.visible e.1 e.2 none ∈ w.flushed
  :=
  flushed_eq ▸ List.mem_map_of_mem he

/-- The number of an account is that of one account only. -/
theorem find_keptAccounts {e : ℕ × Account} (he : e ∈ w.keptAccounts) :
  w.keptAccounts.find? (·.1 = e.1) = some e
  := by
  have hlookup : ∀ e ∈ w.keptAccounts, w.state.accounts.lookup e.1 = some e.2 := by
    intro e he
    obtain ⟨id, -, hsome⟩ := List.mem_filterMap.mp he
    obtain ⟨a, ha, hif⟩ := Option.bind_eq_some_iff.mp hsome
    split at hif
    · obtain rfl := Option.some.inj hif
      exact ha
    · exact absurd hif (Option.some_ne_none e).symm
  cases hfind : w.keptAccounts.find? (·.1 = e.1) with
  | none => simpa using List.find?_eq_none.mp hfind e he
  | some d =>
    have hid : d.1 = e.1 := by simpa using List.find?_some hfind
    have hd := hlookup d (List.mem_of_find?_eq_some hfind)
    rw [hid, hlookup e he] at hd
    exact congrArg some (Prod.ext hid (Option.some.inj hd).symm)

theorem mem_userMap_iff {k : String} :
  k ∈ w.userMap ↔ ∃ e ∈ w.keptAccounts, fileName e.2.data.userName = k
  := by
  rw [userMap, flushed_eq, List.map_map, List.mem_map]
  rfl

/-- The text that the login module reads. -/
theorem fileText_ipmi_flush (hwf : files.WellFormed) (hread : w.Readable files) :
  fileText (w.flush files).ipmi = ipmiFile w.state w.visible w.keptAccounts
  := by
  obtain ⟨ls, hls⟩ := mapM_withGroup_iff.mpr hread.roles
  rw [ipmi_flush hls hread.names hwf.ipmi, ipmiUsers, flushed_eq, fileText, ipmiFile, List.map_map,
    List.map_map, List.map_map]
  rfl

/-- An account has its identifier in `passwd`. -/
theorem getpwnam_flush (hwf : files.WellFormed) (hread : w.Readable files) {e : ℕ × Account}
    (he : e ∈ w.keptAccounts) :
  getpwnam (w.flush files).passwd (fileName e.2.data.userName) = some (imanaUidBase + e.1)
  := by
  obtain ⟨g, -, hline⟩ := (agrees_flush hwf hread).passwd _ (mem_flushed he)
  exact getpwnam_of_filter (d := (getAccountFileLine w.state w.visible e.1 e.2 none).passwdUser
    w.shell g) hline rfl

/-! ## The decision about a login -/

/-- The accounts are as the service keeps them. -/
def WellKept (w : World) : Prop :=
  ∀ e ∈ w.keptAccounts, Kept e.1 e.2 ∧ IsInteger e.2

theorem checkUidIsLocalUser_of_kept {id : ℕ} {a : Account} (h : Kept id a) :
  checkUidIsLocalUser (imanaUidBase + id) = true
  := by
  have hrange := h.id_range
  unfold minUserNum maxUserNum interChassisAccountId at hrange
  simp only [checkUidIsLocalUser, Bool.or_eq_true, Bool.and_eq_true, decide_eq_true_eq]
  unfold imanaUidBase
  omega

section Login

variable {net : NetworkCore} {c : LoginRuleCollection net} {order : List (Fin 3)} {host : Host}
  {now : LocalTime} {errno : Bool} {opts : ImanaOptions}

/-- The module finds an account by its number. -/
theorem getIpmiUser_flush (hwf : files.WellFormed) (hread : w.Readable files) (hkept : w.WellKept)
    (hfile : opts.filename = defaultPrivilegeFile) (uid : ℕ) :
  getIpmiUser (w.flushedSystem files c order host now errno) opts uid
    = (w.keptAccounts.find? (·.1 = uid)).map fun e => readOf w.state e.1 e.2
  := by
  have hdata := fileText_ipmi_flush hwf hread
  have huser := @getUser_ipmiFile_eq w.state w.visible errno w.keptAccounts
    (fun e he => (hkept e he).1) uid
  rw [← hdata] at huser
  simp only [getIpmiUser, flushedSystem, hfile, if_true]
  cases htext : fileText (w.flush files).ipmi with
  | nil =>
    rw [htext] at huser
    rw [← huser]
    rfl
  | cons t ts =>
    rw [htext] at huser
    exact huser

variable {h : Handle} {ip tty : Text}

/-- The user has an identifier that is not one of an account. -/
def PassesBy (w : World) (files : Files) (user : String) : Prop :=
  user ≠ "" ∧ fileName user ∉ w.userMap
    ∧ ∃ uid, getpwnam (w.flush files).passwd (fileName user) = some uid
      ∧ checkUidIsLocalUser uid = false

/-- A user who has an account is checked with its data. -/
theorem checkLocalUser_flush (hwf : files.WellFormed) (hread : w.Readable files)
    (hkept : w.WellKept) (hfile : opts.filename = defaultPrivilegeFile) {e : ℕ × Account}
    (he : e ∈ w.keptAccounts) (huser : fileName e.2.data.userName = fileName h.user)
    (check : String → IpmiUserS → PamRet) :
  checkLocalUser (w.flushedSystem files c order host now errno) opts h check = .success
    ↔ check (fileName h.user) (readOf w.state e.1 e.2) = .success
  := by
  have hne : h.user ≠ "" := by
    intro hempty
    have hname := (hkept e he).1.name
    rw [hempty] at huser
    unfold fileName at huser
    split at huser
    case isTrue => exact absurd huser (by decide)
    case isFalse =>
      rw [huser] at hname
      exact absurd hname (by decide)
  have hget := getpwnam_flush hwf hread he
  rw [huser] at hget
  have huid : pamGetUid (w.flushedSystem files c order host now errno) h
      = .ok (imanaUidBase + e.1, fileName h.user) := by
    unfold pamGetUid
    rw [if_neg hne, flushedSystem, hget]
  simp only [checkLocalUser, huid, checkUidIsLocalUser_of_kept (hkept e he).1,
    Bool.true_eq_false, if_false, Nat.add_sub_cancel_left,
    getIpmiUser_flush hwf hread hkept hfile, find_keptAccounts he, Option.map_some]
  split_ifs with hcheck <;> simp [hcheck]

/-- A user whose identifier is not one of an account passes. -/
theorem checkLocalUser_of_passesBy (hpasses : w.PassesBy files h.user)
    (check : String → IpmiUserS → PamRet) :
  checkLocalUser (w.flushedSystem files c order host now errno) opts h check = .success
  := by
  obtain ⟨hne, -, uid, hget, hlocal⟩ := hpasses
  have huid : pamGetUid (w.flushedSystem files c order host now errno) h
      = .ok (uid, fileName h.user) := by
    unfold pamGetUid
    rw [if_neg hne, flushedSystem, hget]
  simp only [checkLocalUser, huid, hlocal, if_true]

/-- A user without an account does not pass in another way, if the check looks at the name. -/
theorem passesBy_of_checkLocalUser (hwf : files.WellFormed) (hread : w.Readable files)
    (hkept : w.WellKept) (hfile : opts.filename = defaultPrivilegeFile)
    (hfail : opts.failOnError = true) (huser : fileName h.user ∉ w.userMap)
    {check : String → IpmiUserS → PamRet}
    (hcheck : ∀ e ∈ w.keptAccounts, check (fileName h.user) (readOf w.state e.1 e.2) = .success →
      fileName e.2.data.userName = fileName h.user)
    (hsuccess : checkLocalUser (w.flushedSystem files c order host now errno) opts h check
      = .success) :
  w.PassesBy files h.user
  := by
  have hne : h.user ≠ "" := by
    intro hempty
    simp [checkLocalUser, pamGetUid, hempty, onError, hfail] at hsuccess
  cases hget : getpwnam (w.flush files).passwd (fileName h.user) with
  | none => simp [checkLocalUser, pamGetUid, hne, flushedSystem, hget, onError, hfail] at hsuccess
  | some uid =>
    have huid : pamGetUid (w.flushedSystem files c order host now errno) h
        = .ok (uid, fileName h.user) := by
      unfold pamGetUid
      rw [if_neg hne, flushedSystem, hget]
    refine ⟨hne, huser, uid, hget, ?_⟩
    simp only [checkLocalUser, huid] at hsuccess
    split_ifs at hsuccess with hlocal
    · exact hlocal
    · rw [getIpmiUser_flush hwf hread hkept hfile] at hsuccess
      cases hfind : w.keptAccounts.find? (·.1 = uid - imanaUidBase) with
      | none => simp [hfind] at hsuccess
      | some e =>
        have he := List.mem_of_find?_eq_some hfind
        have hnot : check (fileName h.user) (readOf w.state e.1 e.2) ≠ .success := by
          intro hsuccess
          exact huser (mem_userMap_iff.mpr ⟨e, he, hcheck e he hsuccess⟩)
        simp [hfind, hnot] at hsuccess

section Configured

variable (hwf : files.WellFormed) (hread : w.Readable files) (hkept : w.WellKept)
  (hnet : net.Agrees) (horder : order.Perm (List.finRange 3)) (hconf : h.Configured)
  (hrhost : h.rhost = some ip) (htty : h.tty = some tty)
  (hip : ¬ (uart2Name <+: tty ∨ ftpName <+: tty) → ValidIp ip ∧ host.SameMac ip)

include hconf hrhost htty in
/-- The two functions are two checks of the same user. -/
theorem letsIn_iff_checkLocalUser (sys : System) :
  LetsIn sys h
    ↔ checkLocalUser sys (parseArgs h.args).1 h (fun user => checkUser sys user tty ip) = .success
      ∧ checkLocalUser sys (parseArgs h.args).1 h (fun _ u => checkUserLoginInterface u tty)
        = .success
  := by
  have hok := hconf.ok
  unfold LetsIn pamSmAuthenticate pamSmAcctMgmt
  cases hargs : parseArgs h.args with
  | mk opts ok =>
    rw [hargs] at hok
    obtain rfl : ok = true := hok
    simp only [hrhost, htty, Bool.true_eq_false, if_false]

include hwf hread hkept hnet horder hconf hrhost htty hip in
/-- The decision about a user who has an account. -/
theorem letsIn_account_iff {e : ℕ × Account} (he : e ∈ w.keptAccounts)
    (huser : fileName e.2.data.userName = fileName h.user) :
  LetsIn (w.flushedSystem files c order host now errno) h
    ↔ Admits w.state c host now tty ip e.1 e.2 ∧ MayUse w.state tty e.1 e.2
  := by
  rw [letsIn_iff_checkLocalUser hconf hrhost htty,
    checkLocalUser_flush hwf hread hkept hconf.filename he huser,
    checkLocalUser_flush hwf hread hkept hconf.filename he huser,
    checkUser_readOf_iff hnet horder rfl hip (hkept e he).2 (hkept e he).1,
    checkUserLoginInterface_readOf_iff (hkept e he).2]
  exact and_congr_left fun _ => and_iff_right huser

include hwf hread hkept hnet horder hconf hrhost htty hip in
/-- A user without an account is let in only if nothing is checked. -/
theorem passesBy_of_letsIn (huser : fileName h.user ∉ w.userMap)
    (hletsIn : LetsIn (w.flushedSystem files c order host now errno) h) :
  w.PassesBy files h.user
  := by
  rw [letsIn_iff_checkLocalUser hconf hrhost htty] at hletsIn
  apply passesBy_of_checkLocalUser hwf hread hkept hconf.filename hconf.failOnError huser _
    hletsIn.1
  intro e he hsuccess
  exact ((checkUser_readOf_iff hnet horder rfl hip (hkept e he).2 (hkept e he).1 _).mp hsuccess).1

end Configured

/-- The login module lets in exactly the users of whom the accounts say so, and those whose
identifier is not one of an account. -/
theorem letsIn_flush_iff (hwf : files.WellFormed) (hread : w.Readable files) (hkept : w.WellKept)
    (hnet : net.Agrees) (horder : order.Perm (List.finRange 3)) (hconf : h.Configured)
    (hrhost : h.rhost = some ip) (htty : h.tty = some tty)
    (hip : ¬ (uart2Name <+: tty ∨ ftpName <+: tty) → ValidIp ip ∧ host.SameMac ip) :
  LetsIn (w.flushedSystem files c order host now errno) h
    ↔ (∃ e ∈ w.keptAccounts, fileName e.2.data.userName = fileName h.user
        ∧ Admits w.state c host now tty ip e.1 e.2 ∧ MayUse w.state tty e.1 e.2)
      ∨ w.PassesBy files h.user
  := by
  constructor
  · intro hletsIn
    by_cases huser : fileName h.user ∈ w.userMap
    · obtain ⟨e, he, hname⟩ := mem_userMap_iff.mp huser
      rw [letsIn_account_iff hwf hread hkept hnet horder hconf hrhost htty hip he hname] at hletsIn
      exact Or.inl ⟨e, he, hname, hletsIn⟩
    · exact Or.inr (passesBy_of_letsIn hwf hread hkept hnet horder hconf hrhost htty hip huser
        hletsIn)
  · rintro (⟨e, he, hname, hadmits⟩ | hpasses)
    · exact (letsIn_account_iff hwf hread hkept hnet horder hconf hrhost htty hip he hname).mpr
        hadmits
    · rw [letsIn_iff_checkLocalUser hconf hrhost htty]
      exact ⟨checkLocalUser_of_passesBy hpasses _, checkLocalUser_of_passesBy hpasses _⟩

/-- A login over SSH. -/
def sshHandle (user : String) : Handle where
  args := ["file=/data/trust/ipmi".toList]
  rhost := some clientIp
  tty := some sshName
  user := user

theorem configured_sshHandle (user : String) :
  (sshHandle user).Configured
  := by
  constructor <;> rfl

theorem keptAccounts_plainWorld :
  (plainWorld "alice").keptAccounts = [(2, plainAccount "alice" 4 223)]
  := by
  rfl

theorem wellKept_plainWorld :
  (plainWorld "alice").WellKept
  := by
  intro e he
  rw [keptAccounts_plainWorld] at he
  obtain rfl := List.mem_singleton.mp he
  exact ⟨⟨by decide, by decide, by decide⟩, by decide, by decide⟩

theorem letsIn_flush_rootFiles :
  LetsIn ((plainWorld "alice").flushedSystem rootFiles straddlingTable [0, 1, 2] bmcHost june2047
    false) (sshHandle "alice")
  := by
  apply (letsIn_flush_iff wellFormed_rootFiles readable_rootFiles wellKept_plainWorld
    ⟨fun _ => rfl, fun _ => rfl⟩ (by decide) (configured_sshHandle "alice") rfl rfl
    fun _ => ⟨Or.inl (by decide), by decide, by decide, by decide⟩).mpr
  left
  refine ⟨(2, plainAccount "alice" 4 223), ?_, rfl, ⟨rfl, by decide, Or.inr rfl, ?_⟩, ?_⟩
  · rw [keptAccounts_plainWorld]
    exact List.mem_singleton_self _
  · right
    right
    right
    decide
  · right
    decide

end Login

end World

end Linux

end BmcAccount
