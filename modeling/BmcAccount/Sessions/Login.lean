import BmcAccount.Account.Authentication
import BmcAccount.Ldap.Authorise

/-!
# The authentication for a session

A login names a domain, which together with the configured mode says who is to be asked: the
account component, one LDAP controller, or each controller in turn. Whoever accepts first
decides on the user name that the session is to have. For a local account it is the name that
was typed. An LDAP controller is asked for the part before the last at sign if the rest is its
domain, and then the name is again the one that was typed; but when it is asked for the whole
of what was typed, its domain is appended.
-/

namespace BmcAccount

namespace Sessions

open Raise

/-! ## Who is asked -/

/-- `AuthType`. -/
inductive AuthType where
  | localUser
  | ldapAutoMatch
  | ldapServer1
  | ldapServer2
  | ldapServer3
  | ldapServer4
  | ldapServer5
  | ldapServer6
  | ldapKerberosSso
  | kerberosServer
  | ssoLocal
  | ssoLdap
  | skipAuth
  | autoMatch
deriving DecidableEq

/-- The value of an authentication type. -/
def AuthType.value : AuthType → ℕ
  | .localUser => 0
  | .ldapAutoMatch => 1
  | .ldapServer1 => 2
  | .ldapServer2 => 3
  | .ldapServer3 => 4
  | .ldapServer4 => 5
  | .ldapServer5 => 6
  | .ldapServer6 => 7
  | .ldapKerberosSso => 12
  | .kerberosServer => 13
  | .ssoLocal => 14
  | .ssoLdap => 15
  | .skipAuth => 16
  | .autoMatch => 255

/-- The type of a controller. -/
def AuthType.ofController : ℕ → Option AuthType
  | 1 => some .ldapServer1
  | 2 => some .ldapServer2
  | 3 => some .ldapServer3
  | 4 => some .ldapServer4
  | 5 => some .ldapServer5
  | 6 => some .ldapServer6
  | _ => none

/-- The authentication is by LDAP. -/
def AuthType.isLdap (t : AuthType) : Bool :=
  AuthType.ldapAutoMatch.value ≤ t.value && t.value ≤ AuthType.ldapServer6.value

/-- `LocalAccountAuth`. -/
inductive AuthMode where
  | disabled
  | enabled
  | fallback
  | localFirst
deriving DecidableEq

/-- What a refused login says. -/
inductive LoginErr where
  | authorizationFailed
  | noAccess
  | passwordExpired
  | userLoginRestricted
  | userLocked
  | propertyValueNotInList
  | internal
deriving DecidableEq

/-- `ERROR_PRIORITY`. -/
def LoginErr.priority : LoginErr → ℕ
  | .authorizationFailed => 1
  | .noAccess => 2
  | .passwordExpired => 3
  | .userLoginRestricted => 4
  | .userLocked => 5
  | _ => 0

/-- `get_best_match_error`. -/
def getBestMatchError (errInfo : List LoginErr) : LoginErr :=
  match errInfo.foldl (fun best e => if best.elim 0 LoginErr.priority < e.priority then some e
      else best) none with
  | some e => e
  | none => errInfo.getLast?.getD .internal

/-- The controller and the mask of the inner identifiers of the groups that an LDAP user is
in. -/
structure RemoteDict where
  controllerId : ℕ
  controllerInnerId : ℕ
deriving DecidableEq

/-- What an authentication returns, and what a session is made from. -/
structure AccountInfo where
  userName : String
  id : ℤ
  lastLoginIp : String
  lastLoginTime : ℕ
  roleId : List ℕ
  currentPrivileges : Option (List PrivilegeType)
  /-- `ControllerId` and `ControllerInnerId`. -/
  group : Option RemoteDict
deriving DecidableEq

/-! ## LDAP -/

/-- An LDAP controller. -/
structure Controller where
  hostAddr : String
  userDomain : String

/-- `check_ldap_controller_valid`. -/
def Controller.isValid (c : Controller) : Bool := c.hostAddr ≠ "" && c.userDomain ≠ ""

/-- The configuration of LDAP, the directory servers and the remote groups. -/
structure LdapEnv (Dn : Type) where
  enabled : Bool
  controllers : ℕ → Option Controller
  server : Ldap.Server Dn
  groups : Ldap.RemoteGroups
  rules : ℕ → String → Bool
  /-- `uip_alloc_ldap_uid`. -/
  allocUid : ℤ

/-- `LDAP_USER_GID`. -/
def ldapUserGid : ℤ := 1000

/-- `MAX_LDAP_COUNT`. -/
def maxLdapCount : ℕ := 6

/-- `strncpy_s` into a buffer for a user name: what does not fit is dropped. -/
def copyName (t : String) : String :=
  if t.utf8ByteSize < 255 then t else ""

/-- `check_username_divide_by_domain`: the parts before and after the last at sign, if there is
something after it. -/
def checkUsernameDivideByDomain (userName : String) : Option (String × String) :=
  let reversed := userName.toList.reverse
  match reversed.takeWhile (· ≠ '@'), reversed.dropWhile (· ≠ '@') with
  | [], _ => none
  | _, [] => none
  | domain, _ :: user =>
    some (copyName (String.ofList user.reverse), copyName (String.ofList domain.reverse))

/-- `check_ldap_ret_error`. -/
def checkLdapRetError (ret : Option ℕ) : LoginErr :=
  if ret = some Ldap.userLoginLimited then .userLoginRestricted
  else if ret = some Ldap.userNoAccess then .noAccess
  else .authorizationFailed

section Ldap

variable {Dn : Type}

/-- The account of a user whom a controller has accepted. -/
def LdapEnv.account (l : LdapEnv Dn) (interface : Option LoginInterface) (serverId : ℕ)
    (name : String) (roles : List ℕ) (innerIds : ℕ) : AccountInfo where
  userName := name
  id := if interface = some .ssh then l.allocUid else ldapUserGid
  lastLoginIp := ""
  lastLoginTime := 0
  roleId := roles
  currentPrivileges := none
  group := some ⟨serverId, innerIds⟩

/-- `authenticate` with a controller. A user who is accepted has the given name, and one who
is not has a code. -/
def LdapEnv.authenticate (l : LdapEnv Dn) (user password : String) (serverId : ℕ)
    (c : Controller) (ip : String) (interface : Option LoginInterface) (name : String) :
    Except LoginErr (Except (Option ℕ) AccountInfo) :=
  match Ldap.authenticate l.server l.groups l.rules serverId c.userDomain user password (some ip)
      (interface.map LoginInterface.value) with
  | none => .error .internal
  | some (.groups 0 _ roles innerIds) => .ok (.ok (l.account interface serverId name roles innerIds))
  | some (.groups ret _ _ _) => .ok (.error (some ret))
  | some (.code ret) => .ok (.error (some ret))

/-- The name with the domain of a controller. -/
def Controller.qualify (c : Controller) (userName : String) : String :=
  userName ++ "@" ++ c.userDomain

/-- A controller is asked for the part of the name before its domain, if that is what the name
ends with. -/
def LdapEnv.askDivided (l : LdapEnv Dn) (userName password ip : String)
    (interface : Option LoginInterface) (serverId : ℕ) (c : Controller) :
    Except LoginErr (Except (Option ℕ) AccountInfo) :=
  match checkUsernameDivideByDomain userName with
  | some (user, domain) =>
    if domain = c.userDomain then l.authenticate user password serverId c ip interface userName
    else .ok (.error none)
  | none => .ok (.error none)

/-- `ldap_authenticate`. -/
def LdapEnv.ldapAuthenticate (l : LdapEnv Dn) (userName password ip : String)
    (interface : Option LoginInterface) (serverId : ℕ) : Except LoginErr AccountInfo := do
  if !l.enabled then throw .authorizationFailed
  match l.controllers serverId with
  | none => throw .internal
  | some c =>
    match ← l.askDivided userName password ip interface serverId c with
    | .ok info => pure info
    | .error _ =>
      match ← l.authenticate userName password serverId c ip interface (c.qualify userName) with
      | .ok info => pure info
      | .error ret => throw (checkLdapRetError ret)

/-- The answer of the first controller that accepts, or the last code. -/
def firstAccepted {α : Type} (ask : ℕ → Except LoginErr (Except (Option ℕ) α)) :
    List ℕ → Option ℕ → Except LoginErr (Except (Option ℕ) α)
  | [], ret => .ok (.error ret)
  | i :: l, ret => do
    match ← ask i with
    | .ok a => pure (.ok a)
    | .error ret' => firstAccepted ask l (ret'.or ret)

/-- A controller of the domain is asked for a name without the domain. -/
def LdapEnv.askDomain (l : LdapEnv Dn) (userName password ip : String)
    (interface : Option LoginInterface) (user domain : String) (i : ℕ) :
    Except LoginErr (Except (Option ℕ) AccountInfo) :=
  match (l.controllers i).filter fun c => c.userDomain = domain with
  | none => .ok (.error none)
  | some c => l.authenticate user password i c ip interface userName

/-- A controller is asked for the whole name. -/
def LdapEnv.askWhole (l : LdapEnv Dn) (userName password ip : String)
    (interface : Option LoginInterface) (i : ℕ) :
    Except LoginErr (Except (Option ℕ) AccountInfo) :=
  match l.controllers i with
  | none => .error .internal
  | some c =>
    if c.isValid then l.authenticate userName password i c ip interface (c.qualify userName)
    else .ok (.error none)

/-- The controllers of the domain that the name ends with are asked. -/
def LdapEnv.askDomains (l : LdapEnv Dn) (userName password ip : String)
    (interface : Option LoginInterface) : Except LoginErr (Except (Option ℕ) AccountInfo) :=
  match checkUsernameDivideByDomain userName with
  | some (user, domain) =>
    firstAccepted (l.askDomain userName password ip interface user domain)
      (List.range' 1 maxLdapCount) none
  | none => .ok (.error none)

/-- `ldap_authenticate_auto_match`. -/
def LdapEnv.ldapAuthenticateAutoMatch (l : LdapEnv Dn) (userName password ip : String)
    (interface : Option LoginInterface) : Except LoginErr AccountInfo := do
  if !l.enabled then throw .authorizationFailed
  match ← l.askDomains userName password ip interface with
  | .ok info => pure info
  | .error ret =>
    match ← firstAccepted (l.askWhole userName password ip interface)
        (List.range' 1 maxLdapCount) ret with
    | .ok info => pure info
    | .error ret => throw (checkLdapRetError ret)

end Ldap

/-! ## The account component -/

/-- The name of a login interface. -/
def interfaceName : LoginInterface → String
  | .invalid => "Invalid"
  | .web => "Web"
  | .snmp => "SNMP"
  | .ipmi => "IPMI"
  | .ssh => "SSH"
  | .sftp => "SFTP"
  | .console => "Local"
  | .redfish => "Redfish"
  | .unset => "default"

/-- What the local authentication sees: the account component, the order in which it goes
through its accounts, and whether a name is refused because it is locked out or because its
account is not to be seen. -/
structure LocalEnv where
  auth : AuthEnv
  order : List ℕ
  accounts : State
  refuses : String → Bool

/-- The message of a refusal of the account component. -/
def loginErr : Reason → LoginErr
  | .locked => .userLocked
  | .loginRule => .userLoginRestricted
  | .loginInterface | .noAccess => .noAccess
  | .passwordExpired => .passwordExpired
  | .internal => .internal
  | _ => .authorizationFailed

/-- `package_account_info`, with the numbers converted back. -/
def packageAccountInfo (id : ℕ) (a : Account) : AccountInfo where
  userName := a.data.userName
  id := id
  lastLoginIp := a.tmpLastLogin.lastLoginIP.getD a.data.lastLoginIP
  lastLoginTime := a.tmpLastLogin.lastLoginTime.getD a.data.lastLoginTime
  roleId := [a.data.roleId]
  currentPrivileges := some a.currentPrivileges
  group := none

/-- `local_authenticate`. -/
def LocalEnv.localAuthenticate (l : LocalEnv) (userName password ip : String)
    (interface : Option LoginInterface) : Except LoginErr AccountInfo :=
  if l.refuses userName then .error .authorizationFailed
  else
    match (exec (authenticate l.auth l.order ⟨some ip, interface.map interfaceName⟩ userName
        password ⟨true, true, true⟩) l.accounts).1 with
    | .ok (id, a) => .ok (packageAccountInfo id a)
    | .error e => .error (loginErr e)

/-! ## The login -/

/-- What a login sees. -/
structure LoginEnv (Dn : Type) where
  mode : AuthMode
  ldap : LdapEnv Dn
  component : LocalEnv
  /-- `check_ip_locked`. -/
  ipLocked : String → Bool

/-- The types of sessions. -/
inductive SessionType where
  | gui
  | redfish
  | sso
  | kvm
  | vnc
  | video
deriving DecidableEq

/-- `IP_LOCK_INTERFACE`. -/
def ipLockInterface : String → Bool
  | "WEB" | "Redfish" | "IPMI" => true
  | _ => false

/-- `parse_login_interface`. -/
def parseLoginInterface (sessionType : SessionType) (loginInterface : String) :
    Option LoginInterface :=
  match sessionType with
  | .sso => some .web
  | .gui | .redfish =>
    [.invalid, .web, .snmp, .ipmi, .ssh, .sftp, .console, .redfish].find? fun i =>
      (interfaceName i).toUpper = loginInterface.toUpper
  | _ => none

section Login

variable {Dn : Type}

/-- `get_auth_type_by_domain`. -/
def LoginEnv.getAuthTypeByDomain (w : LoginEnv Dn) (domain : String) : List AuthType :=
  match if domain = "" then "AutomaticMatching" else domain with
  | "LocaliBMC" =>
    match w.mode with
    | .disabled => []
    | .enabled | .fallback | .localFirst => [.localUser]
  | "AutomaticMatching" =>
    match w.mode with
    | .disabled => [.ldapAutoMatch]
    | .enabled => [.localUser]
    | .fallback => [.ldapAutoMatch, .localUser]
    | .localFirst => [.localUser, .ldapAutoMatch]
  | "RemoteAutoMatching" =>
    match w.mode with
    | .disabled | .fallback | .localFirst => [.ldapAutoMatch]
    | .enabled => []
  | domain =>
    if w.mode = .enabled then []
    else (List.range' 1 maxLdapCount).filterMap fun i =>
      if (w.ldap.controllers i).any fun c => c.userDomain = domain then AuthType.ofController i
      else none

/-- The function of `auth_table` for a type. -/
def LoginEnv.authTable (w : LoginEnv Dn) (authType : AuthType) (userName password ip : String)
    (interface : Option LoginInterface) : Except LoginErr AccountInfo :=
  match authType with
  | .localUser => w.component.localAuthenticate userName password ip interface
  | .ldapAutoMatch => w.ldap.ldapAuthenticateAutoMatch userName password ip interface
  | .ldapServer1 | .ldapServer2 | .ldapServer3 | .ldapServer4 | .ldapServer5 | .ldapServer6 =>
    w.ldap.ldapAuthenticate userName password ip interface (authType.value - 1)
  | _ => .error .propertyValueNotInList

/-- The first authentication that succeeds, with its type, or the errors. -/
def firstSuccess (f : AuthType → Except LoginErr AccountInfo) :
    List AuthType → List LoginErr → Except (List LoginErr) (AccountInfo × AuthType)
  | [], errInfo => .error errInfo
  | t :: l, errInfo =>
    match f t with
    | .ok info => .ok (info, t)
    | .error e => firstSuccess f l (errInfo ++ [e])

/-- `authenticate`, with the address and the interface of the context. -/
def LoginEnv.authenticate (w : LoginEnv Dn) (clientAddr ctxInterface userName password : String)
    (sessionType : SessionType) (ip domain : String) :
    Except LoginErr (AccountInfo × AuthType) :=
  let authTypes := w.getAuthTypeByDomain domain
  if authTypes = [] then .error .propertyValueNotInList
  else if ipLockInterface ctxInterface && w.ipLocked clientAddr then .error .authorizationFailed
  else
    match firstSuccess (fun t => w.authTable t userName password ip
        (parseLoginInterface sessionType ctxInterface)) authTypes [] with
    | .ok r => .ok r
    | .error errInfo => .error (getBestMatchError errInfo)

end Login

/-! ## The name of the user -/

theorem exists_of_bind_eq_ok {ε α β : Type} {m : Except ε α} {f : α → Except ε β} {b : β}
    (h : (m >>= f) = .ok b) :
  ∃ a, m = .ok a ∧ f a = .ok b
  := by
  cases m with
  | error e => cases h
  | ok a => exact ⟨a, rfl, h⟩

/-- The account that is authenticated is one that has the name. -/
theorem userName_of_authenticate {auth : AuthEnv} {order : List ℕ} {ctx : AuthCtx}
    {name password : String} {ext : ExtConfig} {s s' : State} {id : ℕ} {a : Account}
    (h : exec (authenticate auth order ctx name password ext) s = (.ok (id, a), s')) :
  a.data.userName = name
  := by
  unfold authenticate at h
  obtain ⟨_, s₁, -, h⟩ := exec_bind_eq_ok h
  obtain ⟨_, s₂, -, h⟩ := exec_bind_eq_ok h
  rw [exec_bind_ok (exec_get s₂)] at h
  cases hfind : s₂.findAccount order name with
  | none =>
    rw [hfind] at h
    cases h
  | some found =>
    rw [hfind] at h
    obtain ⟨_, _, -, h⟩ := exec_bind_eq_ok h
    obtain ⟨_, _, -, h⟩ := exec_bind_eq_ok h
    obtain ⟨_, _, -, h⟩ := exec_bind_eq_ok h
    obtain ⟨_, _, -, h⟩ := exec_bind_eq_ok h
    obtain ⟨_, _, -, h⟩ := exec_bind_eq_ok h
    obtain ⟨_, _, -, h⟩ := exec_bind_eq_ok h
    cases h
    unfold State.findAccount at hfind
    obtain ⟨d, hd, hmap⟩ := Option.bind_eq_some_iff.mp hfind
    obtain ⟨b, hb, hpair⟩ := Option.map_eq_some_iff.mp hmap
    cases hpair
    obtain ⟨a', ha', hname⟩ := userName_of_getAccountByName hd
    cases hb.symm.trans ha'
    exact hname

theorem localAuthenticate_ok {l : LocalEnv} {userName password ip : String}
    {interface : Option LoginInterface} {info : AccountInfo}
    (h : l.localAuthenticate userName password ip interface = .ok info) :
  info.userName = userName ∧ info.group = none
  := by
  unfold LocalEnv.localAuthenticate at h
  by_cases hr : l.refuses userName = true
  · rw [if_pos hr] at h
    cases h
  · rw [if_neg hr] at h
    split at h
    · next id a hexec =>
      cases h
      exact ⟨userName_of_authenticate (Prod.ext hexec rfl), rfl⟩
    · cases h

section Login

variable {Dn : Type}

/-- The account is that of a user whom a controller has accepted, and has the name that was
typed or that name with the domain of the controller. -/
def LdapEnv.Named (l : LdapEnv Dn) (userName : String) (info : AccountInfo) : Prop :=
  ∃ i c innerIds, l.controllers i = some c ∧ info.group = some ⟨i, innerIds⟩
    ∧ (info.userName = userName ∨ info.userName = c.qualify userName)

theorem LdapEnv.authenticate_ok {l : LdapEnv Dn} {user password ip name : String}
    {serverId : ℕ} {c : Controller} {interface : Option LoginInterface} {info : AccountInfo}
    (h : l.authenticate user password serverId c ip interface name = .ok (.ok info)) :
  info.userName = name ∧ ∃ innerIds, info.group = some ⟨serverId, innerIds⟩
  := by
  unfold LdapEnv.authenticate at h
  split at h
  · cases h
  · cases h
    exact ⟨rfl, _, rfl⟩
  · cases h
  · cases h

theorem firstAccepted_ok {α : Type} {ask : ℕ → Except LoginErr (Except (Option ℕ) α)}
    {P : α → Prop} (hask : ∀ i a, ask i = .ok (.ok a) → P a) {l : List ℕ} {ret : Option ℕ}
    {a : α} (h : firstAccepted ask l ret = .ok (.ok a)) :
  P a
  := by
  induction l generalizing ret with
  | nil => cases h
  | cons i l ih =>
    unfold firstAccepted at h
    cases hi : ask i with
    | error e =>
      rw [hi] at h
      cases h
    | ok r =>
      rw [hi] at h
      cases r with
      | ok _ =>
        cases h
        exact hask i a hi
      | error ret' => exact ih h

section Named

variable {l : LdapEnv Dn} {userName password ip : String} {interface : Option LoginInterface}
  {info : AccountInfo}

theorem LdapEnv.askDivided_ok {serverId : ℕ} {c : Controller}
    (hc : l.controllers serverId = some c)
    (h : l.askDivided userName password ip interface serverId c = .ok (.ok info)) :
  l.Named userName info
  := by
  unfold LdapEnv.askDivided at h
  split at h
  · split at h
    · obtain ⟨hname, innerIds, hgroup⟩ := LdapEnv.authenticate_ok h
      exact ⟨serverId, c, innerIds, hc, hgroup, .inl hname⟩
    · cases h
  · cases h

theorem LdapEnv.askDomain_ok {user domain : String} {i : ℕ}
    (h : l.askDomain userName password ip interface user domain i = .ok (.ok info)) :
  l.Named userName info
  := by
  unfold LdapEnv.askDomain at h
  split at h
  · cases h
  · next c hc =>
    obtain ⟨hname, innerIds, hgroup⟩ := LdapEnv.authenticate_ok h
    exact ⟨i, c, innerIds, (Option.filter_eq_some_iff.mp hc).1, hgroup, .inl hname⟩

theorem LdapEnv.askWhole_ok {i : ℕ}
    (h : l.askWhole userName password ip interface i = .ok (.ok info)) :
  l.Named userName info
  := by
  unfold LdapEnv.askWhole at h
  split at h
  · cases h
  · next c hc =>
    split at h
    · obtain ⟨hname, innerIds, hgroup⟩ := LdapEnv.authenticate_ok h
      exact ⟨i, c, innerIds, hc, hgroup, .inr hname⟩
    · cases h

theorem LdapEnv.ldapAuthenticate_ok {serverId : ℕ}
    (h : l.ldapAuthenticate userName password ip interface serverId = .ok info) :
  l.Named userName info
  := by
  unfold LdapEnv.ldapAuthenticate at h
  cases he : l.enabled with
  | false =>
    rw [he] at h
    cases h
  | true =>
    rw [he] at h
    cases hc : l.controllers serverId with
    | none =>
      rw [hc] at h
      cases h
    | some c =>
      rw [hc] at h
      obtain ⟨divided, hd, h⟩ := exists_of_bind_eq_ok h
      rcases divided with _ | _
      · obtain ⟨whole, hw, h⟩ := exists_of_bind_eq_ok h
        rcases whole with _ | _
        · cases h
        · cases h
          obtain ⟨hname, innerIds, hgroup⟩ := LdapEnv.authenticate_ok hw
          exact ⟨serverId, c, innerIds, hc, hgroup, .inr hname⟩
      · cases h
        exact LdapEnv.askDivided_ok hc hd

theorem LdapEnv.askDomains_ok
    (h : l.askDomains userName password ip interface = .ok (.ok info)) :
  l.Named userName info
  := by
  unfold LdapEnv.askDomains at h
  split at h
  · exact firstAccepted_ok (fun _ _ hi => LdapEnv.askDomain_ok hi) h
  · cases h

theorem LdapEnv.ldapAuthenticateAutoMatch_ok
    (h : l.ldapAuthenticateAutoMatch userName password ip interface = .ok info) :
  l.Named userName info
  := by
  unfold LdapEnv.ldapAuthenticateAutoMatch at h
  cases he : l.enabled with
  | false =>
    rw [he] at h
    cases h
  | true =>
    rw [he] at h
    obtain ⟨divided, hd, h⟩ := exists_of_bind_eq_ok h
    rcases divided with ret | _
    · obtain ⟨whole, hw, h⟩ := exists_of_bind_eq_ok h
      rcases whole with _ | _
      · cases h
      · cases h
        exact firstAccepted_ok (fun _ _ hi => LdapEnv.askWhole_ok hi) hw
    · cases h
      exact LdapEnv.askDomains_ok hd

end Named

theorem firstSuccess_ok {f : AuthType → Except LoginErr AccountInfo} {l : List AuthType}
    {errInfo : List LoginErr} {r : AccountInfo × AuthType}
    (h : firstSuccess f l errInfo = .ok r) :
  f r.2 = .ok r.1
  := by
  induction l generalizing errInfo with
  | nil => cases h
  | cons t l ih =>
    unfold firstSuccess at h
    cases ht : f t with
    | ok info =>
      rw [ht] at h
      cases h
      exact ht
    | error e =>
      rw [ht] at h
      exact ih h

/-- A login is that of a local user under the name that was typed, or that of an LDAP user. -/
theorem LoginEnv.authenticate_ok {w : LoginEnv Dn}
    {clientAddr ctxInterface userName password ip domain : String} {sessionType : SessionType}
    {info : AccountInfo} {authType : AuthType}
    (h : w.authenticate clientAddr ctxInterface userName password sessionType ip domain
      = .ok (info, authType)) :
  (authType = .localUser ∧ info.userName = userName ∧ info.group = none)
    ∨ (authType.isLdap = true ∧ w.ldap.Named userName info)
  := by
  unfold LoginEnv.authenticate at h
  dsimp only at h
  split at h
  · cases h
  · split at h
    · cases h
    · split at h
      · next r hr =>
        cases h
        have htable := firstSuccess_ok hr
        cases authType with
        | localUser => exact .inl ⟨rfl, localAuthenticate_ok htable⟩
        | ldapAutoMatch => exact .inr ⟨rfl, LdapEnv.ldapAuthenticateAutoMatch_ok htable⟩
        | ldapServer1 | ldapServer2 | ldapServer3 | ldapServer4 | ldapServer5 | ldapServer6 =>
          exact .inr ⟨rfl, LdapEnv.ldapAuthenticate_ok htable⟩
        | ldapKerberosSso | kerberosServer | ssoLocal | ssoLdap | skipAuth | autoMatch =>
          cases htable
      · cases h

end Login

end Sessions

end BmcAccount
