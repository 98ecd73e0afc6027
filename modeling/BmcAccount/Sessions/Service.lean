import BmcAccount.Sessions.Login
import BmcAccount.Lib.Run

/-!
# The session service

The service keeps a list of sessions for each type. A session is created by a login, by a
certificate, by the authentication of VNC, from another session or with a key for KVM; it is
deleted by request, together with the others of a user or an address, because it has not been
used for too long, or because the remote group or the controller that its user was
authenticated by has changed.

The sessions of the command line, those between chassis and the inner ones of Redfish are not
here.
-/

namespace BmcAccount

namespace Sessions

open Raise

/-! ## Sessions -/

/-- `OccupationMode`. -/
inductive OccupationMode where
  | shared
  | exclusive
deriving DecidableEq

/-- `OccupationMode.new`. -/
def OccupationMode.ofNumber : ℤ → Option OccupationMode
  | 0 => some .shared
  | 1 => some .exclusive
  | _ => none

/-- An identifier of a system as it comes in a context: a number or a text. -/
inductive SystemId where
  | number (n : ℤ)
  | text (t : String)
deriving DecidableEq

/-- A session. -/
structure Session where
  username : String
  accountId : ℤ
  authType : AuthType
  browserType : Option ℤ
  token : String
  sessionId : String
  ip : String
  createdTime : ℤ
  lastLoginIp : String
  lastLoginTime : ℕ
  lastActiveTime : ℤ
  roleId : List ℕ
  privilege : List PrivilegeType
  ssoToken : Option String
  sessionMode : Option OccupationMode
  validFlag : Bool
  noValidCheckTime : ℕ
  systemId : Option SystemId
  remoteDict : Option RemoteDict
deriving DecidableEq

/-- `kvm_key_info`. -/
structure KvmKey where
  kvmKey : String
  sessionMode : OccupationMode
  createdTime : ℤ
  username : String

/-- The state of the service: the sessions of each type, the oldest first, and the
configuration of the types; for KVM also the mode of the latest session of each system, and the
key. -/
structure Service where
  sessions : SessionType → List Session
  sessionMaxCount : SessionType → ℕ
  sessionMode : SessionType → OccupationMode
  sessionTimeout : SessionType → ℤ
  kvmSessionMode : SystemId → Option OccupationMode
  kvmKeyInfo : Option KvmKey
  ssoEnabled : Bool
  validateSsoClient : Bool
  absoluteSessionTimeout : ℤ

/-- The errors of the service. -/
inductive ServiceErr where
  | login (e : LoginErr)
  | authorizationFailed
  | insufficientPrivilege
  | noValidSession
  | operationFailed
  | passwordChangeRequired
  | propertyValueNotInList
  | sessionLimitExceeded
  | sessionModeIsExclusive (t : SessionType)
  | userNotExist
  | internal
deriving DecidableEq

/-- A program of the service. -/
abbrev ServiceM (α : Type) : Type := Prog ServiceErr Service α

/-- `IpType`. -/
inductive IpType where
  | all
  | v4
  | v6
deriving DecidableEq

/-- What the service is built on. -/
structure Platform where
  /-- `generate_session_id`. -/
  generateSessionId : String → String
  /-- `tonumber`, for the texts of whole numbers. -/
  tonumber : String → Option ℤ
  /-- `normalize_ip`, for the addresses that `check_ip_valid` finds valid. -/
  normalizeIp : String → Option String
  /-- `vos_ipv4_addr_valid_check` and `vos_ipv6_addr_valid_check`. -/
  isAddress : IpType → String → Bool
  /-- The order in which `pairs` comes to the types. -/
  pairs : List SessionType
  pairs_complete : ∀ t, t ∈ pairs

/-- The number that an identifier of a system is. -/
def Platform.number (p : Platform) : SystemId → Option ℤ
  | .number n => some n
  | .text t => p.tonumber t

/-- An account of the cache. -/
structure CachedAccount where
  info : AccountInfo
  passwordChangeRequired : Bool
  firstLoginPolicy : FirstLoginPolicy

/-- What a call sees of the rest of the system. -/
structure World (Dn : Type) where
  now : ℤ
  /-- `generate_token`. -/
  token : String
  /-- The privileges of the roles of the cache. -/
  roles : ℕ → Option (List PrivilegeType)
  /-- The account cache. -/
  accounts : List CachedAccount
  initialPasswordNeedModify : Bool
  /-- `SystemIds` of the manager, if there is one. -/
  systemIds : Option (List ℤ)
  login : LoginEnv Dn

/-- The context of a call. -/
structure Ctx where
  clientAddr : String
  interface : String
  systemId : Option SystemId

section World

variable {Dn : Type} (w : World Dn)

/-- `get_session_privilege`, which raises an error for a role that is not there. -/
def World.sessionPrivilege (roleId : List ℕ) : Option (List PrivilegeType) :=
  (roleId.mapM w.roles).map fun l => l.flatten.dedup

/-- `get_account_by_name` of the cache. -/
def World.getAccountByName (name : String) : Option CachedAccount :=
  w.accounts.find? fun a => a.info.userName = name

/-- `get_account_by_id` of the cache. -/
def World.getAccountById (id : ℤ) : Option CachedAccount :=
  w.accounts.find? fun a => a.info.id = id

/-- A new session, which raises an error if its role is not there. -/
def newSessionObject (p : Platform) (account : AccountInfo) (authType : AuthType) (ip : String)
    (browserType : Option ℤ) (ssoToken : Option String) : Option Session :=
  let privilege := if account.currentPrivileges.getD [] = [] then w.sessionPrivilege account.roleId
    else account.currentPrivileges
  privilege.map fun privilege =>
    { username := account.userName
      accountId := account.id
      authType := authType
      browserType := browserType
      token := w.token
      sessionId := p.generateSessionId w.token
      ip := ip
      createdTime := w.now
      lastLoginIp := account.lastLoginIp
      lastLoginTime := account.lastLoginTime
      lastActiveTime := 0
      roleId := account.roleId
      privilege := privilege
      ssoToken := ssoToken
      sessionMode := none
      validFlag := false
      noValidCheckTime := 0
      systemId := none
      remoteDict := none }

/-- `package_session_create_account_info` of a session. -/
def Session.accountInfo (x : Session) : AccountInfo where
  userName := x.username
  id := x.accountId
  lastLoginIp := x.lastLoginIp
  lastLoginTime := x.lastLoginTime
  roleId := x.roleId
  currentPrivileges := some x.privilege
  group := none

end World

/-! ## The session types -/

/-- The service with other sessions of a type. -/
def Service.setSessions (s : Service) (t : SessionType) (l : List Session) : Service :=
  { s with sessions := Function.update s.sessions t l }

/-- `table.insert`. -/
def Service.insert (s : Service) (t : SessionType) (x : Session) : Service :=
  s.setSessions t (s.sessions t ++ [x])

/-- `set_session_mode`. -/
def Service.setSessionMode (s : Service) (t : SessionType) (mode : OccupationMode) : Service :=
  { s with sessionMode := Function.update s.sessionMode t mode }

/-- `hava_free_session`. -/
def Service.havaFreeSession (s : Service) (t : SessionType) : Bool :=
  (s.sessions t).length < s.sessionMaxCount t

/-- A value that may be missing; the error is that of indexing it. -/
def orInternal {α : Type} (x : Option α) : Except ServiceErr α :=
  x.elim (.error .internal) .ok

/-- `table.insert` of a new session. -/
def addSession (t : SessionType) (x : Session) : ServiceM Session := do
  modify fun s => s.insert t x
  pure x

/-- The session with its mode and its system. -/
def Session.place (x : Session) (mode : Option OccupationMode) (systemId : SystemId) : Session :=
  { x with sessionMode := mode, systemId := some systemId }

section Create

variable {Dn : Type} (p : Platform) (w : World Dn)

/-- `create` of the types that have none of their own. -/
def create (t : SessionType) (account : AccountInfo) (authType : AuthType) (ip : String)
    (browserType : Option ℤ) (ssoToken : Option String) : ServiceM Session := do
  let s ← get
  refuse (!s.havaFreeSession t) .sessionLimitExceeded
  let x ← outcome (orInternal (newSessionObject w p account authType ip browserType ssoToken))
  addSession t x

/-- `create` of SSO: if there is no session left, the others are deleted. -/
def ssoCreate (account : AccountInfo) (authType : AuthType) (ip : String)
    (browserType : Option ℤ) : ServiceM Session := do
  let s ← get
  onlyIf (!s.havaFreeSession .sso) (modify fun s => s.setSessions .sso [])
  let x ← outcome (orInternal (newSessionObject w p account authType ip browserType none))
  addSession .sso (x.place none (.number 0))

/-- `get_session_num_by_system_id`. -/
def Service.getSessionNumBySystemId (s : Service) (systemId : SystemId) : ℕ :=
  (s.sessions .kvm).countP fun x => x.systemId = some systemId

/-- `session_mode_validator` of KVM. -/
def kvmSessionModeValidator (mode : OccupationMode) (systemId : SystemId) : ServiceM Unit := do
  let s ← get
  refuse ((s.kvmSessionMode systemId = some .exclusive || mode = .exclusive)
    && s.getSessionNumBySystemId systemId ≠ 0) (.sessionModeIsExclusive .kvm)
  modify fun s => s.setSessionMode .kvm mode

/-- `create` of KVM. -/
def kvmCreate (account : AccountInfo) (authType : AuthType) (ip : String) (mode : OccupationMode)
    (systemId : SystemId) : ServiceM Session := do
  let s ← get
  refuse (s.sessionMaxCount .kvm ≤ s.getSessionNumBySystemId systemId) .sessionLimitExceeded
  kvmSessionModeValidator mode systemId
  let x ← outcome (orInternal (newSessionObject w p account authType ip none none))
  let s ← get
  modify fun s => { s with
    kvmSessionMode := Function.update s.kvmSessionMode systemId (some (s.sessionMode .kvm)) }
  addSession .kvm (x.place (some (s.sessionMode .kvm)) systemId)

/-- `session_mode_validator` of VNC. -/
def vncSessionModeValidator (mode : OccupationMode) : ServiceM Unit := do
  let s ← get
  refuse ((s.sessionMode .vnc = .exclusive || mode = .exclusive) && s.sessions .vnc ≠ [])
    (.sessionModeIsExclusive .vnc)
  modify fun s => s.setSessionMode .vnc mode

/-- `create` of VNC. -/
def vncCreate (account : AccountInfo) (mode : OccupationMode) (ip : String) :
    ServiceM Session := do
  let s ← get
  refuse (!s.havaFreeSession .vnc) .sessionLimitExceeded
  vncSessionModeValidator mode
  let x ← outcome (orInternal (newSessionObject w p account .localUser ip none none))
  let s ← get
  addSession .vnc (x.place (some (s.sessionMode .vnc)) (.number 0))

/-- `create` of VIDEO. -/
def videoCreate (account : AccountInfo) (authType : AuthType) (ip : String)
    (mode : OccupationMode) : ServiceM Session := do
  refuse (mode ≠ .exclusive) .propertyValueNotInList
  let s ← get
  refuse (!s.havaFreeSession .video) .sessionLimitExceeded
  refuse (s.sessions .video ≠ []) (.sessionModeIsExclusive .video)
  let x ← outcome (orInternal (newSessionObject w p account authType ip none none))
  addSession .video (x.place none (.number 0))

end Create

/-- The sessions of a type without those that are to be removed. -/
def Service.remove (s : Service) (t : SessionType) (removed : Session → Bool) : Service :=
  s.setSessions t ((s.sessions t).filter fun x => !removed x)

/-- `delete_by_username`. -/
def Service.deleteByUsername (s : Service) (t : SessionType) (username : String) : Service :=
  s.remove t fun x => username = x.username

/-- `delete_by_ip`. -/
def Service.deleteByIp (s : Service) (t : SessionType) (ip : String) : Service :=
  s.remove t fun x => ip = x.ip

/-- The session is one of a controller, if one is given, and of an inner identifier, if one is
given. -/
def Session.isOf (controllerId innerId : Option ℕ) (x : Session) : Bool :=
  x.remoteDict.any fun d =>
    controllerId.all (d.controllerId = ·)
      && innerId.all fun n => d.controllerInnerId &&& 1 <<< n ≠ 0

/-- `delete_remote_session` of a session type. -/
def Service.deleteRemoteSession (s : Service) (t : SessionType) (controllerId innerId : Option ℕ) :
    Service :=
  s.remove t (Session.isOf controllerId innerId)

/-- `delete` of a session type. -/
def Service.delete (s : Service) (t : SessionType) (sessionId : String) : Service :=
  s.setSessions t ((s.sessions t).eraseP fun x => sessionId = x.sessionId)

/-- `get_session_by_session_id`, with the type of the session. -/
def Service.getSessionBySessionId (p : Platform) (s : Service) (sessionId : String) :
    Option (SessionType × Session) :=
  p.pairs.findSome? fun t =>
    ((s.sessions t).find? fun x => sessionId = x.sessionId).map fun x => (t, x)

/-! ## Creating sessions -/

/-- `check_remote_console_session_mode_conflicts`: the mode does not conflict with the sessions
of another type. -/
def Service.checkRemoteConsoleSessionModeConflicts (s : Service) (t : SessionType)
    (curSessionMode : OccupationMode) : Bool :=
  !(s.sessionMode t = .exclusive && s.sessions t ≠ [])
    && !(s.sessionMode t = .shared && s.sessions t ≠ [] && curSessionMode = .exclusive)

/-- `handle_if_remote_session`, for the session that has just been created. -/
def handleIfRemoteSession (t : SessionType) (authType : AuthType) (group : Option RemoteDict) :
    ServiceM Unit :=
  onlyIf authType.isLdap (modify fun s =>
    s.setSessions t ((s.sessions t).modifyLast fun x => { x with remoteDict := group }))

/-- The numbers that a login has besides, as `tonumber` reads them. -/
structure ExtraData where
  sessionMode : Option (Option ℤ)
  browserType : Option (Option ℤ)

/-- `check_new_session_extra_data`. -/
def ExtraData.isValid (extra : ExtraData) : Bool :=
  (extra.sessionMode.all fun n => n = some 0 || n = some 1)
    && extra.browserType.all fun n => n.any fun n => 0 ≤ n && n ≤ 255

/-- A session with this authentication may not be created before the password is changed; no
value for an account that is not there. -/
def World.mustChangePassword {Dn : Type} (w : World Dn) (authType : AuthType) (id : ℤ) :
    Option Bool :=
  if authType = .localUser ∧ w.initialPasswordNeedModify = true then
    (w.getAccountById id).map fun a =>
      a.passwordChangeRequired && a.firstLoginPolicy = .forcePasswordReset
  else some false

section Requests

variable {Dn : Type} (p : Platform) (w : World Dn)

/-- `check_system_id`; returns the identifier. -/
def checkSystemId (ctx : Ctx) : Except ServiceErr SystemId := do
  let systemIds ← orInternal w.systemIds
  let systemId := ctx.systemId.getD (.number 1)
  if (p.number systemId).any fun n => n ∈ systemIds then pure systemId
  else throw .propertyValueNotInList

/-- `check_remote_console_session_priv`. -/
def checkRemoteConsoleSessionPriv (privileges : List PrivilegeType) (target : PrivilegeType) :
    Except ServiceErr Unit :=
  if target ∈ privileges then .ok () else .error .insufficientPrivilege

/-- What `create` of KVM is called with. -/
structure KvmRequest where
  account : AccountInfo
  authType : AuthType
  ip : String
  mode : OccupationMode
  systemId : SystemId

/-- The tests of `new_session` for KVM. -/
def Service.loginRequest (s : Service) (ctx : Ctx) (info : AccountInfo) (authType : AuthType)
    (ip : String) (extra : ExtraData) : Except ServiceErr KvmRequest := do
  if ← orInternal (w.mustChangePassword authType info.id) then throw .passwordChangeRequired
  let privileges ← orInternal (info.currentPrivileges.or (w.sessionPrivilege info.roleId))
  checkRemoteConsoleSessionPriv privileges .kvmMgmt
  let mode ← orInternal (OccupationMode.ofNumber ((extra.sessionMode.getD (some 0)).getD 0))
  if !s.checkRemoteConsoleSessionModeConflicts .vnc mode then throw (.sessionModeIsExclusive .kvm)
  let systemId ← checkSystemId p w ctx
  pure ⟨info, authType, ip, mode, systemId⟩

/-- The part of `new_session` for KVM. -/
def newKvmSession (ctx : Ctx) (info : AccountInfo) (authType : AuthType) (ip : String)
    (extra : ExtraData) : ServiceM Session := do
  let s ← get
  let r ← outcome (s.loginRequest p w ctx info authType ip extra)
  kvmCreate p w r.account r.authType r.ip r.mode r.systemId

/-- The part of `new_session` for the other types. -/
def newOrdinarySession (username : String) (info : AccountInfo) (authType : AuthType)
    (t : SessionType) (ip : String) (extra : ExtraData) : ServiceM Session := do
  let s ← get
  onlyIf (s.sessionMode t = .exclusive) (modify fun s => s.deleteByUsername t username)
  let browserType := (extra.browserType.getD (some 0)).getD 0
  if t = .sso then ssoCreate p w info authType ip (some browserType)
  else create p w t info authType ip (some browserType) none

/-- The part of `new_session` after the authentication. -/
def newAuthenticatedSession (ctx : Ctx) (username : String) (info : AccountInfo)
    (authType : AuthType) (t : SessionType) (ip : String) (extra : ExtraData) :
    ServiceM Session :=
  if t = .kvm then newKvmSession p w ctx info authType ip extra
  else newOrdinarySession p w username info authType t ip extra

/-- `new_session`. -/
def newSession (ctx : Ctx) (username password : String) (t : SessionType) (domain ip : String)
    (extra : ExtraData) : ServiceM Session := do
  refuse (t = .vnc || t = .video) .propertyValueNotInList
  let s ← get
  refuse (t = .sso && !s.ssoEnabled) .operationFailed
  refuse (!extra.isValid) .propertyValueNotInList
  match w.login.authenticate ctx.clientAddr ctx.interface username password t ip domain with
  | .error e => throw (.login e)
  | .ok (info, authType) => do
    let x ← newAuthenticatedSession p w ctx username info authType t ip extra
    handleIfRemoteSession t authType info.group
    pure x

/-- The test of `create_remote_session_by_session` for KVM. -/
def Session.consoleRequest (x : Session) (mode : OccupationMode) (systemId : SystemId) :
    Except ServiceErr KvmRequest := do
  checkRemoteConsoleSessionPriv x.privilege .kvmMgmt
  pure ⟨x.accountInfo, x.authType, x.ip, mode, systemId⟩

/-- `create_remote_session_by_session`, for KVM and VIDEO. -/
def createRemoteSessionBySession (x : Session) (t : SessionType) (mode : OccupationMode)
    (systemId : SystemId) : ServiceM Session :=
  if t = .kvm then do
    let r ← outcome (x.consoleRequest mode systemId)
    kvmCreate p w r.account r.authType r.ip r.mode r.systemId
  else do
    outcome (checkRemoteConsoleSessionPriv x.privilege .diagnoseMgmt)
    videoCreate p w x.accountInfo x.authType x.ip mode

/-- `get_kvm_key`: a key is dropped after two minutes. -/
def Service.getKvmKey (s : Service) (now : ℤ) : Option KvmKey :=
  s.kvmKeyInfo.filter fun k => now - k.createdTime ≤ 120

/-- The tests of `create_remote_session_by_key`. -/
def keyRequest (ctx : Ctx) (k : KvmKey) (systemId : SystemId) : Except ServiceErr KvmRequest :=
  match w.getAccountByName k.username with
  | none => throw .userNotExist
  | some a => do
    let privileges ← orInternal (a.info.currentPrivileges.or (w.sessionPrivilege a.info.roleId))
    checkRemoteConsoleSessionPriv privileges .kvmMgmt
    pure ⟨a.info, .skipAuth, ctx.clientAddr, k.sessionMode, systemId⟩

/-- `create_remote_session_by_key`. -/
def createRemoteSessionByKey (ctx : Ctx) (k : KvmKey) (systemId : SystemId) :
    ServiceM Session := do
  modify fun s => { s with kvmKeyInfo := none }
  let r ← outcome (keyRequest w ctx k systemId)
  kvmCreate p w r.account r.authType r.ip r.mode r.systemId

/-- What a KVM session is created from. -/
inductive ConsoleSource where
  | session (x : Session)
  | key (k : KvmKey)

/-- The session that a console session is created from, if the token is that of one. -/
def Service.parent (s : Service) (token : String) : Option Session :=
  ((s.getSessionBySessionId p (p.generateSessionId token)).filter fun x =>
    x.1 = .gui || x.1 = .redfish).map Prod.snd

/-- What a token for a KVM session is that of. -/
def Service.source (s : Service) (token : String) : Except ServiceErr ConsoleSource :=
  match s.parent p token,
      (s.getKvmKey w.now).filter fun k => token.toLower = k.kvmKey.toLower with
  | some x, _ => .ok (.session x)
  | none, some k => .ok (.key k)
  | none, none => .error .noValidSession

/-- The tests of `new_remote_console_session_kvm`. -/
def Service.consoleSource (s : Service) (token : String) (mode : OccupationMode) :
    Except ServiceErr ConsoleSource := do
  let source ← s.source p w token
  if !s.checkRemoteConsoleSessionModeConflicts .vnc mode then throw (.sessionModeIsExclusive .kvm)
  pure source

/-- The end of `new_remote_console_session_kvm`. -/
def createFromSource (ctx : Ctx) (mode : OccupationMode) (systemId : SystemId) :
    ConsoleSource → ServiceM Session
  | .session x => createRemoteSessionBySession p w x .kvm mode systemId
  | .key k => createRemoteSessionByKey p w ctx k systemId

/-- `new_remote_console_session_kvm`. -/
def newRemoteConsoleSessionKvm (ctx : Ctx) (token : String) (mode : OccupationMode)
    (systemId : SystemId) : ServiceM Session := do
  let s ← get
  modify fun s => { s with kvmKeyInfo := s.getKvmKey w.now }
  let source ← outcome (s.consoleSource p w token mode)
  createFromSource p w ctx mode systemId source

/-- `new_remote_console_session_video`. -/
def newRemoteConsoleSessionVideo (token : String) (mode : OccupationMode) :
    ServiceM Session := do
  let s ← get
  match s.parent p token with
  | none => throw .noValidSession
  | some x => createRemoteSessionBySession p w x .video mode (.number 0)

/-- `new_remote_console_session`. -/
def newRemoteConsoleSession (ctx : Ctx) (token : String) (t : SessionType)
    (mode : OccupationMode) : ServiceM Session :=
  match t with
  | .kvm => do
    let systemId ← outcome (checkSystemId p w ctx)
    newRemoteConsoleSessionKvm p w ctx token mode systemId
  | .video => newRemoteConsoleSessionVideo p w token mode
  | _ => throw .propertyValueNotInList

/-- The client of an SSO session is at its address. -/
def Platform.sameClient (p : Platform) (ip clientAddr : String) : Bool :=
  (p.normalizeIp ip).isSome && p.normalizeIp ip = p.normalizeIp clientAddr

/-- The tests of `new_session_by_sso` for KVM. -/
def Service.ssoRequest (s : Service) (ctx : Ctx) (x : Session) (mode : OccupationMode) :
    Except ServiceErr KvmRequest := do
  if !s.checkRemoteConsoleSessionModeConflicts .vnc mode then throw (.sessionModeIsExclusive .kvm)
  let systemId ← checkSystemId p w ctx
  pure ⟨x.accountInfo, x.authType, x.ip, mode, systemId⟩

/-- The part of `new_session_by_sso` for KVM. -/
def newKvmSessionBySso (ctx : Ctx) (x : Session) (mode : OccupationMode) : ServiceM Session := do
  let s ← get
  let r ← outcome (s.ssoRequest p w ctx x mode)
  kvmCreate p w r.account r.authType r.ip r.mode r.systemId

/-- The part of `new_session_by_sso` for the web. -/
def newGuiSessionBySso (x : Session) (ssoToken : String) : ServiceM Session := do
  let s ← get
  onlyIf (s.sessionMode .gui = .exclusive) (modify fun s => s.deleteByUsername .gui x.username)
  create p w .gui x.accountInfo x.authType x.ip x.browserType (some ssoToken)

/-- The session that is created from a session of SSO. -/
def newSessionFromSso (ctx : Ctx) (x : Session) (ssoToken : String) (t : SessionType)
    (mode : OccupationMode) : ServiceM Session :=
  match t with
  | .gui => newGuiSessionBySso p w x ssoToken
  | .kvm => newKvmSessionBySso p w ctx x mode
  | _ => throw .propertyValueNotInList

/-- The session of SSO that a token is that of, after the tests of `new_session_by_sso`. -/
def Service.ssoSource (s : Service) (ctx : Ctx) (ssoToken : String) :
    Except ServiceErr Session :=
  match (s.getSessionBySessionId p (p.generateSessionId ssoToken)).filter fun x => x.1 = .sso with
  | none => .error .noValidSession
  | some (_, x) =>
    if s.validateSsoClient && !p.sameClient x.ip ctx.clientAddr then .error .noValidSession
    else if (w.getAccountByName x.username).isNone then .error .userNotExist
    else .ok x

/-- `new_session_by_sso`. -/
def newSessionBySso (ctx : Ctx) (ssoToken : String) (t : SessionType) (mode : OccupationMode) :
    ServiceM Session := do
  let s ← get
  let x ← outcome (s.ssoSource p w ctx ssoToken)
  let y ← newSessionFromSso p w ctx x ssoToken t mode
  modify fun s => s.delete .sso (p.generateSessionId ssoToken)
  pure y

/-- The tests of `new_vnc_session`; the authentication of VNC has given `vncAccount`, and with mode
`2` there is nothing more to do. -/
def Service.vncRequest (s : Service) (ctx : Ctx) (vncAccount : Except LoginErr AccountInfo)
    (sessionMode : ℤ) : Except ServiceErr (Option (AccountInfo × OccupationMode)) :=
  if w.login.ipLocked ctx.clientAddr then .error .authorizationFailed
  else
    match vncAccount with
    | .error e => .error (.login e)
    | .ok info =>
      if sessionMode = 2 then .ok none
      else do
        let mode ← orInternal (OccupationMode.ofNumber sessionMode)
        if !s.checkRemoteConsoleSessionModeConflicts .kvm mode then
          throw (.sessionModeIsExclusive .vnc)
        pure (some (info, mode))

/-- The end of `new_vnc_session`. -/
def createVncSession (ctx : Ctx) : Option (AccountInfo × OccupationMode) → ServiceM Unit
  | none => pure ()
  | some (info, mode) => do
    let _ ← vncCreate p w info mode ctx.clientAddr
    pure ()

/-- `new_vnc_session`. -/
def newVncSession (ctx : Ctx) (vncAccount : Except LoginErr AccountInfo) (sessionMode : ℤ) :
    ServiceM Unit := do
  let s ← get
  let r ← outcome (s.vncRequest w ctx vncAccount sessionMode)
  createVncSession p w ctx r

/-- `mutual_auth_authentication`: the account component is asked without a password. -/
def LocalEnv.mutualAuthAuthentication (l : LocalEnv) (userName ip interface : String) : Bool :=
  (exec (authenticate l.auth l.order ⟨some ip, some (if interface = "WEB" then "Web"
    else interface)⟩ userName "" ⟨false, true, true⟩) l.accounts).1.isOk

/-- `new_mutual_auth_session`; `userId` is the identifier in the path of the certificate, if one
is found that is not revoked. -/
def newMutualAuthSession (ctx : Ctx) (userId : Option ℤ) (ip : String) : ServiceM Session := do
  match userId.bind w.getAccountById with
  | none => throw .authorizationFailed
  | some a => do
    refuse (!w.login.component.mutualAuthAuthentication a.info.userName ip ctx.interface)
      .authorizationFailed
    create p w .gui a.info .localUser ip (some 0) none

/-- `set_kvm_key`; the handler is the account of the context. -/
def setKvmKey (userName kvmKey : String) (mode : OccupationMode) : ServiceM Unit := do
  match w.getAccountByName userName with
  | none => throw .userNotExist
  | some a => do
    refuse (kvmKey.utf8ByteSize ≠ 64) .internal
    modify fun s => { s with kvmKeyInfo := some ⟨kvmKey, mode, w.now, a.info.userName⟩ }

end Requests

/-! ## Deleting sessions -/

/-- `delete_session`. -/
def deleteSession (p : Platform) (sessionId : String) : ServiceM Unit := do
  let s ← get
  match s.getSessionBySessionId p sessionId with
  | none => throw .noValidSession
  | some (t, _) => modify fun s => s.delete t sessionId

/-- `delete_session_by_username`. -/
def Service.deleteSessionByUsername (p : Platform) (s : Service) (username : String) : Service :=
  p.pairs.foldl (fun s t => s.deleteByUsername t username) s

/-- `delete_session_by_ip`. -/
def Service.deleteSessionByIp (p : Platform) (s : Service) (ip : String) : Service :=
  p.pairs.foldl (fun s t => s.deleteByIp t ip) s

/-- `delete_remote_session`. -/
def Service.deleteRemoteSessions (p : Platform) (s : Service) (controllerId innerId : Option ℕ) :
    Service :=
  p.pairs.foldl (fun s t => s.deleteRemoteSession t controllerId innerId) s

/-- The session at a place is deleted by its identifier, if its address is of the type. -/
def deleteAt (p : Platform) (t : SessionType) (ipType : IpType) (i : ℕ) : ServiceM Unit := do
  let s ← get
  let x ← outcome (orInternal (s.sessions t)[i]?)
  onlyIf (ipType = .all || p.isAddress ipType x.ip)
    (modify fun s => s.delete t x.sessionId)

/-- `delete_all_session` of a session type. -/
def deleteAllOfType (p : Platform) (t : SessionType) (ipType : IpType) : ServiceM Unit := do
  let s ← get
  (List.range (s.sessions t).length).reverse.forM (deleteAt p t ipType)

/-- `delete_all_system_id_session`: it deletes the sessions of all systems, and for a type of
addresses it calls a function that there is not. -/
def deleteAllSystemIdSession (p : Platform) (ipType : IpType) : ServiceM Unit := do
  let s ← get
  refuse (ipType ≠ .all && s.sessions .kvm ≠ []) .internal
  deleteAllOfType p .kvm .all

/-- `delete_all_session`, of one type or of all. -/
def deleteAllSession {Dn : Type} (p : Platform) (w : World Dn) (ctx : Ctx)
    (t : Option SessionType) (ipType : IpType) : ServiceM Unit :=
  match t with
  | none => p.pairs.forM fun t => deleteAllOfType p t ipType
  | some .kvm => do
    let _ ← outcome (checkSystemId p w ctx)
    deleteAllSystemIdSession p ipType
  | some t => deleteAllOfType p t ipType

/-- Five seconds more without activity. -/
def Session.age (x : Session) : Session := { x with lastActiveTime := x.lastActiveTime + 5 }

/-- Five seconds more without validation. -/
def Session.ageValidation (x : Session) : Session :=
  { x with noValidCheckTime := x.noValidCheckTime + 5 }

/-- The session has not been used for too long, or was created too long ago. -/
def Service.isTimeout (s : Service) (t : SessionType) (now : ℤ) (x : Session) : Bool :=
  (s.sessionTimeout t ≠ 0 && s.sessionTimeout t ≤ x.lastActiveTime)
    || (s.absoluteSessionTimeout ≠ 0 && x.createdTime < now - s.absoluteSessionTimeout)

/-- `get_timeout_session_list`, with the identifiers. -/
def getTimeoutSessionList (now : ℤ) (t : SessionType) : ServiceM (List String) := do
  modify fun s => s.setSessions t ((s.sessions t).map fun x =>
    if t = .kvm then x.ageValidation.age else x.age)
  let s ← get
  let unvalidated := (s.sessions t).reverse.filter fun x =>
    t = .kvm && !x.validFlag && 120 < x.noValidCheckTime
  let timeout := (s.sessions t).reverse.filter fun x =>
    s.isTimeout t now x && unvalidated.all fun y => y.sessionId ≠ x.sessionId
  pure ((unvalidated ++ timeout).map (·.sessionId))

/-- `process_timeout_sessions`: an error ends the work on a type. -/
def processTimeoutSessions (p : Platform) (now : ℤ) : ServiceM Unit :=
  p.pairs.forM fun t => protect (do
    let timeout ← getTimeoutSessionList now t
    timeout.forM (deleteSession p)) fun _ => pure ()

/-- `validate_session`. -/
def Service.validateSession (s : Service) (t : SessionType) (token : String) : Service :=
  if t = .kvm then
    s.setSessions t ((s.sessions t).map fun x =>
      if x.token = token then { x with validFlag := true } else x)
  else s

/-! ## Runs -/

/-- The operations. -/
inductive Op where
  | newSession (ctx : Ctx) (username password : String) (t : SessionType) (domain ip : String)
      (extra : ExtraData)
  | newRemoteConsoleSession (ctx : Ctx) (token : String) (t : SessionType)
      (mode : OccupationMode)
  | newSessionBySso (ctx : Ctx) (ssoToken : String) (t : SessionType) (mode : OccupationMode)
  | newVncSession (ctx : Ctx) (vncAccount : Except LoginErr AccountInfo) (sessionMode : ℤ)
  | newMutualAuthSession (ctx : Ctx) (userId : Option ℤ) (ip : String)
  | setKvmKey (userName kvmKey : String) (mode : OccupationMode)
  | validateSession (t : SessionType) (token : String)
  | deleteSession (sessionId : String)
  | deleteSessionByUsername (username : String)
  | deleteSessionByIp (ip : String)
  | deleteRemoteSession (controllerId innerId : Option ℕ)
  | deleteAllSession (ctx : Ctx) (t : Option SessionType) (ipType : IpType)
  | processTimeoutSessions

/-- An operation, and what it sees. -/
structure Call (Dn : Type) where
  world : World Dn
  op : Op

/-- The state after a call, whether it returns or raises. -/
def Service.after {Dn : Type} (p : Platform) (s : Service) (c : Call Dn) : Service :=
  match c.op with
  | .newSession ctx username password t domain ip extra =>
    Raise.after (Sessions.newSession p c.world ctx username password t domain ip extra) s
  | .newRemoteConsoleSession ctx token t mode =>
    Raise.after (Sessions.newRemoteConsoleSession p c.world ctx token t mode) s
  | .newSessionBySso ctx ssoToken t mode =>
    Raise.after (Sessions.newSessionBySso p c.world ctx ssoToken t mode) s
  | .newVncSession ctx vncAccount sessionMode =>
    Raise.after (Sessions.newVncSession p c.world ctx vncAccount sessionMode) s
  | .newMutualAuthSession ctx userId ip =>
    Raise.after (Sessions.newMutualAuthSession p c.world ctx userId ip) s
  | .setKvmKey userName kvmKey mode =>
    Raise.after (Sessions.setKvmKey c.world userName kvmKey mode) s
  | .validateSession t token => s.validateSession t token
  | .deleteSession sessionId => Raise.after (Sessions.deleteSession p sessionId) s
  | .deleteSessionByUsername username => s.deleteSessionByUsername p username
  | .deleteSessionByIp ip => s.deleteSessionByIp p ip
  | .deleteRemoteSession controllerId innerId => s.deleteRemoteSessions p controllerId innerId
  | .deleteAllSession ctx t ipType =>
    Raise.after (Sessions.deleteAllSession p c.world ctx t ipType) s
  | .processTimeoutSessions => Raise.after (Sessions.processTimeoutSessions p c.world.now) s

/-! ### A plain system -/

/-- Identifiers are tokens, and addresses are normal. -/
def plainPlatform : Platform where
  generateSessionId := id
  tonumber t := t.toInt?
  normalizeIp ip := some ip
  isAddress t _ := t = .v4
  pairs := [.gui, .redfish, .sso, .kvm, .vnc, .video]
  pairs_complete t := by
    cases t <;> decide

/-- No sessions; those of the web, of SSO and of VIDEO are exclusive. -/
def plainService : Service where
  sessions _ := []
  sessionMaxCount _ := 4
  sessionMode t := if t = .gui ∨ t = .sso ∨ t = .video then .exclusive else .shared
  sessionTimeout _ := 0
  kvmSessionMode _ := none
  kvmKeyInfo := none
  ssoEnabled := true
  validateSsoClient := false
  absoluteSessionTimeout := 0

/-- A directory server for one controller. It finds every user in the group with the inner
identifier `1`. -/
def plainLdap : LdapEnv Unit where
  enabled := true
  controllers i := if i = 1 then some ⟨"192.168.1.9", "example"⟩ else none
  server :=
    { groupDn := fun _ _ => ((), true)
      bind := fun _ => true
      search := fun _ _ group => (.success, Function.update group ⟨0, by decide⟩ 1) }
  groups i := if i = 1 then some ⟨.ldap, 1, 1, "operators", "", 4, 4, 0, 128 ||| 1⟩ else none
  rules _ _ := true
  allocUid := 1000

/-- The rest of the system: two systems, and only LDAP to log in with. -/
def plainWorld (token : String) : World Unit where
  now := 0
  token := token
  roles id := if id = 4 then some [.kvmMgmt, .diagnoseMgmt] else none
  accounts := []
  initialPasswordNeedModify := false
  systemIds := some [1, 2]
  login :=
    { mode := .disabled
      ldap := plainLdap
      component := ⟨⟨plainEnv, fun _ => true, fun _ _ => true, fun _ => none, fun _ => none⟩, [],
        plainState [], fun _ => false⟩
      ipLocked := fun _ => false }

/-- A request from the web. -/
def plainCtx : Ctx := ⟨"192.168.1.2", "WEB", none⟩

end Sessions

end BmcAccount
