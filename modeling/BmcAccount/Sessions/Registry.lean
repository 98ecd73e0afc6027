import BmcAccount.Sessions.ClearKvm
import BmcAccount.Sessions.LdapUid
import BmcAccount.Sessions.Ledger
import BmcAccount.Sessions.Redfish

/-!
# All sessions and their removals

The session service with everything that it removes sessions from: the lists of the ordinary
types, the sessions of the command line, the two lists of sessions between chassis, and the inner
sessions of Redfish. A removal has a type, and most of the ways to remove sessions record it in a
log of 32 entries, which says later why a session is gone.

A login and a login with SSO are here as they are in the service without the log, but for the
removals that they make. What the other requests create is left open: any session with a new
identifier may come to any list but that of the command line.
-/

namespace BmcAccount

namespace Sessions

open Raise

/-! ## Collections -/

/-- The keys of `m_session_service_collection`. -/
inductive SessionKind where
  | ordinary (t : SessionType)
  | cli
  | interChassis
deriving DecidableEq

/-- The lists of sessions. -/
inductive Shelf where
  | ordinary (t : SessionType)
  | cli
  | interChassis
  | interChassisGui
deriving DecidableEq

/-- `m_session_collection`. -/
def SessionKind.collection : SessionKind → Shelf
  | .ordinary t => .ordinary t
  | .cli => .cli
  | .interChassis => .interChassis

/-- The lists that `get_session_by_session_id` goes through. -/
def SessionKind.shelves : SessionKind → List Shelf
  | .ordinary t => [.ordinary t]
  | .cli => [.cli]
  | .interChassis => [.interChassis, .interChassisGui]

/-- What the registry is built on. -/
structure RegistryPlatform extends Platform where
  /-- The order in which `pairs` comes to the collections. -/
  kinds : List SessionKind
  kinds_complete : ∀ k, k ∈ kinds
  pairs_eq : pairs = kinds.filterMap fun k =>
    match k with
    | .ordinary t => some t
    | _ => none
  /-- `pairs` comes to `m_session_collection_gui` first. -/
  guiFirst : Bool
  innerOrder : Redfish.PairsOrder
  /-- `skynet_ready`. -/
  skynetReady : Bool
  /-- An identifier that is generated consists of hexadecimal digits. -/
  generateSessionId_ne : ∀ token pid, generateSessionId token ≠ cliId pid

/-- The lists of a collection in the order of `pairs`. -/
def RegistryPlatform.shelves (p : RegistryPlatform) (k : SessionKind) : List Shelf :=
  if p.guiFirst then k.shelves.reverse else k.shelves

/-- All sessions, `m_ldap_authed_accounts` in the order of `pairs`, and
`m_session_logout_collection`. No operation reads `removed`, which has all removals. -/
structure Registry where
  service : Service
  cli : List Session
  interChassis : List Session
  interChassisGui : List Session
  inner : Redfish.InnerCollection
  ldapAuthedAccounts : List LdapUser
  logoutCollection : List (String × LogoutType)
  removed : List Removal

/-- The errors: those of the service, those of `ERR_MAP`, and `session_still_alive`. -/
inductive RegistryErr where
  | service (e : ServiceErr)
  | sessionChanged
  | sessionTimeout
  | sessionKickout
  | sessionRelogin
  | sessionStillAlive
deriving DecidableEq

/-- `ERR_MAP`. -/
def errMap : LogoutType → RegistryErr
  | .accountConfigChange => .sessionChanged
  | .sessionLogout => .sessionTimeout
  | .sessionKickout => .sessionKickout
  | .sessionRelogin => .sessionRelogin
  | .sessionTimeout => .sessionTimeout
  | .bmcConfigChange => .sessionChanged

/-- A program of the registry. -/
abbrev RegistryM (α : Type) : Type := Prog RegistryErr Registry α

/-- A user as `get_cli_online_users` finds one. -/
structure OnlineUser where
  pid : ℕ
  username : String
  host : String
  loginTime : ℤ

/-- The users of the command line, in the order of `pairs`; each has a process. -/
structure OnlineUsers where
  users : List OnlineUser
  nodup : (users.map (·.pid)).Nodup

/-- What a call sees of the command line. -/
structure Processes where
  online : OnlineUsers
  /-- What `get_authed_ldap_user` finds, the last record for each identifier. -/
  authedLdapUsers : List LdapUser
  /-- What is matched of the parent of the first process of a user, if there is a process; where
  nothing is matched, it is printed as `nil`. -/
  parent : ℤ → Option String
  /-- `AccountType` of an account of the cache. -/
  accountType : ℤ → AccountType
  /-- `generate_token`, for the session of the command line with an identifier. -/
  token : String → String

/-- `RESERVED_ROOT_USER_NAME` is restored to `ACTUAL_ROOT_USER_NAME`. -/
def OnlineUser.name (o : OnlineUser) : String :=
  if o.username = "<root>" then "root" else o.username

/-- The address of the session; without a host it is on the serial port. -/
def OnlineUser.address (o : OnlineUser) : String :=
  if o.host = "" then "COM" else o.host

/-- `m_session_id` of the session. -/
def OnlineUser.sessionId (o : OnlineUser) : String := cliId o.pid

namespace Registry

/-- The sessions of a list. -/
def sessions (s : Registry) : Shelf → List Session
  | .ordinary t => s.service.sessions t
  | .cli => s.cli
  | .interChassis => s.interChassis
  | .interChassisGui => s.interChassisGui

/-- The registry with other sessions in a list. -/
def setSessions (s : Registry) (sh : Shelf) (l : List Session) : Registry :=
  match sh with
  | .ordinary t => { s with service := s.service.setSessions t l }
  | .cli => { s with cli := l }
  | .interChassis => { s with interChassis := l }
  | .interChassisGui => { s with interChassisGui := l }

/-- `m_delete_session` is emitted for sessions, which are removed with a type. -/
def note (s : Registry) (isCli : Bool) (sessionIds : List String) (t : LogoutType) : Registry :=
  { s with removed := s.removed ++ sessionIds.map fun i => ⟨isCli, i, t⟩ }

/-- A program of the service. -/
def onService {α : Type} (m : ServiceM α) : RegistryM α := do
  let s ← get
  modify fun s => { s with service := (exec m s.service).2 }
  outcome ((exec m s.service).1.mapError .service)

/-- The errors of the inner sessions. -/
def innerErr : Redfish.SessionErr → RegistryErr
  | .noValidSession => .service .noValidSession
  | .positionOutOfBounds => .service .internal
  | .indexNil => .service .internal

/-- A program of the inner sessions. -/
def onInner (m : Redfish.SessionM Unit) : RegistryM Unit := do
  let s ← get
  modify fun s => { s with inner := (exec m ⟨[], s.inner, 0⟩).2.inner }
  outcome ((exec m ⟨[], s.inner, 0⟩).1.mapError innerErr)

/-! ## Finding sessions -/

/-- The list of a collection that has the identifier. -/
def place (s : Registry) (k : SessionKind) (sessionId : String) : Option Shelf :=
  k.shelves.find? fun sh => (s.sessions sh).any fun x => sessionId = x.sessionId

/-- An inner session has the identifier. -/
def hasInner (s : Registry) (sessionId : String) : Bool :=
  (Redfish.State.getSessionBySessionId ⟨[], s.inner, 0⟩ .hmmFirst sessionId).isSome

/-- `get_session_by_session_id`, with the collection of the session. -/
def getSessionBySessionId (p : RegistryPlatform) (s : Registry) (sessionId : String) :
    Option SessionKind :=
  p.kinds.find? fun k =>
    (s.place k sessionId).isSome || (k = .ordinary .redfish && s.hasInner sessionId)

/-! ## The log -/

/-- `record_logout_session`. -/
def recordLogoutSession (sessionIds : List String) (t : LogoutType) : RegistryM Unit :=
  modify fun s => { s with
    logoutCollection := sessionIds.foldl (fun l i => RecentLog.push maxLogoutSession l (i, t))
      s.logoutCollection }

/-- `get_session_logout_type`. -/
def getSessionLogoutType (p : RegistryPlatform) (s : Registry) (sessionId : String) :
    Except RegistryErr LogoutType :=
  match s.logoutCollection.find? fun e => e.1 = sessionId with
  | some e => .ok e.2
  | none =>
    if (s.getSessionBySessionId p sessionId).isSome then .error .sessionStillAlive
    else .error (.service .noValidSession)

/-- `check_session_error`. -/
def checkSessionError (s : Registry) (sessionId : String) : RegistryErr :=
  match s.logoutCollection.find? fun e => e.1 = sessionId with
  | some e => errMap e.2
  | none => .service .noValidSession

/-! ## Removing sessions -/

/-- A loop from the end of a list that removes sessions; returns their identifiers. -/
def deleteWhere (sh : Shelf) (t : LogoutType) (gone : Session → Bool) :
    RegistryM (List String) := do
  let s ← get
  let deleted := ((s.sessions sh).filter gone).reverse.map (·.sessionId)
  modify fun s =>
    (s.setSessions sh ((s.sessions sh).filter fun x => !gone x)).note (sh = .cli) deleted t
  pure deleted

/-- The same loop over several lists. -/
def deleteFrom (t : LogoutType) (gone : Session → Bool) : List Shelf → RegistryM (List String)
  | [] => pure []
  | sh :: l => do
    let deleted ← deleteWhere sh t gone
    let others ← deleteFrom t gone l
    pure (deleted ++ others)

/-- Sessions are removed and recorded. -/
def deleteAndRecord (l : List Shelf) (t : LogoutType) (gone : Session → Bool) :
    RegistryM Unit := do
  let deleted ← deleteFrom t gone l
  recordLogoutSession deleted t

/-- `delete` of a collection. -/
def delete (p : RegistryPlatform) (k : SessionKind) (sessionId : String) (t : LogoutType) :
    RegistryM Unit := do
  let s ← get
  match s.place k sessionId with
  | some sh =>
    modify fun s => (s.setSessions sh
      ((s.sessions sh).eraseP fun x => sessionId = x.sessionId)).note (sh = .cli) [sessionId] t
  | none =>
    if k = .ordinary .redfish then do
      onInner (Redfish.delete p.innerOrder sessionId)
      modify fun s => s.note false [sessionId] t
    else throw (.service .noValidSession)

/-- `delete_session`. -/
def deleteSession (p : RegistryPlatform) (sessionId : String) (t : LogoutType) :
    RegistryM Unit := do
  let s ← get
  match s.getSessionBySessionId p sessionId with
  | none => throw (s.checkSessionError sessionId)
  | some k => do
    delete p k sessionId t
    recordLogoutSession [sessionId] t

/-- `delete_session_by_username`. Where there is `skynet`, the part for the command line is
forked. -/
def deleteSessionByUsername (p : RegistryPlatform) (username : String) (t : LogoutType) :
    RegistryM Unit :=
  (p.kinds.filter fun k => !(k = .cli && p.skynetReady)).forM fun k =>
    deleteAndRecord (p.shelves k) t fun x => username = x.username

/-- The part of `delete_session_by_username` that is forked. -/
def cliDeleteByUsername (username : String) (t : LogoutType) : RegistryM Unit :=
  deleteAndRecord [.cli] t fun x => username = x.username

/-- `delete_session_by_ip`. -/
def deleteSessionByIp (p : RegistryPlatform) (ip : String) (t : LogoutType) : RegistryM Unit :=
  (p.kinds.filter fun k => k ≠ .cli).forM fun k =>
    deleteAndRecord (p.shelves k) t fun x => ip = x.ip

/-- A user of LDAP is one of a controller, if one is given, and of an inner identifier, if one is
given. -/
def isUserOf (controllerId innerId : Option ℕ) (u : LdapUser) : Bool :=
  controllerId.all (u.serverid = ·) && innerId.all fun n => u.groupid &&& 1 <<< n ≠ 0

/-- `delete_remote_session` of the command line: the session of a user is that of the parent of
the first process. -/
def cliDeleteRemoteSession (p : RegistryPlatform) (e : Processes) (t : LogoutType)
    (controllerId innerId : Option ℕ) : List LdapUser → RegistryM (List String)
  | [] => pure []
  | u :: l =>
    match (e.parent u.uid).filter fun _ => isUserOf controllerId innerId u with
    | none => cliDeleteRemoteSession p e t controllerId innerId l
    | some ppid => do
      delete p .cli ("cli" ++ ppid) t
      let others ← cliDeleteRemoteSession p e t controllerId innerId l
      pure (("cli" ++ ppid) :: others)

/-- `delete_remote_session`. -/
def deleteRemoteSession (p : RegistryPlatform) (e : Processes) (controllerId innerId : Option ℕ)
    (t : LogoutType) : RegistryM Unit :=
  p.kinds.forM fun k =>
    if k = .cli then do
      let s ← get
      let deleted ← cliDeleteRemoteSession p e t controllerId innerId s.ldapAuthedAccounts
      recordLogoutSession deleted t
    else deleteAndRecord [k.collection] t (Session.isOf controllerId innerId)

/-- The loops of `delete_all_session` and `delete_all_system_id_session` over a list. Nothing is
recorded. -/
def deleteAllOf (p : RegistryPlatform) (k : SessionKind) (t : LogoutType)
    (meant : Session → Except RegistryErr Bool) (sh : Shelf) : RegistryM Unit :=
  Sweep.sweep (fun s : Registry => s.sessions sh) (.service .internal) meant fun x =>
    delete p k x.sessionId t

/-- `delete_all_session` of a collection. -/
def deleteAllOfKind (p : RegistryPlatform) (t : LogoutType) (ipType : IpType) (k : SessionKind) :
    RegistryM Unit :=
  (p.shelves k).forM (deleteAllOf p k t fun x => .ok (ClearKvm.hasType p.toPlatform ipType x))

/-- `delete_all_session`, of one collection or of all. -/
def deleteAllSession {Dn : Type} (p : RegistryPlatform) (w : World Dn) (ctx : Ctx)
    (t : LogoutType) (k : Option SessionKind) (ipType : IpType) : RegistryM Unit :=
  match k with
  | none => p.kinds.forM (deleteAllOfKind p t ipType)
  | some (.ordinary .kvm) => do
    let systemId ← outcome ((checkSystemId p.toPlatform w ctx).mapError .service)
    deleteAllOf p (.ordinary .kvm) t
      (fun x => (ClearKvm.isMatch ipType systemId x).mapError .service) (.ordinary .kvm)
  | some k => deleteAllOfKind p t ipType k

/-- `delete_timeout_session_list`; an error ends the work on the list. -/
def deleteTimeoutSessionList (p : RegistryPlatform) (sessionIds : List String) : RegistryM Unit :=
  sessionIds.forM fun i => deleteSession p i .sessionTimeout

/-! ## Creating sessions -/

section Create

variable {Dn : Type} (p : RegistryPlatform) (w : World Dn)

/-- With the mode exclusive, the other sessions of the user are removed. -/
def relogin (t : SessionType) (username : String) : RegistryM Unit := do
  let s ← get
  onlyIf (s.service.sessionMode t = .exclusive)
    (deleteAndRecord [.ordinary t] .sessionRelogin fun x => username = x.username)

/-- `create` of SSO: if there is no session left, the others are removed. -/
def ssoCreate (account : AccountInfo) (authType : AuthType) (ip : String)
    (browserType : Option ℤ) : RegistryM Session := do
  let s ← get
  onlyIf (!s.service.havaFreeSession .sso)
    (deleteAllOf p (.ordinary .sso) .sessionRelogin (fun _ => .ok true) (.ordinary .sso))
  onService do
    let x ← outcome (orInternal
      (newSessionObject w p.toPlatform account authType ip browserType none))
    addSession .sso (x.place none (.number 0))

/-- The part of `new_session` for the other types than KVM. -/
def newOrdinarySession (username : String) (info : AccountInfo) (authType : AuthType)
    (t : SessionType) (ip : String) (extra : ExtraData) : RegistryM Session := do
  relogin t username
  let browserType := (extra.browserType.getD (some 0)).getD 0
  if t = .sso then ssoCreate p w info authType ip (some browserType)
  else onService (create p.toPlatform w t info authType ip (some browserType) none)

/-- The tests of `new_session`, and the authentication. -/
def admission (s : Service) (ctx : Ctx) (username password : String) (t : SessionType)
    (domain ip : String) (extra : ExtraData) : Except ServiceErr (AccountInfo × AuthType) :=
  if t = .vnc || t = .video then .error .propertyValueNotInList
  else if t = .sso && !s.ssoEnabled then .error .operationFailed
  else if !extra.isValid then .error .propertyValueNotInList
  else (w.login.authenticate ctx.clientAddr ctx.interface username password t ip domain).mapError
    .login

/-- `new_session`. -/
def newSession (ctx : Ctx) (username password : String) (t : SessionType) (domain ip : String)
    (extra : ExtraData) : RegistryM Session := do
  let s ← get
  let r ← outcome ((admission w s.service ctx username password t domain ip extra).mapError .service)
  let x ←
    if t = .kvm then onService (newKvmSession p.toPlatform w ctx r.1 r.2 ip extra)
    else newOrdinarySession p w username r.1 r.2 t ip extra
  onService (handleIfRemoteSession t r.2 r.1.group)
  pure x

/-- The session that is created from a session of SSO. -/
def newSessionFromSso (ctx : Ctx) (x : Session) (ssoToken : String) (t : SessionType)
    (mode : OccupationMode) : RegistryM Session :=
  match t with
  | .gui => do
    relogin .gui x.username
    onService (create p.toPlatform w .gui x.accountInfo x.authType x.ip x.browserType
      (some ssoToken))
  | .kvm => onService (newKvmSessionBySso p.toPlatform w ctx x mode)
  | _ => throw (.service .propertyValueNotInList)

/-- `new_session_by_sso`: the session of SSO is removed at the end. -/
def newSessionBySso (ctx : Ctx) (ssoToken : String) (t : SessionType) (mode : OccupationMode) :
    RegistryM Session := do
  let s ← get
  let x ← outcome ((s.service.ssoSource p.toPlatform w ctx ssoToken).mapError .service)
  let y ← newSessionFromSso p w ctx x ssoToken t mode
  delete p (.ordinary .sso) (p.generateSessionId ssoToken) .sessionLogout
  pure y

/-- `table.insert` of the session that another request has created. -/
def enter (sh : {sh : Shelf // sh ≠ .cli}) (x : Session) : RegistryM Unit :=
  modify fun s => s.setSessions sh (s.sessions sh
    ++ [{ x with token := w.token, sessionId := p.generateSessionId w.token }])

/-- `create_inner_session`. -/
def createInnerSession (r : Redfish.InnerRequest) (t : Redfish.InnerType) : RegistryM Unit :=
  onInner (Redfish.createInnerSession w.roles r t (p.generateSessionId w.token))

end Create

/-! ## The command line -/

section Cli

variable {Dn : Type} (p : RegistryPlatform) (w : World Dn) (e : Processes)

/-- The account of a user of the command line, and how the user is authenticated. A user of a
domain has no account, and gets `LDAP_USER_GID` and `CommonUser`. -/
def cliAccount (o : OnlineUser) : AccountInfo × AuthType :=
  match w.getAccountByName o.name with
  | none => (⟨o.name, 1000, "", 0, [2], none, none⟩, .ldapAutoMatch)
  | some a =>
    (a.info, if e.accountType a.info.id = .localUser ∨ e.accountType a.info.id = .interChassis
      then .localUser else .ldapAutoMatch)

/-- The session that `create` makes for a user. -/
def cliSession (o : OnlineUser) : Option Session :=
  (newSessionObject { w with token := e.token o.sessionId } p.toPlatform (cliAccount w e o).1
    (cliAccount w e o).2 o.address none none).map fun x =>
      { x with sessionId := o.sessionId, createdTime := o.loginTime, systemId := some (.number 0) }

/-- `create` of the command line. -/
def cliCreate (o : OnlineUser) : RegistryM Unit := do
  let x ← outcome ((orInternal (cliSession p w e o)).mapError .service)
  modify fun s => { s with cli := s.cli ++ [x] }

/-- A session whose process is not there is removed; the identifier of another one is taken from
those that are to be created. -/
def reconcile (cur : String → Option String) (x : Session) :
    RegistryM (String → Option String) :=
  if cur x.sessionId = none then do
    deleteSession p x.sessionId .sessionLogout
    pure cur
  else pure (Function.update cur x.sessionId none)

/-- `cli_cur_session`: the user of each identifier. -/
def cliCurSession (users : List OnlineUser) : String → Option String :=
  users.foldl (fun cur o => Function.update cur o.sessionId (some o.name)) fun _ => none

/-- `update_cli_online_session`. -/
def updateCliOnlineSession : RegistryM Unit := do
  let s ← get
  modify fun s => { s with ldapAuthedAccounts := e.authedLdapUsers }
  let cur ← s.cli.foldlM (reconcile p) (cliCurSession e.online.users)
  e.online.users.forM fun o => onlyIf (cur o.sessionId).isSome (cliCreate p w e o)

end Cli

/-! ## Runs -/

/-- The operations. `enter` is the end of any other request that creates a session, and `configure`
is anything that changes what is configured. -/
inductive Op where
  | newSession (ctx : Ctx) (username password : String) (t : SessionType) (domain ip : String)
      (extra : ExtraData)
  | newSessionBySso (ctx : Ctx) (ssoToken : String) (t : SessionType) (mode : OccupationMode)
  | enter (sh : {sh : Shelf // sh ≠ .cli}) (x : Session)
  | createInnerSession (r : Redfish.InnerRequest) (t : Redfish.InnerType)
  | configure (service : Service)
  | updateCliOnlineSession
  | deleteSession (sessionId : String) (t : LogoutType)
  | deleteSessionByUsername (username : String) (t : LogoutType)
  | cliDeleteByUsername (username : String) (t : LogoutType)
  | deleteSessionByIp (ip : String) (t : LogoutType)
  | deleteRemoteSession (controllerId innerId : Option ℕ) (t : LogoutType)
  | deleteAllSession (ctx : Ctx) (t : LogoutType) (k : Option SessionKind) (ipType : IpType)
  | deleteTimeoutSessionList (sessionIds : List String)

/-- An operation, and what it sees. -/
structure Call (Dn : Type) where
  world : World Dn
  processes : Processes
  op : Op

/-- The state after a call, whether it returns or raises. -/
def after {Dn : Type} (p : RegistryPlatform) (s : Registry) (c : Call Dn) : Registry :=
  match c.op with
  | .newSession ctx username password t domain ip extra =>
    Raise.after (newSession p c.world ctx username password t domain ip extra) s
  | .newSessionBySso ctx ssoToken t mode =>
    Raise.after (newSessionBySso p c.world ctx ssoToken t mode) s
  | .enter sh x => Raise.after (enter p c.world sh x) s
  | .createInnerSession r t => Raise.after (createInnerSession p c.world r t) s
  | .configure service => { s with service := { service with sessions := s.service.sessions } }
  | .updateCliOnlineSession => Raise.after (updateCliOnlineSession p c.world c.processes) s
  | .deleteSession sessionId t => Raise.after (deleteSession p sessionId t) s
  | .deleteSessionByUsername username t => Raise.after (deleteSessionByUsername p username t) s
  | .cliDeleteByUsername username t => Raise.after (cliDeleteByUsername username t) s
  | .deleteSessionByIp ip t => Raise.after (deleteSessionByIp p ip t) s
  | .deleteRemoteSession controllerId innerId t =>
    Raise.after (deleteRemoteSession p c.processes controllerId innerId t) s
  | .deleteAllSession ctx t k ipType => Raise.after (deleteAllSession p c.world ctx t k ipType) s
  | .deleteTimeoutSessionList sessionIds => Raise.after (deleteTimeoutSessionList p sessionIds) s

/-- There are no sessions when the service starts. -/
def start (config : Service) : Registry where
  service := { config with sessions := fun _ => [] }
  cli := []
  interChassis := []
  interChassisGui := []
  inner := ⟨none, none⟩
  ldapAuthedAccounts := []
  logoutCollection := []
  removed := []

end Registry

end Sessions

end BmcAccount
