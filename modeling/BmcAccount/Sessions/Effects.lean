import BmcAccount.Sessions.Service

/-!
# What the operations do to the sessions

An operation that creates no session deletes sessions, and may count the time that the others
have not been used (`after_deletes`). A creation of a session concerns the sessions of its own
type only (`Service.Same`), and the new session is the last one of its type, with the identifier
that is generated for the call (`Service.Enters`).
-/

namespace BmcAccount

namespace Sessions

open Raise

/-! ## Deleting -/

/-- A session without its clocks, and without the mark of its validation. -/
def Session.core (x : Session) : Session :=
  { x with lastActiveTime := 0, validFlag := false, noValidCheckTime := 0 }

/-- Sessions have only been deleted. -/
structure Service.Deletes (s s' : Service) : Prop where
  sessions : ∀ t, ((s'.sessions t).map Session.core).Sublist ((s.sessions t).map Session.core)
  sessionMode : s'.sessionMode = s.sessionMode
  kvmSessionMode : s'.kvmSessionMode = s.kvmSessionMode

theorem Service.Deletes.refl (s : Service) :
  s.Deletes s
  := ⟨fun _ => List.Sublist.refl _, rfl, rfl⟩

theorem Service.Deletes.trans {s₁ s₂ s₃ : Service} (h₁ : s₁.Deletes s₂) (h₂ : s₂.Deletes s₃) :
  s₁.Deletes s₃
  where
    sessions t := (h₂.sessions t).trans (h₁.sessions t)
    sessionMode := h₂.sessionMode.trans h₁.sessionMode
    kvmSessionMode := h₂.kvmSessionMode.trans h₁.kvmSessionMode

@[simp]
theorem Service.sessions_setSessions (s : Service) (t : SessionType) (l : List Session) :
  (s.setSessions t l).sessions t = l
  := by
  simp [Service.setSessions]

theorem Service.sessions_setSessions_ne (s : Service) {t t' : SessionType} (l : List Session)
    (h : t' ≠ t) :
  (s.setSessions t l).sessions t' = s.sessions t'
  := by
  simp [Service.setSessions, h]

theorem Service.deletes_setSessions (s : Service) {t : SessionType} {l : List Session}
    (h : (l.map Session.core).Sublist ((s.sessions t).map Session.core)) :
  s.Deletes (s.setSessions t l)
  where
    sessions t' := by
      by_cases ht : t' = t
      · subst ht
        rwa [s.sessions_setSessions]
      · rw [s.sessions_setSessions_ne l ht]
    sessionMode := rfl
    kvmSessionMode := rfl

theorem Service.deletes_remove (s : Service) (t : SessionType) (removed : Session → Bool) :
  s.Deletes (s.remove t removed)
  := s.deletes_setSessions (List.filter_sublist.map _)

theorem Service.deletes_delete (s : Service) (t : SessionType) (sessionId : String) :
  s.Deletes (s.delete t sessionId)
  := s.deletes_setSessions (List.eraseP_sublist.map _)

/-- A change of the clocks and of the marks. -/
theorem Service.deletes_map (s : Service) (t : SessionType) {f : Session → Session}
    (hf : ∀ x, (f x).core = x.core) :
  s.Deletes (s.setSessions t ((s.sessions t).map f))
  := by
  apply s.deletes_setSessions
  rw [List.map_map]
  exact (List.map_congr_left fun x _ => hf x) ▸ List.Sublist.refl _

theorem Service.deletes_foldl {f : Service → SessionType → Service}
    (hf : ∀ (s : Service) (t : SessionType), s.Deletes (f s t)) (s : Service) (l : List SessionType) :
  s.Deletes (l.foldl f s)
  := by
  induction l generalizing s with
  | nil => exact .refl s
  | cons t l ih => exact (hf s t).trans (ih (f s t))

theorem keeps_deletes_modify (s : Service) {f : Service → Service}
    (hf : ∀ s : Service, s.Deletes (f s)) :
  Keeps s.Deletes (modify f : ServiceM PUnit)
  := Keeps.modify fun s' h => h.trans (hf s')

theorem keeps_deletes_deleteSession (p : Platform) (s : Service) (sessionId : String) :
  Keeps s.Deletes (deleteSession p sessionId)
  := by
  unfold deleteSession
  apply Keeps.bind Keeps.get
  intro s₁
  cases s₁.getSessionBySessionId p sessionId with
  | none => exact Keeps.throw
  | some found => exact keeps_deletes_modify s fun s => s.deletes_delete _ _

theorem keeps_deletes_getTimeoutSessionList (s : Service) (now : ℤ) (t : SessionType) :
  Keeps s.Deletes (getTimeoutSessionList now t)
  := by
  unfold getTimeoutSessionList
  apply Keeps.bind
  · apply keeps_deletes_modify
    intro s
    apply s.deletes_map
    intro x
    by_cases ht : t = .kvm
    · rw [if_pos ht]
      rfl
    · rw [if_neg ht]
      rfl
  · intro _
    apply Keeps.bind Keeps.get
    intro _
    exact Keeps.pure

theorem keeps_deletes_processTimeoutSessions (p : Platform) (s : Service) (now : ℤ) :
  Keeps s.Deletes (processTimeoutSessions p now)
  := by
  unfold processTimeoutSessions
  apply Keeps.forM
  intro t _
  apply Keeps.protect
  · apply Keeps.bind (keeps_deletes_getTimeoutSessionList s now t)
    intro timeout
    apply Keeps.forM
    intro sessionId _
    exact keeps_deletes_deleteSession p s sessionId
  · intro _
    exact Keeps.pure

theorem Service.deletes_validateSession (s : Service) (t : SessionType) (token : String) :
  s.Deletes (s.validateSession t token)
  := by
  unfold Service.validateSession
  by_cases ht : t = .kvm
  · rw [if_pos ht]
    apply s.deletes_map
    intro x
    by_cases hx : x.token = token
    · rw [if_pos hx]
      rfl
    · rw [if_neg hx]
  · rw [if_neg ht]
    exact .refl s

theorem keeps_deletes_deleteAllOfType (p : Platform) (s : Service) (t : SessionType)
    (ipType : IpType) :
  Keeps s.Deletes (deleteAllOfType p t ipType)
  := by
  unfold deleteAllOfType
  apply Keeps.bind Keeps.get
  intro _
  apply Keeps.forM
  intro i _
  unfold deleteAt
  apply Keeps.bind Keeps.get
  intro _
  apply Keeps.bind Keeps.outcome
  intro x
  exact Keeps.onlyIf (keeps_deletes_modify s fun s => s.deletes_delete _ _)

theorem keeps_deletes_deleteAllSession {Dn : Type} (p : Platform) (w : World Dn) (s : Service)
    (ctx : Ctx) (t : Option SessionType) (ipType : IpType) :
  Keeps s.Deletes (deleteAllSession p w ctx t ipType)
  := by
  cases t with
  | none =>
    apply Keeps.forM
    intro t _
    exact keeps_deletes_deleteAllOfType p s t ipType
  | some t =>
    cases t with
    | kvm =>
      apply Keeps.bind Keeps.outcome
      intro _
      unfold deleteAllSystemIdSession
      apply Keeps.bind Keeps.get
      intro _
      apply Keeps.bind Keeps.refuse
      intro _
      exact keeps_deletes_deleteAllOfType p s .kvm .all
    | gui | redfish | sso | vnc | video => exact keeps_deletes_deleteAllOfType p s _ ipType

/-- The operation creates no session. -/
def Op.isDeletion : Op → Bool
  | .newSession _ _ _ _ _ _ _ => false
  | .newRemoteConsoleSession _ _ _ _ => false
  | .newSessionBySso _ _ _ _ => false
  | .newVncSession _ _ _ => false
  | .newMutualAuthSession _ _ _ => false
  | _ => true

section After

variable {Dn : Type} (p : Platform)

theorem keeps_deletes_setKvmKey (w : World Dn) (s : Service) (userName kvmKey : String)
    (mode : OccupationMode) :
  Keeps s.Deletes (setKvmKey w userName kvmKey mode)
  := by
  unfold setKvmKey
  cases w.getAccountByName userName with
  | none => exact Keeps.throw
  | some a =>
    apply Keeps.bind Keeps.refuse
    intro _
    exact keeps_deletes_modify s fun s => ⟨fun _ => List.Sublist.refl _, rfl, rfl⟩

/-- An operation that creates no session only deletes sessions. -/
theorem after_deletes (s : Service) {c : Call Dn} (hc : c.op.isDeletion = true) :
  s.Deletes (s.after p c)
  := by
  obtain ⟨w, op⟩ := c
  cases op with
  | newSession | newRemoteConsoleSession | newSessionBySso | newVncSession
  | newMutualAuthSession => cases hc
  | setKvmKey userName kvmKey mode =>
    exact (keeps_deletes_setKvmKey w s userName kvmKey mode).after (.refl s)
  | validateSession t token => exact s.deletes_validateSession t token
  | deleteSession sessionId => exact (keeps_deletes_deleteSession p s sessionId).after (.refl s)
  | deleteSessionByUsername username =>
    exact Service.deletes_foldl (fun s t => s.deletes_remove t _) s p.pairs
  | deleteSessionByIp ip => exact Service.deletes_foldl (fun s t => s.deletes_remove t _) s p.pairs
  | deleteRemoteSession controllerId innerId =>
    exact Service.deletes_foldl (fun s t => s.deletes_remove t _) s p.pairs
  | deleteAllSession ctx t ipType =>
    exact (keeps_deletes_deleteAllSession p w s ctx t ipType).after (.refl s)
  | processTimeoutSessions =>
    exact (keeps_deletes_processTimeoutSessions p s w.now).after (.refl s)

end After

/-! ## Creating -/

/-- The account has privileges, or roles that are there. -/
def World.knowsPrivileges {Dn : Type} (w : World Dn) (account : AccountInfo) : Bool :=
  account.currentPrivileges.getD [] ≠ [] || (w.sessionPrivilege account.roleId).isSome

/-- A session can be made of the account if its privileges are known. -/
theorem username_newSessionObject {Dn : Type} (p : Platform) (w : World Dn)
    (account : AccountInfo) (authType : AuthType) (ip : String) (browserType : Option ℤ)
    (ssoToken : Option String) :
  (newSessionObject w p account authType ip browserType ssoToken).map (·.username)
    = if w.knowsPrivileges account then some account.userName else none
  := by
  unfold newSessionObject World.knowsPrivileges
  rw [Option.map_map]
  by_cases hp : account.currentPrivileges.getD [] = []
  · cases hs : w.sessionPrivilege account.roleId <;> simp [hp]
  · cases hc : account.currentPrivileges with
    | none => simp [hc] at hp
    | some l => simp [hc] at hp ⊢; simp [hp]

theorem exec_create {Dn : Type} (p : Platform) (w : World Dn) (s : Service) (t : SessionType)
    (account : AccountInfo) (authType : AuthType) (ip : String) (browserType : Option ℤ)
    (ssoToken : Option String) :
  exec (create p w t account authType ip browserType ssoToken) s =
    if s.havaFreeSession t then
      (newSessionObject w p account authType ip browserType ssoToken).elim
        (.error .internal, s) fun x => (.ok x, s.insert t x)
    else (.error .sessionLimitExceeded, s)
  := by
  unfold create
  rw [exec_bind_ok (exec_get s)]
  cases s.havaFreeSession t with
  | false => rfl
  | true =>
    rw [Bool.not_true, exec_bind_ok (exec_refuse_false _ s), if_pos rfl]
    cases newSessionObject w p account authType ip browserType ssoToken with
    | none => rfl
    | some x => rfl

/-- The sessions of a type, and what is recorded of its mode, are the same. -/
def Service.Same (t : SessionType) (s s' : Service) : Prop :=
  s'.sessions t = s.sessions t ∧ s'.sessionMode t = s.sessionMode t
    ∧ (t = .kvm → s'.kvmSessionMode = s.kvmSessionMode)

theorem Service.Same.refl (t : SessionType) (s : Service) :
  s.Same t s
  := ⟨rfl, rfl, fun _ => rfl⟩

section Same

variable {Dn : Type} {p : Platform} {w : World Dn} {s : Service} {t u : SessionType}

theorem keeps_same_modify {f : Service → Service} (hf : ∀ s : Service, s.Same t (f s)) :
  Keeps (s.Same t) (modify f : ServiceM PUnit)
  := by
  apply Keeps.modify
  intro s' h
  have hs' := hf s'
  exact ⟨hs'.1.trans h.1, hs'.2.1.trans h.2.1, fun ht => (hs'.2.2 ht).trans (h.2.2 ht)⟩

theorem Service.same_setSessions (s : Service) (l : List Session) (h : t ≠ u) :
  s.Same t (s.setSessions u l)
  := ⟨s.sessions_setSessions_ne l h, rfl, fun _ => rfl⟩

theorem Service.same_setSessionMode (s : Service) (mode : OccupationMode) (h : t ≠ u) :
  s.Same t (s.setSessionMode u mode)
  := by
  refine ⟨rfl, ?_, fun _ => rfl⟩
  simp [Service.setSessionMode, h]

theorem keeps_same_addSession (h : t ≠ u) (x : Session) :
  Keeps (s.Same t) (addSession u x)
  := by
  apply Keeps.bind (keeps_same_modify fun s => s.same_setSessions _ h)
  intro _
  exact Keeps.pure

theorem keeps_same_create (h : t ≠ u) (account : AccountInfo) (authType : AuthType) (ip : String)
    (browserType : Option ℤ) (ssoToken : Option String) :
  Keeps (s.Same t) (create p w u account authType ip browserType ssoToken)
  := by
  unfold create
  apply Keeps.bind Keeps.get
  intro _
  apply Keeps.bind Keeps.refuse
  intro _
  apply Keeps.bind Keeps.outcome
  intro x
  exact keeps_same_addSession h _

theorem keeps_same_ssoCreate (h : t ≠ .sso) (account : AccountInfo) (authType : AuthType)
    (ip : String) (browserType : Option ℤ) :
  Keeps (s.Same t) (ssoCreate p w account authType ip browserType)
  := by
  unfold ssoCreate
  apply Keeps.bind Keeps.get
  intro _
  apply Keeps.bind (Keeps.onlyIf (keeps_same_modify fun s => s.same_setSessions _ h))
  intro _
  apply Keeps.bind Keeps.outcome
  intro x
  exact keeps_same_addSession h _

theorem keeps_same_kvmCreate (h : t ≠ .kvm) (account : AccountInfo) (authType : AuthType)
    (ip : String) (mode : OccupationMode) (systemId : SystemId) :
  Keeps (s.Same t) (kvmCreate p w account authType ip mode systemId)
  := by
  unfold kvmCreate kvmSessionModeValidator
  apply Keeps.bind Keeps.get
  intro _
  apply Keeps.bind Keeps.refuse
  intro _
  apply Keeps.bind
  · apply Keeps.bind Keeps.get
    intro _
    apply Keeps.bind Keeps.refuse
    intro _
    exact keeps_same_modify fun s => s.same_setSessionMode _ h
  · intro _
    apply Keeps.bind Keeps.outcome
    intro x
    apply Keeps.bind Keeps.get
    intro _
    apply Keeps.bind
    · apply Keeps.modify
      intro _ hs
      exact ⟨hs.1, hs.2.1, fun ht => absurd ht h⟩
    · intro _
      exact keeps_same_addSession h _

theorem keeps_same_vncCreate (h : t ≠ .vnc) (account : AccountInfo) (mode : OccupationMode)
    (ip : String) :
  Keeps (s.Same t) (vncCreate p w account mode ip)
  := by
  unfold vncCreate vncSessionModeValidator
  apply Keeps.bind Keeps.get
  intro _
  apply Keeps.bind Keeps.refuse
  intro _
  apply Keeps.bind
  · apply Keeps.bind Keeps.get
    intro _
    apply Keeps.bind Keeps.refuse
    intro _
    exact keeps_same_modify fun s => s.same_setSessionMode _ h
  · intro _
    apply Keeps.bind Keeps.outcome
    intro x
    apply Keeps.bind Keeps.get
    intro _
    exact keeps_same_addSession h _

theorem keeps_same_videoCreate (h : t ≠ .video) (account : AccountInfo) (authType : AuthType)
    (ip : String) (mode : OccupationMode) :
  Keeps (s.Same t) (videoCreate p w account authType ip mode)
  := by
  unfold videoCreate
  apply Keeps.bind Keeps.refuse
  intro _
  apply Keeps.bind Keeps.get
  intro _
  apply Keeps.bind Keeps.refuse
  intro _
  apply Keeps.bind Keeps.refuse
  intro _
  apply Keeps.bind Keeps.outcome
  intro x
  exact keeps_same_addSession h _

theorem keeps_same_newKvmSession (h : t ≠ .kvm) (ctx : Ctx) (info : AccountInfo)
    (authType : AuthType) (ip : String) (extra : ExtraData) :
  Keeps (s.Same t) (newKvmSession p w ctx info authType ip extra)
  := by
  unfold newKvmSession
  apply Keeps.bind Keeps.get
  intro _
  apply Keeps.bind Keeps.outcome
  intro r
  exact keeps_same_kvmCreate h _ _ _ _ _

theorem keeps_same_newOrdinarySession (h : t ≠ u) (username : String) (info : AccountInfo)
    (authType : AuthType) (ip : String) (extra : ExtraData) :
  Keeps (s.Same t) (newOrdinarySession p w username info authType u ip extra)
  := by
  unfold newOrdinarySession
  apply Keeps.bind Keeps.get
  intro _
  apply Keeps.bind (Keeps.onlyIf (keeps_same_modify fun s => s.same_setSessions _ h))
  intro _
  by_cases hu : u = .sso
  · subst hu
    exact keeps_same_ssoCreate h _ _ _ _
  · rw [if_neg hu]
    exact keeps_same_create h _ _ _ _ _

theorem keeps_same_handleIfRemoteSession (h : t ≠ u) (authType : AuthType)
    (group : Option RemoteDict) :
  Keeps (s.Same t) (handleIfRemoteSession u authType group)
  := Keeps.onlyIf (keeps_same_modify fun s => s.same_setSessions _ h)

theorem keeps_same_newSession (h : t ≠ u) (ctx : Ctx) (username password domain ip : String)
    (extra : ExtraData) :
  Keeps (s.Same t) (newSession p w ctx username password u domain ip extra)
  := by
  unfold newSession
  apply Keeps.bind Keeps.refuse
  intro _
  apply Keeps.bind Keeps.get
  intro _
  apply Keeps.bind Keeps.refuse
  intro _
  apply Keeps.bind Keeps.refuse
  intro _
  cases w.login.authenticate ctx.clientAddr ctx.interface username password u ip domain with
  | error e => exact Keeps.throw
  | ok r =>
    apply Keeps.bind
    · unfold newAuthenticatedSession
      by_cases hu : u = .kvm
      · subst hu
        exact keeps_same_newKvmSession h _ _ _ _ _
      · rw [if_neg hu]
        exact keeps_same_newOrdinarySession h _ _ _ _ _
    · intro x
      apply Keeps.bind (keeps_same_handleIfRemoteSession h _ _)
      intro _
      exact Keeps.pure

theorem keeps_same_createRemoteSessionBySession (h : t ≠ u)
    (hvideo : u ≠ .kvm → t ≠ .video) (x : Session) (mode : OccupationMode)
    (systemId : SystemId) :
  Keeps (s.Same t) (createRemoteSessionBySession p w x u mode systemId)
  := by
  unfold createRemoteSessionBySession
  by_cases hu : u = .kvm
  · subst hu
    apply Keeps.bind Keeps.outcome
    intro r
    exact keeps_same_kvmCreate h _ _ _ _ _
  · rw [if_neg hu]
    apply Keeps.bind Keeps.outcome
    intro _
    exact keeps_same_videoCreate (hvideo hu) _ _ _ _

theorem keeps_same_createRemoteSessionByKey (h : t ≠ .kvm) (ctx : Ctx) (k : KvmKey)
    (systemId : SystemId) :
  Keeps (s.Same t) (createRemoteSessionByKey p w ctx k systemId)
  := by
  unfold createRemoteSessionByKey
  apply Keeps.bind
  · apply Keeps.modify
    intro _ hs
    exact hs
  · intro _
    apply Keeps.bind Keeps.outcome
    intro r
    exact keeps_same_kvmCreate h _ _ _ _ _

theorem keeps_same_newRemoteConsoleSessionKvm (h : t ≠ .kvm) (ctx : Ctx) (token : String)
    (mode : OccupationMode) (systemId : SystemId) :
  Keeps (s.Same t) (newRemoteConsoleSessionKvm p w ctx token mode systemId)
  := by
  unfold newRemoteConsoleSessionKvm
  apply Keeps.bind Keeps.get
  intro s₁
  apply Keeps.bind
  · apply Keeps.modify
    intro _ hs
    exact hs
  · intro _
    apply Keeps.bind Keeps.outcome
    intro source
    cases source with
    | session x => exact keeps_same_createRemoteSessionBySession h (fun hu => absurd rfl hu) _ _ _
    | key k => exact keeps_same_createRemoteSessionByKey h _ _ _

theorem keeps_same_newRemoteConsoleSession (hkvm : t ≠ .kvm ∨ u ≠ .kvm)
    (hvideo : t ≠ .video ∨ u ≠ .video) (ctx : Ctx) (token : String) (mode : OccupationMode) :
  Keeps (s.Same t) (newRemoteConsoleSession p w ctx token u mode)
  := by
  cases u with
  | kvm =>
    apply Keeps.bind Keeps.outcome
    intro systemId
    exact keeps_same_newRemoteConsoleSessionKvm (by simpa using hkvm) _ _ _ systemId
  | video =>
    have hvideo : t ≠ .video := by simpa using hvideo
    change Keeps _ (newRemoteConsoleSessionVideo p w token mode)
    unfold newRemoteConsoleSessionVideo
    apply Keeps.bind Keeps.get
    intro s₁
    cases s₁.parent p token with
    | none => exact Keeps.throw
    | some x => exact keeps_same_createRemoteSessionBySession hvideo (fun _ => hvideo) _ _ _
  | gui | redfish | sso | vnc => exact Keeps.throw

theorem keeps_same_newVncSession (h : t ≠ .vnc) (ctx : Ctx)
    (vncAccount : Except LoginErr AccountInfo) (sessionMode : ℤ) :
  Keeps (s.Same t) (newVncSession p w ctx vncAccount sessionMode)
  := by
  unfold newVncSession
  apply Keeps.bind Keeps.get
  intro _
  apply Keeps.bind Keeps.outcome
  intro r
  cases r with
  | none => exact Keeps.pure
  | some r =>
    apply Keeps.bind (keeps_same_vncCreate h _ _ _)
    intro _
    exact Keeps.pure

theorem keeps_same_newMutualAuthSession (h : t ≠ .gui) (ctx : Ctx) (userId : Option ℤ)
    (ip : String) :
  Keeps (s.Same t) (newMutualAuthSession p w ctx userId ip)
  := by
  unfold newMutualAuthSession
  cases userId.bind w.getAccountById with
  | none => exact Keeps.throw
  | some a =>
    apply Keeps.bind Keeps.refuse
    intro _
    exact keeps_same_create h _ _ _ _ _

theorem keeps_same_newSessionFromSso (h : t ≠ u) (ctx : Ctx) (x : Session) (ssoToken : String)
    (mode : OccupationMode) :
  Keeps (s.Same t) (newSessionFromSso p w ctx x ssoToken u mode)
  := by
  cases u with
  | gui =>
    change Keeps _ (newGuiSessionBySso p w x ssoToken)
    unfold newGuiSessionBySso
    apply Keeps.bind Keeps.get
    intro _
    apply Keeps.bind (Keeps.onlyIf (keeps_same_modify fun s => s.same_setSessions _ h))
    intro _
    exact keeps_same_create h _ _ _ _ _
  | kvm =>
    change Keeps _ (newKvmSessionBySso p w ctx x mode)
    unfold newKvmSessionBySso
    apply Keeps.bind Keeps.get
    intro _
    apply Keeps.bind Keeps.outcome
    intro r
    exact keeps_same_kvmCreate h _ _ _ _ _
  | redfish | sso | vnc | video => exact Keeps.throw

theorem keeps_same_newSessionBySso (h : t ≠ u) (hsso : t ≠ .sso) (ctx : Ctx)
    (ssoToken : String) (mode : OccupationMode) :
  Keeps (s.Same t) (newSessionBySso p w ctx ssoToken u mode)
  := by
  unfold newSessionBySso
  apply Keeps.bind Keeps.get
  intro s₁
  apply Keeps.bind Keeps.outcome
  intro x
  apply Keeps.bind (keeps_same_newSessionFromSso h _ _ _ _)
  intro _
  apply Keeps.bind (keeps_same_modify fun s => s.same_setSessions _ hsso)
  intro _
  exact Keeps.pure

end Same

/-! ### The new session -/

/-- A new session with the identifier and without a dictionary is the last one of its type, and the
other sessions are the same. -/
structure Service.Enters (i : String) (t : SessionType) (s : Service) (x : Session)
    (s' : Service) : Prop where
  sessionId : x.sessionId = i
  remoteDict : x.remoteDict = none
  sessions : s'.sessions = (s.insert t x).sessions

/-- The sessions are the same. -/
def Service.SameSessions (s s' : Service) : Prop := s'.sessions = s.sessions

section Enters

variable {Dn : Type} {p : Platform} {w : World Dn} {s : Service} {t : SessionType}

theorem orInternal_eq_ok {α : Type} {x : Option α} {a : α} (h : orInternal x = .ok a) :
  x = some a
  := by
  cases x with
  | none => cases h
  | some b => exact congrArg some (Except.ok.inj h)

theorem newSessionObject_eq_some {account : AccountInfo} {authType : AuthType} {ip : String}
    {browserType : Option ℤ} {ssoToken : Option String} {x : Session}
    (h : newSessionObject w p account authType ip browserType ssoToken = some x) :
  x.sessionId = p.generateSessionId w.token ∧ x.remoteDict = none
  := by
  unfold newSessionObject at h
  obtain ⟨privilege, _, rfl⟩ := Option.map_eq_some_iff.mp h
  exact ⟨rfl, rfl⟩

theorem enters_addSession {x : Session} {i : String}
    (hx : x.sessionId = i ∧ x.remoteDict = none) {E : Service → Prop} :
  Spec s.SameSessions (addSession t x) (s.Enters i t) E
  := by
  intro s' hs
  refine ⟨hx.1, hx.2, ?_⟩
  change (s'.insert t x).sessions = _
  unfold Service.insert Service.setSessions
  rw [hs]

/-- A new session that is placed and added. -/
theorem enters_newSessionObject {f : Session → Session}
    (hf : ∀ x, (f x).sessionId = x.sessionId ∧ (f x).remoteDict = x.remoteDict)
    (account : AccountInfo) (authType : AuthType) (ip : String) (browserType : Option ℤ)
    (ssoToken : Option String) :
  Spec s.SameSessions
    (outcome (orInternal (newSessionObject w p account authType ip browserType ssoToken))
      >>= fun x => addSession t (f x))
    (s.Enters (p.generateSessionId w.token) t) s.SameSessions
  := by
  apply Spec.outcome_bind fun _ h => h
  intro x hx
  obtain ⟨hid, hdict⟩ := newSessionObject_eq_some (orInternal_eq_ok hx)
  obtain ⟨hfid, hfdict⟩ := hf x
  exact enters_addSession ⟨hfid.trans hid, hfdict.trans hdict⟩

theorem enters_create (account : AccountInfo) (authType : AuthType) (ip : String)
    (browserType : Option ℤ) (ssoToken : Option String) :
  Spec s.SameSessions (create p w t account authType ip browserType ssoToken)
    (s.Enters (p.generateSessionId w.token) t) s.SameSessions
  := by
  unfold create
  apply Spec.keeps_bind Keeps.get fun _ h => h
  intro _
  apply Spec.refuse_bind fun _ h => h
  intro _
  exact enters_newSessionObject (fun _ => ⟨rfl, rfl⟩) account authType ip browserType ssoToken

theorem enters_kvmCreate (account : AccountInfo) (authType : AuthType) (ip : String)
    (mode : OccupationMode) (systemId : SystemId) :
  Spec s.SameSessions (kvmCreate p w account authType ip mode systemId)
    (s.Enters (p.generateSessionId w.token) .kvm) s.SameSessions
  := by
  unfold kvmCreate kvmSessionModeValidator
  apply Spec.keeps_bind Keeps.get fun _ h => h
  intro _
  apply Spec.refuse_bind fun _ h => h
  intro _
  apply Spec.keeps_bind _ fun _ h => h
  · intro _
    apply Spec.outcome_bind fun _ h => h
    intro x hx
    apply Spec.keeps_bind Keeps.get fun _ h => h
    intro _
    apply Spec.keeps_bind _ fun _ h => h
    · intro _
      have hnew := newSessionObject_eq_some (orInternal_eq_ok hx)
      exact enters_addSession (x := x.place _ systemId) hnew
    · exact Keeps.modify fun _ h => h
  · apply Keeps.bind Keeps.get
    intro _
    apply Keeps.bind Keeps.refuse
    intro _
    exact Keeps.modify fun _ h => h

theorem enters_videoCreate (account : AccountInfo) (authType : AuthType) (ip : String)
    (mode : OccupationMode) :
  Spec s.SameSessions (videoCreate p w account authType ip mode)
    (s.Enters (p.generateSessionId w.token) .video) s.SameSessions
  := by
  unfold videoCreate
  apply Spec.refuse_bind fun _ h => h
  intro _
  apply Spec.keeps_bind Keeps.get fun _ h => h
  intro _
  apply Spec.refuse_bind fun _ h => h
  intro _
  apply Spec.refuse_bind fun _ h => h
  intro _
  exact enters_newSessionObject (f := (·.place none (.number 0))) (fun _ => ⟨rfl, rfl⟩) account
    authType ip none none

theorem enters_newKvmSession (ctx : Ctx) (info : AccountInfo) (authType : AuthType) (ip : String)
    (extra : ExtraData) :
  Spec s.SameSessions (newKvmSession p w ctx info authType ip extra)
    (s.Enters (p.generateSessionId w.token) .kvm) s.SameSessions
  := by
  unfold newKvmSession
  apply Spec.keeps_bind Keeps.get fun _ h => h
  intro _
  apply Spec.outcome_bind fun _ h => h
  intro r _
  exact enters_kvmCreate _ _ _ _ _

theorem enters_newKvmSessionBySso (ctx : Ctx) (x : Session) (mode : OccupationMode) :
  Spec s.SameSessions (newKvmSessionBySso p w ctx x mode)
    (s.Enters (p.generateSessionId w.token) .kvm) s.SameSessions
  := by
  unfold newKvmSessionBySso
  apply Spec.keeps_bind Keeps.get fun _ h => h
  intro _
  apply Spec.outcome_bind fun _ h => h
  intro r _
  exact enters_kvmCreate _ _ _ _ _

theorem enters_createRemoteSessionBySession (x : Session) (ht : t = .kvm ∨ t = .video)
    (mode : OccupationMode) (systemId : SystemId) :
  Spec s.SameSessions (createRemoteSessionBySession p w x t mode systemId)
    (s.Enters (p.generateSessionId w.token) t) s.SameSessions
  := by
  unfold createRemoteSessionBySession
  apply Spec.ite
  · rintro rfl
    apply Spec.outcome_bind fun _ h => h
    intro r _
    exact enters_kvmCreate _ _ _ _ _
  · intro hkvm
    obtain rfl := ht.resolve_left hkvm
    apply Spec.outcome_bind fun _ h => h
    intro _ _
    exact enters_videoCreate _ _ _ _

theorem enters_createRemoteSessionByKey (ctx : Ctx) (k : KvmKey) (systemId : SystemId) :
  Spec s.SameSessions (createRemoteSessionByKey p w ctx k systemId)
    (s.Enters (p.generateSessionId w.token) .kvm) s.SameSessions
  := by
  unfold createRemoteSessionByKey
  apply Spec.keeps_bind _ fun _ h => h
  · intro _
    apply Spec.outcome_bind fun _ h => h
    intro r _
    exact enters_kvmCreate _ _ _ _ _
  · exact Keeps.modify fun _ h => h

theorem enters_newRemoteConsoleSession (ctx : Ctx) (token : String) (mode : OccupationMode) :
  Spec s.SameSessions (newRemoteConsoleSession p w ctx token t mode)
    (s.Enters (p.generateSessionId w.token) t) s.SameSessions
  := by
  cases t with
  | kvm =>
    apply Spec.outcome_bind fun _ h => h
    intro systemId _
    unfold newRemoteConsoleSessionKvm
    apply Spec.keeps_bind Keeps.get fun _ h => h
    intro _
    apply Spec.keeps_bind _ fun _ h => h
    · intro _
      apply Spec.outcome_bind fun _ h => h
      intro source _
      cases source with
      | session x => exact enters_createRemoteSessionBySession x (.inl rfl) _ _
      | key k => exact enters_createRemoteSessionByKey ctx k _
    · exact Keeps.modify fun _ h => h
  | video =>
    change Spec _ (newRemoteConsoleSessionVideo p w token mode) _ _
    unfold newRemoteConsoleSessionVideo
    apply Spec.keeps_bind Keeps.get fun _ h => h
    intro s₁
    cases s₁.parent p token with
    | none => exact Spec.throw fun _ h => h
    | some x => exact enters_createRemoteSessionBySession x (.inr rfl) _ _
  | gui | redfish | sso | vnc => exact Spec.throw fun _ h => h

end Enters

/-! ## Logins -/

section Login

variable {Dn : Type} (w : World Dn)

/-- A login for a session of a type is admitted, and the authentication returns `r`. -/
structure Service.Admits (s : Service) (ctx : Ctx) (username password : String) (t : SessionType)
    (domain ip : String) (extra : ExtraData) (r : AccountInfo × AuthType) : Prop where
  type : t ≠ .vnc ∧ t ≠ .video
  sso : t = .sso → s.ssoEnabled = true
  extra : extra.isValid = true
  login : w.login.authenticate ctx.clientAddr ctx.interface username password t ip domain = .ok r

variable {w} {p : Platform} {s : Service} {ctx : Ctx} {username password domain ip : String}
  {t : SessionType} {extra : ExtraData}

theorem exec_newSession {r : AccountInfo × AuthType}
    (h : s.Admits w ctx username password t domain ip extra r) :
  exec (newSession p w ctx username password t domain ip extra) s =
    exec (newAuthenticatedSession p w ctx username r.1 r.2 t ip extra >>= fun x =>
      handleIfRemoteSession t r.2 r.1.group >>= fun _ => pure x) s
  := by
  have htype : (decide (t = .vnc) || decide (t = .video)) = false := by
    simp [h.type]
  have hsso : (decide (t = .sso) && !s.ssoEnabled) = false := by
    by_cases ht : t = .sso
    · simp [h.sso ht]
    · simp [ht]
  unfold newSession
  rw [htype, exec_bind_ok (exec_refuse_false _ s), exec_bind_ok (exec_get s), hsso,
    exec_bind_ok (exec_refuse_false _ s), h.extra, Bool.not_true,
    exec_bind_ok (exec_refuse_false _ s), h.login]

theorem after_newSession_of_not
    (h : ∀ r, ¬ s.Admits w ctx username password t domain ip extra r) :
  Raise.after (newSession p w ctx username password t domain ip extra) s = s
  := by
  unfold Raise.after newSession
  cases htype : decide (t = .vnc) || decide (t = .video) with
  | true => rw [exec_bind_error (exec_refuse_true _ s)]
  | false =>
    rw [exec_bind_ok (exec_refuse_false _ s), exec_bind_ok (exec_get s)]
    cases hsso : decide (t = .sso) && !s.ssoEnabled with
    | true => rw [exec_bind_error (exec_refuse_true _ s)]
    | false =>
      rw [exec_bind_ok (exec_refuse_false _ s)]
      cases hextra : extra.isValid with
      | false => rw [Bool.not_false, exec_bind_error (exec_refuse_true _ s)]
      | true =>
        rw [Bool.not_true, exec_bind_ok (exec_refuse_false _ s)]
        cases hlogin : w.login.authenticate ctx.clientAddr ctx.interface username password t ip
          domain with
        | error e => rfl
        | ok r =>
          refine absurd ?_ (h r)
          exact
            { type := by simpa using htype
              sso := fun ht => by simpa [ht] using hsso
              extra := hextra
              login := hlogin }

end Login

end Sessions

end BmcAccount
