import BmcAccount.Sessions.Effects

/-!
# Sessions and the account cache

The service copies the privileges of an account into a session when the session is created, and
keeps a cache of the accounts that follows the signals of the account component. Some of the
signals delete the sessions of the user. A change of the privileges alone deletes none, and a
pass that compares the cache with the account component replaces what it holds, or drops an
account that is gone, without deleting a session either. `run_follows_iff` says when the
sessions of local users follow their accounts all the same.
-/

namespace BmcAccount

namespace Sessions

open Raise

/-! ## The cache -/

/-- What the cache reads of the object of an account, whose identifier is that of its path. -/
structure AccountObject where
  userName : String
  roleId : ℕ
  lastLoginIp : String
  lastLoginTime : ℕ
  privileges : List PrivilegeType
  passwordChangeRequired : Bool
  firstLoginPolicy : FirstLoginPolicy

/-- An entry of `cache_collection`. -/
structure CacheEntry where
  account : CachedAccount
  isFlush : Bool

/-- What `flush_account_cache` writes. -/
def AccountObject.entry (obj : AccountObject) (id : ℕ) : CacheEntry where
  account :=
    { info :=
        { userName := obj.userName
          id := id
          lastLoginIp := obj.lastLoginIp
          lastLoginTime := obj.lastLoginTime
          roleId := [obj.roleId]
          currentPrivileges := some obj.privileges
          group := none }
      passwordChangeRequired := obj.passwordChangeRequired
      firstLoginPolicy := obj.firstLoginPolicy }
  isFlush := true

/-- A property that a signal carries with its new value. -/
inductive Property where
  | userName (value : String)
  | roleId (value : ℕ)
  | lastLoginIp (value : String)
  | lastLoginTime (value : ℕ)
  | privileges (value : List PrivilegeType)
  | passwordChangeRequired (value : Bool)
  | firstLoginPolicy (value : FirstLoginPolicy)
  | enabled (value : Bool)
  | locked (value : Bool)
  | loginInterface (value : ℕ)

/-- `edit_account_cache`, for the properties of `properties_listener_map`. -/
def Property.edit (property : Property) (e : CacheEntry) : CacheEntry :=
  match property with
  | .userName value => { e with account.info.userName := value }
  | .roleId value => { e with account.info.roleId := [value] }
  | .lastLoginIp value => { e with account.info.lastLoginIp := value }
  | .lastLoginTime value => { e with account.info.lastLoginTime := value }
  | .privileges value => { e with account.info.currentPrivileges := some value }
  | .passwordChangeRequired value => { e with account.passwordChangeRequired := value }
  | .firstLoginPolicy value => { e with account.firstLoginPolicy := value }
  | .enabled _ | .locked _ | .loginInterface _ => e

/-- The properties of `security_config_map`. -/
def Property.isSecurity : Property → Bool
  | .userName _ | .roleId _ | .enabled _ | .locked _ | .loginInterface _ => true
  | _ => false

/-- The user of an entry, and the privileges. -/
def CacheEntry.userName (e : CacheEntry) : String := e.account.info.userName

def CacheEntry.privileges (e : CacheEntry) : List PrivilegeType :=
  e.account.info.currentPrivileges.getD []

/-- The accounts of the cache under their identifiers. -/
abbrev AccountCache : Type := ℕ → Option CacheEntry

/-- The caches of the accounts and of the privileges of the roles, and the service. -/
structure Iam where
  cache : AccountCache
  roles : ℕ → Option (List PrivilegeType)
  service : Service

/-- The sessions of a user are deleted. -/
def Iam.kick (p : Platform) (s : Iam) (username : String) : Iam :=
  { s with service := s.service.deleteSessionByUsername p username }

/-- The cache with another entry, or with none. -/
def Iam.write (s : Iam) (id : ℕ) (e : Option CacheEntry) : Iam :=
  { s with cache := Function.update s.cache id e }

@[simp]
theorem Iam.cache_write_self (s : Iam) (id : ℕ) (e : Option CacheEntry) :
  (s.write id e).cache id = e
  := by simp [Iam.write]

theorem Iam.cache_write_of_ne (s : Iam) {id id' : ℕ} (h : id' ≠ id) (e : Option CacheEntry) :
  (s.write id e).cache id' = s.cache id'
  := by simp [Iam.write, h]

/-- `new_account_cache`. -/
def Iam.newAccountCache (s : Iam) (id : ℕ) (obj : AccountObject) : Iam :=
  s.write id (some (obj.entry id))

/-- `del_account_cache`, with what the signal of it does. -/
def Iam.delAccountCache (p : Platform) (s : Iam) (id : ℕ) : Iam :=
  match s.cache id with
  | none => s
  | some e => (s.write id none).kick p e.userName

/-- One pass of the loop over the properties that have changed. The user is that of the entry
before it is edited. -/
def Iam.changeProperty (p : Platform) (id : ℕ) (s : Iam) (property : Property) : Iam :=
  match s.cache id with
  | none => s
  | some e =>
    let s := s.write id (some (property.edit e))
    if property.isSecurity then s.kick p e.userName else s

/-- The handler of the properties that have changed, in the order of `pairs`. -/
def Iam.changeProperties (p : Platform) (s : Iam) (id : ℕ) (properties : List Property) : Iam :=
  properties.foldl (Iam.changeProperty p id) s

/-- The identifiers that `sync_account_info` goes through. -/
def accountIds : List ℕ :=
  List.range' 18 6 ++ List.range' 2 16 ++ List.range' 101 15

/-- `sync_obj`, for an object that can be read. -/
def syncObj (objs : ℕ → Option AccountObject) (cache : AccountCache) (id : ℕ) : AccountCache :=
  match objs id with
  | none => cache
  | some obj => Function.update cache id (some (obj.entry id))

/-- `sync_account_info`: the marks are cleared, the objects that can be read are written, and
what is not marked is dropped. -/
def Iam.syncAccountInfo (s : Iam) (objs : ℕ → Option AccountObject) : Iam :=
  let cache : AccountCache := fun id => (s.cache id).map fun e => { e with isFlush := false }
  let cache := accountIds.foldl (syncObj objs) cache
  { s with cache := fun id => (cache id).filter fun e => e.isFlush }

/-- `edit_role_cache` for `RolePrivilege`. -/
def Iam.editRoleCache (s : Iam) (roleId : ℕ) (rolePrivilege : List PrivilegeType) : Iam :=
  { s with roles := Function.update s.roles roleId ((s.roles roleId).map fun _ => rolePrivilege) }

/-! ## Runs -/

/-- An event: a call of the service, a signal of the account component, a change of a role, or a
pass over the accounts. -/
inductive Event (Dn : Type) where
  | call (order : List ℕ) (c : Call Dn)
  | accountAdded (id : ℕ) (obj : Option AccountObject)
  | accountRemoved (id : ℕ)
  | accountChanged (id : ℕ) (properties : List Property)
  | roleChanged (roleId : ℕ) (rolePrivilege : List PrivilegeType)
  | syncAccountInfo (objs : ℕ → Option AccountObject)

section Run

variable {Dn : Type}

/-- What a call sees: the accounts of the cache in the order of `pairs`, and the roles. -/
def Iam.world (s : Iam) (order : List ℕ) (w : World Dn) : World Dn :=
  { w with
    roles := s.roles
    accounts := order.filterMap fun id => (s.cache id).map (·.account) }

/-- The state after an event and the deletions of sessions that it forks. -/
def Iam.step (p : Platform) (s : Iam) : Event Dn → Iam
  | .call order c => { s with service := s.service.after p { c with world := s.world order c.world } }
  | .accountAdded id obj => obj.elim s (s.newAccountCache id)
  | .accountRemoved id => s.delAccountCache p id
  | .accountChanged id properties => s.changeProperties p id properties
  | .roleChanged roleId rolePrivilege => s.editRoleCache roleId rolePrivilege
  | .syncAccountInfo objs => s.syncAccountInfo objs

end Run

/-! ## The sessions of local users -/

/-- A session of the web or of Redfish that belongs to a local account. -/
def Service.Live (s : Service) (x : Session) : Prop :=
  (x ∈ s.sessions .gui ∨ x ∈ s.sessions .redfish) ∧ x.authType = .localUser

/-- The entry has the user and the privileges. -/
def CacheEntry.Covers (e : CacheEntry) (username : String) (privilege : List PrivilegeType) :
    Prop :=
  e.userName = username ∧ privilege ⊆ e.privileges

/-- An account of the cache has the user and the privileges. -/
def AccountCache.Covers (cache : AccountCache) (username : String)
    (privilege : List PrivilegeType) : Prop :=
  ∃ id e, cache id = some e ∧ e.Covers username privilege

/-- The sessions of local users follow their accounts: the user is in the cache, and has the
privileges of the session. -/
def Iam.Follows (s : Iam) : Prop :=
  ∀ x, s.service.Live x → s.cache.Covers x.username x.privilege

/-! ## When they do -/

/-- Another account than that with the identifier covers a session. -/
def AccountCache.CoversElsewhere (cache : AccountCache) (id : ℕ) (x : Session) : Prop :=
  ∃ id' e, id' ≠ id ∧ cache id' = some e ∧ e.Covers x.username x.privilege

/-- The privileges that a signal carries, if there are any. -/
def newPrivileges (properties : List Property) : Option (List PrivilegeType) :=
  properties.foldl (fun r property =>
    match property with
    | .privileges value => some value
    | _ => r) none

section Condition

variable {Dn : Type}

/-- The privileges that a session of an account gets. -/
def World.privileges (w : World Dn) (account : AccountInfo) : Option (List PrivilegeType) :=
  if account.currentPrivileges.getD [] = [] then w.sessionPrivilege account.roleId
  else account.currentPrivileges

/-- The sessions after those of a user who logs in again are deleted. -/
def Service.relogin (s : Service) (t : SessionType) (username : String) : Service :=
  if s.sessionMode t = .exclusive then s.deleteByUsername t username else s

/-- A session of the account is not one of a local user, or is covered. -/
def Iam.CoversAccount (s : Iam) (w : World Dn) (account : AccountInfo) (authType : AuthType) :
    Prop :=
  authType = .localUser → ∀ privilege ∈ w.privileges account,
    s.cache.Covers account.userName privilege

/-- If a call is to create a session of the web or of Redfish, then what the authentication
returns is covered by the cache. -/
def Iam.MeetsCall (p : Platform) (s : Iam) (c : Call Dn) : Prop :=
  match c.op with
  | .newSession ctx username password t domain ip extra =>
    t = .gui ∨ t = .redfish →
      ∀ r, s.service.Admits c.world ctx username password t domain ip extra r →
        (s.service.relogin t username).havaFreeSession t = true → s.CoversAccount c.world r.1 r.2
  | .newSessionBySso ctx ssoToken .gui _ =>
    ∀ x, s.service.ssoSource p c.world ctx ssoToken = .ok x →
      (s.service.relogin .gui x.username).havaFreeSession .gui = true →
      s.CoversAccount c.world x.accountInfo x.authType
  | .newMutualAuthSession ctx userId ip =>
    ∀ a ∈ userId.bind c.world.getAccountById,
      c.world.login.component.mutualAuthAuthentication a.info.userName ip ctx.interface = true →
      s.service.havaFreeSession .gui = true → s.CoversAccount c.world a.info .localUser
  | _ => True

/-- A session is created of an account as the cache has it. An account that is added under an
identifier that is in use, and a change of the privileges that comes without a change that deletes
the sessions, leave the privileges of the sessions to the user. A pass finds the accounts of the
sessions as they were. -/
def Iam.Meets (p : Platform) (s : Iam) : Event Dn → Prop
  | .call order c => s.MeetsCall p { c with world := s.world order c.world }
  | .accountAdded id obj =>
    ∀ o ∈ obj, ∀ e ∈ s.cache id, ∀ x, s.service.Live x → e.Covers x.username x.privilege →
      s.cache.CoversElsewhere id x ∨ (o.entry id).Covers x.username x.privilege
  | .accountChanged id properties =>
    properties.any Property.isSecurity = false →
      ∀ privileges ∈ newPrivileges properties, ∀ e ∈ s.cache id, ∀ x, s.service.Live x →
        e.Covers x.username x.privilege →
        s.cache.CoversElsewhere id x ∨ x.privilege ⊆ privileges
  | .syncAccountInfo objs =>
    ∀ x, s.service.Live x →
      ∃ id ∈ accountIds, ∃ o ∈ objs id, (o.entry id).Covers x.username x.privilege
  | .accountRemoved _ | .roleChanged _ _ => True

end Condition

/-! ## What a session is made from -/

/-- What matters of a session. -/
def Session.key (x : Session) : AuthType × String × List PrivilegeType :=
  (x.authType, x.username, x.privilege)

/-- What matters of the sessions of a type. -/
def Service.keys (s : Service) (t : SessionType) : List (AuthType × String × List PrivilegeType) :=
  (s.sessions t).map Session.key

/-- The sessions of local users satisfy a predicate. -/
def Service.Local (P : String → List PrivilegeType → Prop) (s : Service) : Prop :=
  ∀ t, t = .gui ∨ t = .redfish → ∀ k ∈ s.keys t, k.1 = .localUser → P k.2.1 k.2.2

theorem local_iff_live (P : String → List PrivilegeType → Prop) (s : Service) :
  s.Local P ↔ ∀ x, s.Live x → P x.username x.privilege
  := by
  constructor
  · rintro h x ⟨hx | hx, htype⟩
    · exact h .gui (Or.inl rfl) x.key (List.mem_map_of_mem hx) htype
    · exact h .redfish (Or.inr rfl) x.key (List.mem_map_of_mem hx) htype
  · intro h t ht k hk htype
    obtain ⟨x, hx, rfl⟩ := List.mem_map.mp hk
    apply h x
    rcases ht with rfl | rfl
    · exact ⟨Or.inl hx, htype⟩
    · exact ⟨Or.inr hx, htype⟩

/-- The sessions follow their accounts if each of them is covered. -/
theorem follows_iff (s : Iam) :
  s.Follows ↔ s.service.Local s.cache.Covers
  := (local_iff_live _ _).symm

theorem Service.Local.mono {P Q : String → List PrivilegeType → Prop} {s s' : Service}
    (h : s.Local P) (hkeys : ∀ t, t = .gui ∨ t = .redfish → s'.keys t ⊆ s.keys t)
    (hPQ : ∀ t, t = .gui ∨ t = .redfish → ∀ k ∈ s'.keys t, P k.2.1 k.2.2 → Q k.2.1 k.2.2) :
  s'.Local Q
  := by
  intro t ht k hk htype
  exact hPQ t ht k hk (h t ht k (hkeys t ht hk) htype)

theorem Service.Same.keys_eq {t : SessionType} {s s' : Service} (h : s.Same t s') :
  s'.keys t = s.keys t
  := by rw [Service.keys, Service.keys, h.1]

theorem Service.Deletes.keys_subset {s s' : Service} (h : s.Deletes s') (t : SessionType) :
  s'.keys t ⊆ s.keys t
  := by
  have hkey (s : Service) : s.keys t = ((s.sessions t).map Session.core).map Session.key := by
    rw [List.map_map]
    rfl
  rw [hkey, hkey]
  exact ((h.sessions t).map _).subset

/-- Where only one type gets sessions, the new ones matter. -/
theorem local_iff_added {P : String → List PrivilegeType → Prop} {s s' : Service}
    {t : SessionType} {kept added : List (AuthType × String × List PrivilegeType)}
    (hs : s.Local P) (ht : t = .gui ∨ t = .redfish) (hadded : s'.keys t = kept ++ added)
    (hkept : kept ⊆ s.keys t) (hsame : ∀ u, u ≠ t → (u = .gui ∨ u = .redfish) →
      s'.keys u = s.keys u) :
  s'.Local P ↔ ∀ k ∈ added, k.1 = .localUser → P k.2.1 k.2.2
  := by
  constructor
  · intro h k hk
    apply h t ht k
    rw [hadded]
    exact List.mem_append_right _ hk
  · intro h u hu k hk
    by_cases hut : u = t
    · subst hut
      rw [hadded, List.mem_append] at hk
      rcases hk with hk | hk
      · exact hs u hu k (hkept hk)
      · exact h k hk
    · rw [hsame u hut hu] at hk
      exact hs u hu k hk

section Create

variable {Dn : Type} {p : Platform} {w : World Dn} {s : Service} {t : SessionType}

/-- What a creation adds. -/
def Service.added (s : Service) (w : World Dn) (t : SessionType) (account : AccountInfo)
    (authType : AuthType) : List (AuthType × String × List PrivilegeType) :=
  if s.havaFreeSession t then
    (w.privileges account).toList.map fun privilege => (authType, account.userName, privilege)
  else []

theorem mem_added {account : AccountInfo} {authType : AuthType}
    {k : AuthType × String × List PrivilegeType} :
  k ∈ s.added w t account authType ↔ s.havaFreeSession t = true
    ∧ ∃ privilege ∈ w.privileges account, k = (authType, account.userName, privilege)
  := by
  rw [Service.added]
  by_cases hfree : s.havaFreeSession t
  · simp [hfree, eq_comm]
  · simp [hfree]

theorem keys_create (account : AccountInfo) (authType : AuthType) (ip : String)
    (browserType : Option ℤ) (ssoToken : Option String) :
  (Raise.after (create p w t account authType ip browserType ssoToken) s).keys t
    = s.keys t ++ s.added w t account authType
  := by
  have hkey : (newSessionObject w p account authType ip browserType ssoToken).map Session.key
      = (w.privileges account).map fun privilege => (authType, account.userName, privilege) := by
    rw [newSessionObject, World.privileges, Option.map_map]
    rfl
  rw [Raise.after, exec_create, Service.added]
  by_cases hfree : s.havaFreeSession t
  · rw [if_pos hfree, if_pos hfree]
    rcases hx : newSessionObject w p account authType ip browserType ssoToken with _ | x
    · rw [hx, Option.map_none, eq_comm, Option.map_eq_none_iff] at hkey
      simp [hkey]
    · rw [hx, Option.map_some, eq_comm, Option.map_eq_some_iff] at hkey
      obtain ⟨privilege, hprivilege, hkey⟩ := hkey
      simp [hprivilege, hkey, Service.keys, Service.insert]
  · simp [hfree]

theorem keys_relogin (username : String) :
  (s.relogin t username).keys t ⊆ s.keys t
  := by
  rw [Service.relogin]
  split
  · exact (s.deletes_remove t _).keys_subset t
  · exact List.Subset.refl _

/-- The part of a login after the authentication, for a type of the web or of Redfish. -/
theorem keys_newOrdinarySession (ht : t ≠ .sso) (username : String) (info : AccountInfo)
    (authType : AuthType) (ip : String) (extra : ExtraData) :
  (Raise.after (newOrdinarySession p w username info authType t ip extra) s).keys t
    = (s.relogin t username).keys t ++ (s.relogin t username).added w t info authType
  := by
  have hexec : Raise.after (newOrdinarySession p w username info authType t ip extra) s
      = Raise.after (create p w t info authType ip
        (some ((extra.browserType.getD (some 0)).getD 0)) none) (s.relogin t username) := by
    unfold newOrdinarySession Raise.after Service.relogin
    rw [exec_bind_ok (exec_get s)]
    by_cases hmode : s.sessionMode t = .exclusive
    · simp only [hmode, if_neg ht]
      rfl
    · simp only [hmode, if_neg ht]
      rfl
  rw [hexec, keys_create]

/-- The part of a login from a session of SSO. -/
theorem keys_newGuiSessionBySso (x : Session) (ssoToken : String) :
  (Raise.after (newGuiSessionBySso p w x ssoToken) s).keys .gui
    = (s.relogin .gui x.username).keys .gui
      ++ (s.relogin .gui x.username).added w .gui x.accountInfo x.authType
  := by
  have hexec : Raise.after (newGuiSessionBySso p w x ssoToken) s
      = Raise.after (create p w .gui x.accountInfo x.authType x.ip x.browserType (some ssoToken))
        (s.relogin .gui x.username) := by
    unfold newGuiSessionBySso Raise.after Service.relogin
    rw [exec_bind_ok (exec_get s)]
    by_cases hmode : s.sessionMode .gui = .exclusive
    · simp only [hmode]
      rfl
    · simp only [hmode]
      rfl
  rw [hexec, keys_create]

theorem keys_handleIfRemoteSession
    (l : List (AuthType × String × List PrivilegeType)) (authType : AuthType)
    (group : Option RemoteDict) :
  Keeps (fun s : Service => s.keys t = l) (handleIfRemoteSession t authType group)
  := by
  apply Keeps.onlyIf
  apply Keeps.modify
  rintro s rfl
  rw [Service.keys, Service.keys, Service.sessions_setSessions]
  rcases List.eq_nil_or_concat (s.sessions t) with hnil | ⟨init, x, hx⟩
  · rw [hnil]
    rfl
  · rw [hx, List.concat_eq_append, List.modifyLast_concat]
    simp [Session.key]

theorem keys_newSession (ht : t = .gui ∨ t = .redfish) {ctx : Ctx}
    {username password domain ip : String} {extra : ExtraData} {r : AccountInfo × AuthType}
    (hr : s.Admits w ctx username password t domain ip extra r) :
  (Raise.after (newSession p w ctx username password t domain ip extra) s).keys t
    = (s.relogin t username).keys t ++ (s.relogin t username).added w t r.1 r.2
  := by
  have hkvm : t ≠ .kvm := by rcases ht with rfl | rfl <;> decide
  have hsso : t ≠ .sso := by rcases ht with rfl | rfl <;> decide
  rw [Raise.after, exec_newSession hr, newAuthenticatedSession, if_neg hkvm]
  apply after_bind (I := fun s : Service => s.keys t = _)
    (keys_newOrdinarySession hsso username r.1 r.2 ip extra)
  intro x
  apply Keeps.bind (keys_handleIfRemoteSession _ _ _)
  intro _
  exact Keeps.pure

end Create

/-! ## The calls -/

section Calls

variable {Dn : Type} {p : Platform} {s : Iam}

/-- The state with another service. -/
theorem follows_service (s : Iam) (service : Service) :
  ({ s with service } : Iam).Follows ↔ service.Local s.cache.Covers
  := follows_iff _

theorem coversAccount_iff {w : World Dn} {service : Service} {t : SessionType}
    {account : AccountInfo} {authType : AuthType} :
  (∀ k ∈ service.added w t account authType, k.1 = .localUser → s.cache.Covers k.2.1 k.2.2)
    ↔ (service.havaFreeSession t = true → s.CoversAccount w account authType)
  := by
  simp only [mem_added, Iam.CoversAccount]
  constructor
  · intro h hfree htype privilege hprivilege
    exact h _ ⟨hfree, privilege, hprivilege, rfl⟩ htype
  · rintro h k ⟨hfree, privilege, hprivilege, rfl⟩ htype
    exact h hfree htype privilege hprivilege

theorem local_of_same {P : String → List PrivilegeType → Prop} {s s' : Service} (hs : s.Local P)
    (hgui : s.Same .gui s') (hredfish : s.Same .redfish s') :
  s'.Local P
  := by
  refine hs.mono ?_ fun _ _ _ _ h => h
  rintro t (rfl | rfl)
  · exact hgui.keys_eq ▸ List.Subset.refl _
  · exact hredfish.keys_eq ▸ List.Subset.refl _

/-- A login, for a type of the web or of Redfish. -/
theorem local_newSession {w : World Dn} {t : SessionType} (ht : t = .gui ∨ t = .redfish)
    (hs : s.service.Local s.cache.Covers) (ctx : Ctx) (username password domain ip : String)
    (extra : ExtraData) :
  (Raise.after (newSession p w ctx username password t domain ip extra) s.service).Local
      s.cache.Covers
    ↔ ∀ r, s.service.Admits w ctx username password t domain ip extra r →
      (s.service.relogin t username).havaFreeSession t = true → s.CoversAccount w r.1 r.2
  := by
  by_cases hadmits : ∃ r, s.service.Admits w ctx username password t domain ip extra r
  · obtain ⟨r, hr⟩ := hadmits
    have hother : ∀ u, u ≠ t → (u = .gui ∨ u = .redfish) →
        (Raise.after (newSession p w ctx username password t domain ip extra) s.service).keys u
          = s.service.keys u := by
      intro u hu _
      exact ((keeps_same_newSession hu ctx username password domain ip extra).after
        (.refl u s.service)).keys_eq
    rw [local_iff_added hs ht (keys_newSession ht hr) (keys_relogin username) hother,
      coversAccount_iff]
    constructor
    · intro h r' hr'
      obtain rfl : r = r' := by
        have hlogin := hr.login.symm.trans hr'.login
        cases hlogin
        rfl
      exact h
    · intro h
      exact h r hr
  · rw [after_newSession_of_not fun r hr => hadmits ⟨r, hr⟩]
    exact ⟨fun _ r hr => absurd ⟨r, hr⟩ hadmits, fun _ => hs⟩

/-- A session of SSO gives none of Redfish. -/
theorem keeps_same_redfish_newSessionBySso {w : World Dn} {service : Service} (t : SessionType)
    (ctx : Ctx) (ssoToken : String) (mode : OccupationMode) :
  Keeps (service.Same .redfish) (newSessionBySso p w ctx ssoToken t mode)
  := by
  unfold newSessionBySso
  apply Keeps.bind Keeps.get
  intro s₁
  apply Keeps.bind Keeps.outcome
  intro x
  apply Keeps.bind
  · cases t with
    | redfish => exact Keeps.throw
    | gui | sso | kvm | vnc | video => exact keeps_same_newSessionFromSso (by decide) _ _ _ _
  · intro _
    apply Keeps.bind (keeps_same_modify fun s => s.same_setSessions _ (by decide))
    intro _
    exact Keeps.pure

/-- A login from a session of SSO to the web. -/
theorem local_newSessionBySso {w : World Dn} (hs : s.service.Local s.cache.Covers) (ctx : Ctx)
    (ssoToken : String) (mode : OccupationMode) :
  (Raise.after (newSessionBySso p w ctx ssoToken .gui mode) s.service).Local s.cache.Covers
    ↔ ∀ x, s.service.ssoSource p w ctx ssoToken = .ok x →
      (s.service.relogin .gui x.username).havaFreeSession .gui = true →
      s.CoversAccount w x.accountInfo x.authType
  := by
  rcases hsource : s.service.ssoSource p w ctx ssoToken with e | x
  · have hsame : Raise.after (newSessionBySso p w ctx ssoToken .gui mode) s.service
        = s.service := by
      unfold newSessionBySso Raise.after
      rw [exec_bind_ok (exec_get s.service), hsource,
        exec_bind_error (exec_outcome _ s.service)]
    rw [hsame]
    exact ⟨fun _ x hx => (nomatch hx), fun _ => hs⟩
  · have hkeys : (Raise.after (newSessionBySso p w ctx ssoToken .gui mode) s.service).keys .gui
        = (s.service.relogin .gui x.username).keys .gui
          ++ (s.service.relogin .gui x.username).added w .gui x.accountInfo x.authType := by
      unfold newSessionBySso Raise.after
      rw [exec_bind_ok (exec_get s.service), hsource, exec_bind_ok (exec_outcome _ s.service)]
      apply after_bind (I := fun s : Service => s.keys .gui = _)
        (keys_newGuiSessionBySso x ssoToken)
      intro y
      apply Keeps.bind
      · apply Keeps.modify
        intro s₁ h₁
        rw [← h₁]
        exact (s₁.same_setSessions _ (by decide)).keys_eq
      · intro _
        exact Keeps.pure
    have hother : ∀ u, u ≠ .gui → (u = .gui ∨ u = .redfish) →
        (Raise.after (newSessionBySso p w ctx ssoToken .gui mode) s.service).keys u
          = s.service.keys u := by
      rintro u hu (rfl | rfl)
      · exact absurd rfl hu
      · exact ((keeps_same_redfish_newSessionBySso .gui ctx ssoToken mode).after
          (.refl _ s.service)).keys_eq
    rw [local_iff_added hs (Or.inl rfl) hkeys (keys_relogin x.username) hother,
      coversAccount_iff]
    constructor
    · intro h x' hx'
      cases hx'
      exact h
    · intro h
      exact h x rfl

/-- A login with a certificate. -/
theorem local_newMutualAuthSession {w : World Dn} (hs : s.service.Local s.cache.Covers)
    (ctx : Ctx) (userId : Option ℤ) (ip : String) :
  (Raise.after (newMutualAuthSession p w ctx userId ip) s.service).Local s.cache.Covers
    ↔ ∀ a ∈ userId.bind w.getAccountById,
      w.login.component.mutualAuthAuthentication a.info.userName ip ctx.interface = true →
      s.service.havaFreeSession .gui = true → s.CoversAccount w a.info .localUser
  := by
  have hother : ∀ u, u ≠ .gui → (u = .gui ∨ u = .redfish) →
      (Raise.after (newMutualAuthSession p w ctx userId ip) s.service).keys u
        = s.service.keys u := by
    intro u hu _
    exact ((keeps_same_newMutualAuthSession hu ctx userId ip).after (.refl u s.service)).keys_eq
  rcases ha : userId.bind w.getAccountById with _ | a
  · have hsame : Raise.after (newMutualAuthSession p w ctx userId ip) s.service = s.service := by
      unfold newMutualAuthSession Raise.after
      rw [ha]
      rfl
    rw [hsame]
    exact ⟨fun _ a h => (Option.not_mem_none a h).elim, fun _ => hs⟩
  · simp only [Option.mem_some_iff, forall_eq']
    cases hauth : w.login.component.mutualAuthAuthentication a.info.userName ip ctx.interface with
    | false =>
      have hsame : Raise.after (newMutualAuthSession p w ctx userId ip) s.service
          = s.service := by
        unfold newMutualAuthSession Raise.after
        rw [ha]
        dsimp only
        rw [hauth, Bool.not_false, exec_bind_error (exec_refuse_true _ s.service)]
      rw [hsame]
      exact ⟨fun _ h => absurd h Bool.false_ne_true, fun _ => hs⟩
    | true =>
      have hkeys : (Raise.after (newMutualAuthSession p w ctx userId ip) s.service).keys .gui
          = s.service.keys .gui ++ s.service.added w .gui a.info .localUser := by
        rw [← @keys_create _ p w s.service .gui a.info .localUser ip (some 0) none]
        unfold newMutualAuthSession Raise.after
        rw [ha]
        dsimp only
        rw [hauth, Bool.not_true, exec_bind_ok (exec_refuse_false _ s.service)]
      rw [local_iff_added hs (Or.inl rfl) hkeys (List.Subset.refl _) hother, coversAccount_iff]
      simp

/-- A call keeps the sessions on their accounts exactly if it meets the condition. -/
theorem local_after (hs : s.service.Local s.cache.Covers) (c : Call Dn) :
  (s.service.after p c).Local s.cache.Covers ↔ s.MeetsCall p c
  := by
  have hsame {s' : Service} (hgui : s.service.Same .gui s')
      (hredfish : s.service.Same .redfish s') : s'.Local s.cache.Covers ↔ True :=
    iff_true_intro (local_of_same hs hgui hredfish)
  have hdeletes {s' : Service} (h : s.service.Deletes s') : s'.Local s.cache.Covers ↔ True :=
    iff_true_intro (hs.mono (fun t _ => h.keys_subset t) fun _ _ _ _ h => h)
  obtain ⟨w, op⟩ := c
  cases op with
  | newSession ctx username password t domain ip extra =>
    by_cases ht : t = .gui ∨ t = .redfish
    · have hlogin := @local_newSession _ p s w t ht hs ctx username password domain ip extra
      exact hlogin.trans ⟨fun h _ => h, fun h => h ht⟩
    · have hgui : .gui ≠ t := fun h => ht (Or.inl h.symm)
      have hredfish : .redfish ≠ t := fun h => ht (Or.inr h.symm)
      have hkeep := local_of_same hs
        ((@keeps_same_newSession _ p w _ _ _ hgui ctx username password domain ip extra).after
          (.refl _ s.service))
        ((keeps_same_newSession hredfish ctx username password domain ip extra).after
          (.refl _ s.service))
      exact iff_of_true hkeep fun h => absurd h ht
  | newRemoteConsoleSession ctx token t mode =>
    exact hsame
      ((keeps_same_newRemoteConsoleSession (.inl (by decide)) (.inl (by decide)) ctx token
        mode).after (.refl _ s.service))
      ((keeps_same_newRemoteConsoleSession (.inl (by decide)) (.inl (by decide)) ctx token
        mode).after (.refl _ s.service))
  | newSessionBySso ctx ssoToken t mode =>
    cases t with
    | gui => exact local_newSessionBySso hs ctx ssoToken mode
    | redfish | sso | kvm | vnc | video =>
      exact hsame
        ((keeps_same_newSessionBySso (by decide) (by decide) ctx ssoToken mode).after
          (.refl _ s.service))
        ((keeps_same_redfish_newSessionBySso _ ctx ssoToken mode).after (.refl _ s.service))
  | newVncSession ctx vncAccount sessionMode =>
    exact hsame
      ((keeps_same_newVncSession (by decide) ctx vncAccount sessionMode).after
        (.refl _ s.service))
      ((keeps_same_newVncSession (by decide) ctx vncAccount sessionMode).after
        (.refl _ s.service))
  | newMutualAuthSession ctx userId ip => exact local_newMutualAuthSession hs ctx userId ip
  | setKvmKey | validateSession | deleteSession | deleteSessionByUsername | deleteSessionByIp
  | deleteRemoteSession | deleteAllSession | processTimeoutSessions =>
    exact hdeletes (after_deletes p s.service rfl)

end Calls

/-! ## The signals -/

theorem mem_foldl_deleteByUsername (username : String) (l : List SessionType) (s : Service)
    (t : SessionType) (x : Session) :
  x ∈ (l.foldl (fun s t => s.deleteByUsername t username) s).sessions t
    ↔ x ∈ s.sessions t ∧ (t ∈ l → x.username ≠ username)
  := by
  induction l generalizing s with
  | nil => simp
  | cons u l ih =>
    rw [List.foldl_cons, ih, Service.deleteByUsername, Service.remove]
    by_cases ht : t = u
    · subst ht
      simp only [Service.sessions_setSessions, List.mem_filter, List.mem_cons, true_or,
        forall_true_left, Bool.not_eq_true', decide_eq_false_iff_not]
      tauto
    · rw [Service.sessions_setSessions_ne _ _ ht]
      simp [ht]

/-- The sessions of the other users are left. -/
theorem live_kick (p : Platform) (s : Iam) (username : String) (x : Session) :
  (s.kick p username).service.Live x ↔ s.service.Live x ∧ x.username ≠ username
  := by
  simp only [Iam.kick, Service.deleteSessionByUsername, Service.Live, mem_foldl_deleteByUsername,
    p.pairs_complete, forall_true_left]
  tauto

/-- An account that is added keeps the sessions on their accounts exactly if it does not replace
the only one of a session. -/
theorem follows_newAccountCache {s : Iam} (hs : s.Follows) (id : ℕ) (obj : AccountObject) :
  (s.newAccountCache id obj).Follows
    ↔ ∀ e ∈ s.cache id, ∀ x, s.service.Live x → e.Covers x.username x.privilege →
      s.cache.CoversElsewhere id x ∨ (obj.entry id).Covers x.username x.privilege
  := by
  constructor
  · intro h e _ x hx _
    obtain ⟨id', e', he', hcovers⟩ := h x hx
    by_cases hid : id' = id
    · subst hid
      rw [Iam.newAccountCache, s.cache_write_self] at he'
      cases he'
      exact Or.inr hcovers
    · rw [Iam.newAccountCache, s.cache_write_of_ne hid] at he'
      exact Or.inl ⟨id', e', hid, he', hcovers⟩
  · intro h x hx
    obtain ⟨id', e', he', hcovers⟩ := hs x hx
    have hnext : s.cache.CoversElsewhere id x ∨ (obj.entry id).Covers x.username x.privilege := by
      by_cases hid : id' = id
      · subst hid
        exact h e' he' x hx hcovers
      · exact Or.inl ⟨id', e', hid, he', hcovers⟩
    rcases hnext with ⟨id', e', hid, he', hcovers⟩ | hcovers
    · refine ⟨id', e', ?_, hcovers⟩
      rw [Iam.newAccountCache, s.cache_write_of_ne hid, he']
    · refine ⟨id, obj.entry id, ?_, hcovers⟩
      rw [Iam.newAccountCache, s.cache_write_self]

/-- The sessions of an account that is removed are deleted. -/
theorem follows_delAccountCache {p : Platform} {s : Iam} (hs : s.Follows) (id : ℕ) :
  (s.delAccountCache p id).Follows
  := by
  rw [Iam.delAccountCache]
  rcases hid : s.cache id with _ | e
  · exact hs
  · intro x hx
    obtain ⟨hx, hname⟩ := (live_kick p _ e.userName x).mp hx
    obtain ⟨id', e', he', hcovers⟩ := hs x hx
    refine ⟨id', e', ?_, hcovers⟩
    have hne : id' ≠ id := by
      rintro rfl
      cases he'.symm.trans hid
      exact hname hcovers.1.symm
    exact (s.cache_write_of_ne hne none).trans he'

/-! ### A change of properties -/

theorem changeProperty_of_some (p : Platform) {s : Iam} {id : ℕ} {e : CacheEntry}
    (he : s.cache id = some e) (property : Property) :
  Iam.changeProperty p id s property
    = if property.isSecurity then (s.write id (some (property.edit e))).kick p e.userName
      else s.write id (some (property.edit e))
  := by rw [Iam.changeProperty, he]

theorem userName_edit {property : Property} (h : property.isSecurity = false) (e : CacheEntry) :
  (property.edit e).userName = e.userName
  := by
  cases property with
  | userName => cases h
  | roleId | lastLoginIp | lastLoginTime | privileges | passwordChangeRequired | firstLoginPolicy
  | enabled | locked | loginInterface => rfl

/-- What a change of properties leaves: the other accounts, and no sessions but those that there
were. If a property of `security_config_map` is among them, the sessions of the user are gone. -/
structure Iam.Changed (s s' : Iam) (id : ℕ) (username : String) (isSecurity : Bool) : Prop where
  cache : ∀ id', id' ≠ id → s'.cache id' = s.cache id'
  live : ∀ x, s'.service.Live x → s.service.Live x
  username : isSecurity = true → ∀ x, s'.service.Live x → x.username ≠ username

theorem changed_changeProperties (p : Platform) {s : Iam} {id : ℕ} {e : CacheEntry}
    (he : s.cache id = some e) (properties : List Property) :
  s.Changed (s.changeProperties p id properties) id e.userName
    (properties.any Property.isSecurity)
  := by
  induction properties generalizing s e with
  | nil => exact ⟨fun _ _ => rfl, fun _ h => h, fun h => nomatch h⟩
  | cons property properties ih =>
    rw [Iam.changeProperties, List.foldl_cons, changeProperty_of_some p he, List.any_cons]
    by_cases hsecurity : property.isSecurity = true
    · rw [if_pos hsecurity, hsecurity, Bool.true_or]
      have hrest := @ih ((s.write id (some (property.edit e))).kick p e.userName)
        (property.edit e) (s.cache_write_self id _)
      have hkick := live_kick p (s.write id (some (property.edit e))) e.userName
      exact
        { cache := fun id' hid => (hrest.cache id' hid).trans (s.cache_write_of_ne hid _)
          live := fun x hx => ((hkick x).mp (hrest.live x hx)).1
          username := fun _ x hx => ((hkick x).mp (hrest.live x hx)).2 }
    · rw [Bool.not_eq_true] at hsecurity
      rw [hsecurity, Bool.false_or, if_neg Bool.false_ne_true]
      have hrest := @ih (s.write id (some (property.edit e))) (property.edit e)
        (s.cache_write_self id _)
      rw [userName_edit hsecurity] at hrest
      exact
        { cache := fun id' hid => (hrest.cache id' hid).trans (s.cache_write_of_ne hid _)
          live := hrest.live
          username := hrest.username }

/-- The privileges after a change that deletes no sessions. -/
theorem changeProperties_of_not_security (p : Platform) {s : Iam} {id : ℕ} {e : CacheEntry}
    (he : s.cache id = some e) {properties : List Property}
    (h : properties.any Property.isSecurity = false) :
  (s.changeProperties p id properties).service = s.service
    ∧ ∃ e', (s.changeProperties p id properties).cache id = some e' ∧ e'.userName = e.userName
      ∧ e'.privileges = (newPrivileges properties).getD e.privileges
  := by
  induction properties using List.reverseRecOn with
  | nil => exact ⟨rfl, e, he, rfl, rfl⟩
  | append_singleton properties property ih =>
    rw [List.any_append, Bool.or_eq_false_iff] at h
    obtain ⟨hservice, e', he', hname, hprivileges⟩ := ih h.1
    have hproperty : property.isSecurity = false := by simpa using h.2
    have hstep : s.changeProperties p id (properties ++ [property])
        = (s.changeProperties p id properties).write id (some (property.edit e')) := by
      rw [Iam.changeProperties, List.foldl_concat]
      change Iam.changeProperty p id (s.changeProperties p id properties) property = _
      rw [changeProperty_of_some p he', hproperty, if_neg Bool.false_ne_true]
    rw [hstep]
    refine ⟨hservice, property.edit e', Iam.cache_write_self _ _ _, ?_, ?_⟩
    · rw [userName_edit hproperty, hname]
    · rw [newPrivileges, List.foldl_concat]
      cases property with
      | privileges value => rfl
      | userName | roleId | enabled | locked | loginInterface => cases hproperty
      | lastLoginIp | lastLoginTime | passwordChangeRequired | firstLoginPolicy => exact hprivileges

/-- A change of properties keeps the sessions on their accounts exactly if it deletes the
sessions of the user, or leaves them their privileges. -/
theorem follows_changeProperties {p : Platform} {s : Iam} (hs : s.Follows) (id : ℕ)
    (properties : List Property) :
  (s.changeProperties p id properties).Follows
    ↔ (properties.any Property.isSecurity = false →
      ∀ privileges ∈ newPrivileges properties, ∀ e ∈ s.cache id, ∀ x, s.service.Live x →
        e.Covers x.username x.privilege →
        s.cache.CoversElsewhere id x ∨ x.privilege ⊆ privileges)
  := by
  rcases he : s.cache id with _ | e
  · have hsame : s.changeProperties p id properties = s := by
      rw [Iam.changeProperties]
      induction properties with
      | nil => rfl
      | cons property properties ih =>
        rw [List.foldl_cons, Iam.changeProperty, he]
        exact ih
    rw [hsame]
    exact iff_of_true hs fun _ _ _ e he => (Option.not_mem_none e he).elim
  · have hchanged := changed_changeProperties p he properties
    have helsewhere : ∀ x, s.cache.CoversElsewhere id x →
        (s.changeProperties p id properties).cache.Covers x.username x.privilege := by
      rintro x ⟨id', e', hid, he', hcovers⟩
      exact ⟨id', e', (hchanged.cache id' hid).trans he', hcovers⟩
    cases hsecurity : properties.any Property.isSecurity with
    | true =>
      refine iff_of_true ?_ fun h => nomatch h
      intro x hx
      apply helsewhere x
      obtain ⟨id', e', he', hcovers⟩ := hs x (hchanged.live x hx)
      refine ⟨id', e', ?_, he', hcovers⟩
      rintro rfl
      cases he'.symm.trans he
      exact hchanged.username hsecurity x hx hcovers.1.symm
    | false =>
      obtain ⟨hservice, e', he', hname, hprivileges⟩ :=
        changeProperties_of_not_security p he hsecurity
      simp only [forall_true_left, Option.mem_some_iff, forall_eq']
      constructor
      · intro h privileges hnew x hx hcovers
        rw [hnew, Option.getD_some] at hprivileges
        obtain ⟨id₁, e₁, he₁, hcovers₁⟩ := h x (hservice ▸ hx)
        by_cases hid : id₁ = id
        · subst hid
          cases he₁.symm.trans he'
          exact Or.inr (hprivileges ▸ hcovers₁.2)
        · exact Or.inl ⟨id₁, e₁, hid, (hchanged.cache id₁ hid).symm.trans he₁, hcovers₁⟩
      · intro h x hx
        rw [hservice] at hx
        obtain ⟨id₁, e₁, he₁, hcovers₁⟩ := hs x hx
        by_cases hid : id₁ = id
        · subst hid
          cases he₁.symm.trans he
          have hhere : x.privilege ⊆ e'.privileges →
              (s.changeProperties p id₁ properties).cache.Covers x.username x.privilege :=
            fun hsub => ⟨id₁, e', he', hname.trans hcovers₁.1, hsub⟩
          rcases hnew : newPrivileges properties with _ | privileges
          · rw [hnew, Option.getD_none] at hprivileges
            exact hhere (hprivileges ▸ hcovers₁.2)
          · rw [hnew, Option.getD_some] at hprivileges
            rcases h privileges hnew x hx hcovers₁ with hcovers | hsub
            · exact helsewhere x hcovers
            · exact hhere (hprivileges ▸ hsub)
        · exact helsewhere x ⟨id₁, e₁, hid, he₁, hcovers₁⟩

/-! ### A pass -/

theorem foldl_syncObj (objs : ℕ → Option AccountObject) (l : List ℕ) (cache : AccountCache)
    (id : ℕ) :
  l.foldl (syncObj objs) cache id
    = if id ∈ l then ((objs id).map (·.entry id)).or (cache id) else cache id
  := by
  induction l generalizing cache with
  | nil => rfl
  | cons id' l ih =>
    rw [List.foldl_cons, ih, syncObj]
    by_cases hid : id = id'
    · subst hid
      rcases hobj : objs id with _ | obj
      · simp
      · simp
    · rcases hobj : objs id' with _ | obj
      · simp [hid]
      · simp [hid]

/-- After a pass the cache has the accounts that were read. -/
theorem cache_syncAccountInfo (s : Iam) (objs : ℕ → Option AccountObject) (id : ℕ) :
  (s.syncAccountInfo objs).cache id
    = if id ∈ accountIds then (objs id).map (·.entry id) else none
  := by
  simp only [Iam.syncAccountInfo, foldl_syncObj]
  have hcleared : ((s.cache id).map fun e => { e with isFlush := false }).filter
      (fun e : CacheEntry => e.isFlush) = none := by
    rcases s.cache id with _ | e <;> rfl
  split
  · rcases objs id with _ | obj
    · exact hcleared
    · rfl
  · exact hcleared

/-- A pass keeps the sessions on their accounts exactly if it reads an account for each. -/
theorem follows_syncAccountInfo (s : Iam) (objs : ℕ → Option AccountObject) :
  (s.syncAccountInfo objs).Follows
    ↔ ∀ x, s.service.Live x →
      ∃ id ∈ accountIds, ∃ o ∈ objs id, (o.entry id).Covers x.username x.privilege
  := by
  apply forall_congr'
  intro x
  apply forall_congr'
  intro _
  constructor
  · rintro ⟨id, e, he, hcovers⟩
    rw [cache_syncAccountInfo] at he
    split at he
    · next hid =>
      obtain ⟨o, ho, rfl⟩ := Option.map_eq_some_iff.mp he
      exact ⟨id, hid, o, ho, hcovers⟩
    · cases he
  · rintro ⟨id, hid, o, ho, hcovers⟩
    refine ⟨id, o.entry id, ?_, hcovers⟩
    rw [cache_syncAccountInfo, if_pos hid, show objs id = some o from ho, Option.map_some]

/-! ## Every run -/

/-- An event keeps the sessions on their accounts exactly if it meets the condition. -/
theorem step_follows {Dn : Type} (p : Platform) {s : Iam} (hs : s.Follows) (event : Event Dn) :
  (s.step p event).Follows ↔ s.Meets p event
  := by
  cases event with
  | call order c => exact (follows_service s _).trans (local_after ((follows_iff s).mp hs) _)
  | accountAdded id obj =>
    rcases obj with _ | obj
    · exact iff_of_true hs fun o ho => (Option.not_mem_none o ho).elim
    · rw [Iam.step, Option.elim_some, follows_newAccountCache hs]
      exact ⟨fun h o ho => (Option.mem_some_iff.mp ho) ▸ h, fun h => h obj rfl⟩
  | accountRemoved id => exact iff_of_true (follows_delAccountCache hs id) trivial
  | accountChanged id properties => exact follows_changeProperties hs id properties
  | roleChanged roleId rolePrivilege => exact iff_of_true hs trivial
  | syncAccountInfo objs => exact follows_syncAccountInfo s objs

/-- Exactly in the runs whose events meet the condition, the sessions of local users follow their
accounts after each event. -/
theorem run_follows_iff {Dn : Type} (p : Platform) {s : Iam} (hs : s.Follows)
    (l : List (Event Dn)) :
  (∀ s' ∈ Run.states (Iam.step p) s l, s'.Follows) ↔ Run.Along (Iam.step p) (Iam.Meets p) s l
  := Run.invariant_iff (fun _ event hs => step_follows p hs event) hs

/-! ### A user who loses a privilege -/

/-- The object of an account with the privileges. -/
def userObject (privileges : List PrivilegeType) : AccountObject where
  userName := "user"
  roleId := 4
  lastLoginIp := ""
  lastLoginTime := 0
  privileges := privileges
  passwordChangeRequired := false
  firstLoginPolicy := .null

/-- The service after its start. -/
def plainIam : Iam := ⟨fun _ => none, fun _ => none, plainService⟩

/-- A web login with a certificate of the account. -/
def certificateLogin : Event Unit :=
  let component : LocalEnv :=
    { (plainWorld "token").login.component with
      order := [2]
      accounts := plainState [(2, plainAccount "user" 4 223)] }
  .call [2] ⟨{ plainWorld "token" with login.component := component },
    .newMutualAuthSession plainCtx (some 2) "192.168.1.2"⟩

/-- An account logs in and loses one of its privileges. -/
def demotedUser : List (Event Unit) :=
  [.accountAdded 2 (some (userObject [.kvmMgmt, .diagnoseMgmt])), certificateLogin,
    .accountChanged 2 [.privileges [.kvmMgmt]]]

/-- There are no sessions to follow the accounts. -/
theorem follows_plainIam : plainIam.Follows := by
  rintro x ⟨hx | hx, _⟩
  · exact (List.not_mem_nil hx).elim
  · exact (List.not_mem_nil hx).elim

theorem run_follows_iff_demotedUser :
  (∀ s' ∈ Run.states (Iam.step plainPlatform) plainIam demotedUser, s'.Follows)
    ↔ Run.Along (Iam.step plainPlatform) (Iam.Meets plainPlatform) plainIam demotedUser
  := run_follows_iff plainPlatform follows_plainIam demotedUser

/-- The session keeps the privilege that the account has lost. -/
theorem demotedUser_keeps_privilege :
  ¬ ∀ s' ∈ Run.states (Iam.step plainPlatform) plainIam demotedUser, s'.Follows
  := by
  intro h
  have hlast : (demotedUser.foldl (Iam.step plainPlatform) plainIam).Follows :=
    h _ (Run.foldl_mem_states _ _ _)
  have hkeys : (.localUser, "user", [.kvmMgmt, .diagnoseMgmt])
      ∈ (demotedUser.foldl (Iam.step plainPlatform) plainIam).service.keys .gui := by
    decide +kernel
  obtain ⟨id, e, he, -, hsubset⟩ := (follows_iff _).mp hlast .gui (Or.inl rfl) _ hkeys rfl
  by_cases hid : id = 2
  · subst hid
    cases he
    revert hsubset
    decide +kernel
  · have hnone : (demotedUser.foldl (Iam.step plainPlatform) plainIam).cache id = none := by
      simp [demotedUser, certificateLogin, Iam.step, Iam.changeProperties, Iam.changeProperty,
        Iam.newAccountCache, Iam.write, Property.isSecurity, plainIam, hid]
    rw [hnone] at he
    cases he

end Sessions

end BmcAccount
