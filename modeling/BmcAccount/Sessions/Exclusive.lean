import BmcAccount.Sessions.Effects

/-!
# One web session for each user

With the mode of the web sessions exclusive a login deletes the web sessions of its user. It
deletes those of the name that was typed, and creates one of the name that the authentication
returns; a login with a certificate deletes none. `run_onePerUser_iff` says when there is at
most one session for each user all the same: as long as no login under another name than the
one typed, and no login with a certificate, finds a session of its user.
-/

namespace BmcAccount

namespace Sessions

open Raise

/-- The users of the web sessions. -/
def Service.guiUsernames (s : Service) : List String := (s.sessions .gui).map (·.username)

/-- No two web sessions have the same user. -/
def Service.OnePerUser (s : Service) : Prop := s.guiUsernames.Nodup

section Condition

variable {Dn : Type}

/-- A web session can be created for the account. -/
def Service.canCreate (s : Service) (w : World Dn) (account : AccountInfo) : Bool :=
  s.havaFreeSession .gui && w.knowsPrivileges account

/-- A web login that succeeds under another name than the one that was typed finds no web session
of that name, and neither does a login with a certificate. -/
def Service.FindsNone (s : Service) (c : Call Dn) : Prop :=
  match c.op with
  | .newSession ctx username password .gui domain ip extra =>
    ∀ r, s.Admits c.world ctx username password .gui domain ip extra r →
      (s.deleteByUsername .gui username).canCreate c.world r.1 = true →
      r.1.userName ≠ username → r.1.userName ∉ s.guiUsernames
  | .newMutualAuthSession ctx userId ip =>
    ∀ a ∈ userId.bind c.world.getAccountById,
      c.world.login.component.mutualAuthAuthentication a.info.userName ip ctx.interface = true →
      s.canCreate c.world a.info = true → a.info.userName ∉ s.guiUsernames
  | _ => True

end Condition

/-! ## The users after a creation -/

section Create

variable {Dn : Type} {p : Platform} {w : World Dn} {s : Service}

/-- The mode of the web sessions is exclusive, and these are their users. -/
def Service.Users (l : List String) (s : Service) : Prop :=
  s.guiUsernames = l ∧ s.sessionMode .gui = .exclusive

theorem Service.Users.same {l : List String} {s' : Service} (h : s.Users l) (hs : s.Same .gui s') :
  s'.Users l
  := by
  unfold Service.Users Service.guiUsernames
  rw [hs.1, hs.2.1]
  exact h

/-- The user of the account is added, if a session can be created. -/
theorem users_create {l : List String} (h : s.Users l) (account : AccountInfo)
    (authType : AuthType) (ip : String) (browserType : Option ℤ) (ssoToken : Option String) :
  (Raise.after (create p w .gui account authType ip browserType ssoToken) s).Users
    (l ++ if s.canCreate w account then [account.userName] else [])
  := by
  have hname := username_newSessionObject p w account authType ip browserType ssoToken
  unfold Service.canCreate Raise.after
  rw [exec_create]
  cases s.havaFreeSession .gui with
  | false =>
    rw [Bool.false_and, if_neg Bool.false_ne_true, if_neg Bool.false_ne_true, List.append_nil]
    exact h
  | true =>
    rw [if_pos rfl, Bool.true_and]
    cases hx : newSessionObject w p account authType ip browserType ssoToken with
    | none =>
      rw [hx] at hname
      have hno : w.knowsPrivileges account ≠ true := by
        intro hyes
        simp [hyes] at hname
      rw [if_neg hno, List.append_nil]
      exact h
    | some x =>
      rw [hx] at hname
      have hyes : w.knowsPrivileges account = true ∧ x.username = account.userName := by
        by_cases hyes : w.knowsPrivileges account = true
        · simpa [hyes] using hname
        · simp [hyes] at hname
      rw [if_pos hyes.1, ← hyes.2, ← h.1]
      refine ⟨?_, h.2⟩
      simp [Service.insert, Service.guiUsernames]

theorem users_deleteByUsername {l : List String} (h : s.Users l) (username : String) :
  (s.deleteByUsername .gui username).Users (l.filter (· ≠ username))
  := by
  refine ⟨?_, h.2⟩
  rw [← h.1]
  unfold Service.deleteByUsername Service.remove Service.guiUsernames
  rw [Service.sessions_setSessions, List.filter_map]
  congr 1
  apply List.filter_congr
  intro x _
  simp [eq_comm]

/-- Deleting and creating: the sessions of the name that was typed, and one of the name of the
account. -/
theorem users_newOrdinarySession {l : List String} (h : s.Users l) (username : String)
    (info : AccountInfo) (authType : AuthType) (ip : String) (extra : ExtraData) :
  (Raise.after (newOrdinarySession p w username info authType .gui ip extra) s).Users
    (l.filter (· ≠ username)
      ++ if (s.deleteByUsername .gui username).canCreate w info then [info.userName] else [])
  := by
  unfold newOrdinarySession
  unfold Raise.after
  rw [exec_bind_ok (exec_get s), h.2]
  exact users_create (users_deleteByUsername h username) info authType ip _ none

theorem users_handleIfRemoteSession (l : List String) (authType : AuthType)
    (group : Option RemoteDict) :
  Keeps (Service.Users l) (handleIfRemoteSession .gui authType group)
  := by
  apply Keeps.onlyIf
  apply Keeps.modify
  rintro s ⟨hl, hmode⟩
  refine ⟨?_, hmode⟩
  rw [← hl]
  unfold Service.guiUsernames
  rw [Service.sessions_setSessions]
  rcases List.eq_nil_or_concat (s.sessions .gui) with hnil | ⟨init, x, hx⟩
  · rw [hnil]
    rfl
  · rw [hx, List.concat_eq_append, List.modifyLast_concat]
    simp

/-- A web login. -/
theorem users_newSession {l : List String} (h : s.Users l) {ctx : Ctx}
    {username password domain ip : String} {extra : ExtraData} {r : AccountInfo × AuthType}
    (hr : s.Admits w ctx username password .gui domain ip extra r) :
  (Raise.after (newSession p w ctx username password .gui domain ip extra) s).Users
    (l.filter (· ≠ username)
      ++ if (s.deleteByUsername .gui username).canCreate w r.1 then [r.1.userName] else [])
  := by
  unfold Raise.after
  rw [exec_newSession hr]
  apply after_bind (users_newOrdinarySession h username r.1 r.2 ip extra)
  intro x
  apply Keeps.bind (users_handleIfRemoteSession _ _ _)
  intro _
  exact Keeps.pure

/-- A web login from a session of SSO. -/
theorem users_newGuiSessionBySso {l : List String} (h : s.Users l) (x : Session)
    (ssoToken : String) :
  ∃ added, added.Sublist [x.username] ∧
    (Raise.after (newGuiSessionBySso p w x ssoToken) s).Users
      (l.filter (· ≠ x.username) ++ added)
  := by
  unfold newGuiSessionBySso Raise.after
  rw [exec_bind_ok (exec_get s), h.2]
  refine ⟨_, ?_, users_create (users_deleteByUsername h x.username) x.accountInfo x.authType x.ip
    x.browserType (some ssoToken)⟩
  split
  · exact List.Sublist.refl _
  · exact List.nil_sublist _

end Create

/-! ## The steps -/

theorem nodup_filter_append {l added : List String} {name : String} (h : l.Nodup)
    (hadded : added.Sublist [name]) :
  (l.filter (· ≠ name) ++ added).Nodup
  := by
  rw [List.nodup_append']
  refine ⟨h.filter _, hadded.nodup (List.nodup_singleton name), ?_⟩
  intro x hx hadd
  obtain rfl := List.mem_singleton.mp (hadded.mem hadd)
  simpa using List.of_mem_filter hx

section Steps

variable {Dn : Type} {p : Platform} {s : Service}

/-- The users stay distinct just if a login finds none under another name than the one that was
typed. -/
theorem users_login {username name : String} (hs : s.OnePerUser) (created : Bool) :
  (s.guiUsernames.filter (· ≠ username) ++ if created then [name] else []).Nodup
    ↔ (created = true → name ≠ username → name ∉ s.guiUsernames)
  := by
  cases created with
  | false => simpa using hs.filter _
  | true =>
    have hfilter : (s.guiUsernames.filter (· ≠ username)).Nodup := hs.filter _
    rw [if_pos rfl, List.nodup_append', List.disjoint_singleton]
    simp only [hfilter, List.nodup_singleton, true_and, List.mem_filter, decide_eq_true_eq]
    tauto

theorem onePerUser_of_users {l : List String} {s' : Service} (h : s'.Users l) :
  s'.OnePerUser ↔ l.Nodup
  := by
  unfold Service.OnePerUser
  rw [h.1]

theorem onePerUser_of_same {s' : Service} (hs : s.OnePerUser) (h : s.Same .gui s') :
  s'.OnePerUser
  := by
  unfold Service.OnePerUser Service.guiUsernames
  rw [h.1]
  exact hs

theorem onePerUser_of_deletes {s' : Service} (hs : s.OnePerUser) (h : s.Deletes s') :
  s'.OnePerUser
  := by
  have hmap (s : Service) :
      s.guiUsernames = ((s.sessions .gui).map Session.core).map (·.username) := by
    rw [List.map_map]
    rfl
  unfold Service.OnePerUser
  rw [hmap]
  apply ((h.sessions .gui).map _).nodup
  rw [← hmap]
  exact hs

/-- A web login. -/
theorem step_newSession_gui (hmode : s.sessionMode .gui = .exclusive) (hs : s.OnePerUser)
    (w : World Dn) (ctx : Ctx) (username password domain ip : String) (extra : ExtraData) :
  let s' := s.after p ⟨w, .newSession ctx username password .gui domain ip extra⟩
  s'.sessionMode .gui = .exclusive ∧
    (s'.OnePerUser ↔ s.FindsNone ⟨w, .newSession ctx username password .gui domain ip extra⟩)
  := by
  intro s'
  by_cases hadmits : ∃ r, s.Admits w ctx username password .gui domain ip extra r
  · obtain ⟨r, hr⟩ := hadmits
    have husers : s'.Users _ := users_newSession ⟨rfl, hmode⟩ hr
    refine ⟨husers.2, ?_⟩
    rw [onePerUser_of_users husers, users_login hs]
    constructor
    · intro h r' hr'
      obtain rfl : r = r' := by
        have hlogin := hr.login.symm.trans hr'.login
        cases hlogin
        rfl
      exact h
    · intro h
      exact h r hr
  · have hsame : s' = s := after_newSession_of_not fun r hr => hadmits ⟨r, hr⟩
    rw [hsame]
    refine ⟨hmode, fun _ r hr => absurd ⟨r, hr⟩ hadmits, fun _ => hs⟩

/-- A login with a certificate. -/
theorem step_newMutualAuthSession (hmode : s.sessionMode .gui = .exclusive) (hs : s.OnePerUser)
    (w : World Dn) (ctx : Ctx) (userId : Option ℤ) (ip : String) :
  let s' := s.after p ⟨w, .newMutualAuthSession ctx userId ip⟩
  s'.sessionMode .gui = .exclusive ∧
    (s'.OnePerUser ↔ s.FindsNone ⟨w, .newMutualAuthSession ctx userId ip⟩)
  := by
  intro s'
  have hs' : s' = Raise.after (newMutualAuthSession p w ctx userId ip) s := rfl
  unfold newMutualAuthSession Raise.after at hs'
  unfold Service.FindsNone
  dsimp only
  cases ha : userId.bind w.getAccountById with
  | none =>
    rw [ha] at hs'
    rw [hs']
    exact ⟨hmode, fun _ a h => (Option.not_mem_none a h).elim, fun _ => hs⟩
  | some a =>
    rw [ha] at hs'
    simp only [Option.mem_some_iff, forall_eq']
    cases hauth : w.login.component.mutualAuthAuthentication a.info.userName ip ctx.interface with
    | false =>
      dsimp only at hs'
      rw [hauth, Bool.not_false, exec_bind_error (exec_refuse_true _ s)] at hs'
      rw [hs']
      exact ⟨hmode, fun _ h => absurd h Bool.false_ne_true, fun _ => hs⟩
    | true =>
      dsimp only at hs'
      rw [hauth, Bool.not_true, exec_bind_ok (exec_refuse_false _ s)] at hs'
      have husers := users_create (p := p) (w := w) ⟨rfl, hmode⟩ a.info .localUser ip (some 0) none
      rw [show Raise.after _ s = s' from hs'.symm] at husers
      refine ⟨husers.2, ?_⟩
      rw [onePerUser_of_users husers]
      cases s.canCreate w a.info with
      | false =>
        rw [if_neg Bool.false_ne_true, List.append_nil]
        exact ⟨fun _ _ h => absurd h Bool.false_ne_true, fun _ => hs⟩
      | true =>
        rw [if_pos rfl, List.nodup_append', List.disjoint_singleton]
        exact ⟨fun h _ _ => h.2.2, fun h => ⟨hs, List.nodup_singleton _, h rfl rfl⟩⟩

/-- A web login from a session of SSO, which deletes the sessions of the user it creates one
of. -/
theorem step_newSessionBySso_gui (hmode : s.sessionMode .gui = .exclusive) (hs : s.OnePerUser)
    (w : World Dn) (ctx : Ctx) (ssoToken : String) (mode : OccupationMode) :
  let s' := Raise.after (newSessionBySso p w ctx ssoToken .gui mode) s
  s'.sessionMode .gui = .exclusive ∧ s'.OnePerUser
  := by
  intro s'
  have hs' : s' = Raise.after (newSessionBySso p w ctx ssoToken .gui mode) s := rfl
  unfold newSessionBySso Raise.after at hs'
  rw [exec_bind_ok (exec_get s)] at hs'
  cases hsource : s.ssoSource p w ctx ssoToken with
  | error e =>
    rw [hsource, exec_bind_error (exec_outcome _ s)] at hs'
    rw [hs']
    exact ⟨hmode, hs⟩
  | ok x =>
    rw [hsource, exec_bind_ok (exec_outcome _ s)] at hs'
    obtain ⟨added, hadded, husers⟩ :=
      users_newGuiSessionBySso (p := p) (w := w) ⟨rfl, hmode⟩ x ssoToken
    have hafter : s'.Users (s.guiUsernames.filter (· ≠ x.username) ++ added) := by
      rw [hs']
      apply after_bind husers
      intro y
      apply Keeps.bind
      · apply Keeps.modify
        intro s₁ h₁
        exact h₁.same (s₁.same_setSessions _ (by decide))
      · intro _
        exact Keeps.pure
    exact ⟨hafter.2, (onePerUser_of_users hafter).mpr (nodup_filter_append hs hadded)⟩

/-- A call keeps the users of the web sessions distinct just if it finds none of its user. -/
theorem step_onePerUser (hmode : s.sessionMode .gui = .exclusive) (hs : s.OnePerUser)
    (c : Call Dn) :
  (s.after p c).sessionMode .gui = .exclusive
    ∧ ((s.after p c).OnePerUser ↔ s.FindsNone c)
  := by
  have hsame {m : ServiceM Session} (hm : Keeps (s.Same .gui) m) :
      (Raise.after m s).sessionMode .gui = .exclusive
        ∧ ((Raise.after m s).OnePerUser ↔ True) := by
    have h := hm.after (.refl .gui s)
    exact ⟨h.2.1.trans hmode, fun _ => trivial, fun _ => onePerUser_of_same hs h⟩
  have hdeletes {s' : Service} (h : s.Deletes s') :
      s'.sessionMode .gui = .exclusive ∧ (s'.OnePerUser ↔ True) :=
    ⟨(congrFun h.sessionMode .gui).trans hmode, fun _ => trivial,
      fun _ => onePerUser_of_deletes hs h⟩
  obtain ⟨w, op⟩ := c
  cases op with
  | newSession ctx username password t domain ip extra =>
    cases t with
    | gui => exact step_newSession_gui hmode hs w ctx username password domain ip extra
    | redfish | sso | kvm | vnc | video =>
      exact hsame (keeps_same_newSession (by decide) _ _ _ _ _ _)
  | newRemoteConsoleSession ctx token t mode =>
    exact hsame (keeps_same_newRemoteConsoleSession (.inl (by decide)) (.inl (by decide)) _ _ _)
  | newSessionBySso ctx ssoToken t mode =>
    cases t with
    | gui =>
      have h := step_newSessionBySso_gui (p := p) hmode hs w ctx ssoToken mode
      exact ⟨h.1, fun _ => trivial, fun _ => h.2⟩
    | redfish | sso | kvm | vnc | video =>
      exact hsame (keeps_same_newSessionBySso (by decide) (by decide) _ _ _)
  | newVncSession ctx vncAccount sessionMode =>
    have h := (keeps_same_newVncSession (p := p) (w := w) (s := s) (t := .gui) (by decide) ctx
      vncAccount sessionMode).after (.refl .gui s)
    exact ⟨h.2.1.trans hmode, fun _ => trivial, fun _ => onePerUser_of_same hs h⟩
  | newMutualAuthSession ctx userId ip => exact step_newMutualAuthSession hmode hs w ctx userId ip
  | setKvmKey | validateSession | deleteSession | deleteSessionByUsername | deleteSessionByIp
  | deleteRemoteSession | deleteAllSession | processTimeoutSessions =>
    exact hdeletes (after_deletes p s (by rfl))

end Steps

/-- Exactly in the runs in which no login finds a session of its user under another name than the
one that was typed, nor one with a certificate a session of its user, there is never more than one
web session for a user. -/
theorem run_onePerUser_iff {Dn : Type} (p : Platform) {s : Service}
    (hmode : s.sessionMode .gui = .exclusive) (hstart : s.sessions .gui = [])
    (l : List (Call Dn)) :
  (∀ s' ∈ Run.states (Service.after p) s l, s'.OnePerUser)
    ↔ Run.Along (Service.after p) Service.FindsNone s l
  := by
  have hs : s.OnePerUser := by
    unfold Service.OnePerUser Service.guiUsernames
    rw [hstart]
    exact List.nodup_nil
  exact Run.invariant_iff_of_kept (fun s c hmode hs => step_onePerUser hmode hs c) hmode hs

/-! ### A user of LDAP twice -/

/-- A web login of a user of LDAP without the domain. -/
def webLogin (token : String) : Call Unit :=
  ⟨plainWorld token, .newSession plainCtx "user" "secret" .gui "" "192.168.1.2" ⟨none, none⟩⟩

theorem run_onePerUser_iff_twice :
  plainService.sessionMode .gui = .exclusive ∧ plainService.sessions .gui = [] ∧
    ((∀ s' ∈ Run.states (Service.after plainPlatform) plainService [webLogin "a", webLogin "b"],
        s'.OnePerUser)
      ↔ Run.Along (Service.after plainPlatform) Service.FindsNone plainService
        [webLogin "a", webLogin "b"])
  := ⟨rfl, rfl, run_onePerUser_iff plainPlatform rfl rfl _⟩

/-- The second login does not delete the session of the first one. -/
theorem webLogin_twice :
  ¬ ∀ s' ∈ Run.states (Service.after plainPlatform) plainService [webLogin "a", webLogin "b"],
    s'.OnePerUser
  := by
  unfold Service.OnePerUser
  decide +kernel

end Sessions

end BmcAccount
