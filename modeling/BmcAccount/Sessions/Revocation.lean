import BmcAccount.Sessions.RemoteEvents

/-!
# The sessions of users who lose their groups

A session that is created by a login of LDAP has a dictionary with the controller and the groups
that its user was authenticated by. A console session that is created from it has none, although its
user is the same; and a group of Kerberos that is changed has the numbers of a group of LDAP.
`kicks_iff` says when an event after a run of requests removes exactly the sessions of the users whom
it concerns: when neither makes a difference.
-/

namespace BmcAccount

namespace Sessions

open Raise

/-! ## Creations -/

/-- Sessions have only been removed. -/
def Service.Loses (s s' : Service) : Prop := ∀ u, s'.sessions u ⊆ s.sessions u

/-- A session with the identifier and the dictionary is the last one of its type, and the others
have been there before. -/
def Service.Gains (i : String) (d : Option RemoteDict) (t : SessionType) (s s' : Service) : Prop :=
  ∃ l y, y.sessionId = i ∧ y.remoteDict = d ∧ l ⊆ s.sessions t ∧ s'.sessions t = l ++ [y]
    ∧ ∀ u, u ≠ t → s'.sessions u ⊆ s.sessions u

/-- What a creation leaves. -/
def Service.Born (i : String) (t : SessionType) (s : Service) (x : Session) (s' : Service) : Prop :=
  x.sessionId = i ∧ s.Gains i none t s'

section Create

variable {Dn : Type} {p : Platform} {w : World Dn} {s : Service} {t : SessionType} {i : String}

theorem Service.Loses.refl (s : Service) :
  s.Loses s
  := fun _ => List.Subset.refl _

theorem Service.Loses.setSessions {s' : Service} (h : s.Loses s') {l : List Session}
    (hl : l ⊆ s.sessions t) :
  s.Loses (s'.setSessions t l)
  := by
  intro u
  by_cases hu : u = t
  · subst hu
    rwa [s'.sessions_setSessions]
  · rw [s'.sessions_setSessions_ne l hu]
    exact h u

/-- Others may have been removed before a creation. -/
theorem born_of_enters {m : ServiceM Session}
    (hm : ∀ s : Service, Spec s.SameSessions m (s.Enters i t) s.SameSessions) :
  Spec s.Loses m (s.Born i t) s.Loses
  := by
  intro s' hs
  have hmove := hm s' s' rfl
  rcases hexec : exec m s' with ⟨e | x, s''⟩
  · rw [hexec] at hmove
    intro u
    rw [show s''.sessions = s'.sessions from hmove]
    exact hs u
  · rw [hexec] at hmove
    obtain ⟨hid, hdict, hsessions⟩ := hmove
    refine ⟨hid, s'.sessions t, x, hid, hdict, hs t, ?_, ?_⟩
    · rw [hsessions]
      exact s'.sessions_setSessions t _
    · intro u hu
      rw [hsessions]
      change (s'.setSessions t _).sessions u ⊆ _
      rw [s'.sessions_setSessions_ne _ hu]
      exact hs u

theorem born_ssoCreate (account : AccountInfo) (authType : AuthType) (ip : String)
    (browserType : Option ℤ) :
  Spec s.Loses (ssoCreate p w account authType ip browserType)
    (s.Born (p.generateSessionId w.token) .sso) s.Loses
  := by
  unfold ssoCreate
  apply Spec.keeps_bind Keeps.get fun _ h => h
  intro _
  apply Spec.keeps_bind _ fun _ h => h
  · intro _
    apply born_of_enters
    intro s
    exact enters_newSessionObject (f := (·.place none (.number 0))) (fun _ => ⟨rfl, rfl⟩)
      account authType ip browserType none
  · apply Keeps.onlyIf
    apply Keeps.modify
    intro _ hs
    exact hs.setSessions (List.nil_subset _)

theorem born_newAuthenticatedSession (ctx : Ctx) (username : String) (info : AccountInfo)
    (authType : AuthType) (ip : String) (extra : ExtraData) :
  Spec s.Loses (newAuthenticatedSession p w ctx username info authType t ip extra)
    (s.Born (p.generateSessionId w.token) t) s.Loses
  := by
  unfold newAuthenticatedSession
  apply Spec.ite
  · rintro rfl
    exact born_of_enters fun _ => enters_newKvmSession _ _ _ _ _
  · intro _
    unfold newOrdinarySession
    apply Spec.keeps_bind Keeps.get fun _ h => h
    intro _
    apply Spec.keeps_bind _ fun _ h => h
    · intro _
      apply Spec.ite
      · rintro rfl
        exact born_ssoCreate _ _ _ _
      · intro _
        exact born_of_enters fun _ => enters_create _ _ _ _ _
    · apply Keeps.onlyIf
      apply Keeps.modify
      intro s' hs
      apply hs.setSessions
      exact List.Subset.trans (List.filter_subset_self _) (hs t)

/-- The dictionary that `handle_if_remote_session` leaves. -/
def remoteDictOf (authType : AuthType) (group : Option RemoteDict) : Option RemoteDict :=
  if authType.isLdap then group else none

theorem spec_handleIfRemoteSession (authType : AuthType) (group : Option RemoteDict)
    {E : Service → Prop} :
  Spec (s.Gains i none t) (handleIfRemoteSession t authType group)
    (fun _ => s.Gains i (remoteDictOf authType group) t) E
  := by
  unfold handleIfRemoteSession remoteDictOf
  cases authType.isLdap with
  | false => exact Spec.pure fun _ h => h
  | true =>
    apply Spec.modify
    rintro s' ⟨l, y, hid, -, hl, hown, hothers⟩
    refine ⟨l, { y with remoteDict := group }, hid, rfl, hl, ?_, ?_⟩
    · rw [s'.sessions_setSessions, hown, List.modifyLast_concat]
    · intro u hu
      rw [s'.sessions_setSessions_ne _ hu]
      exact hothers u hu

/-- A login creates a session with what the authentication has found. -/
theorem spec_newSession (ctx : Ctx) (username password domain ip : String) (extra : ExtraData) :
  Spec (· = s) (newSession p w ctx username password t domain ip extra)
    (fun x s' => x.sessionId = p.generateSessionId w.token ∧
      ∃ r, w.login.authenticate ctx.clientAddr ctx.interface username password t ip domain = .ok r
        ∧ s.Gains (p.generateSessionId w.token) (remoteDictOf r.2 r.1.group) t s')
    s.Loses
  := by
  have hloses (s' : Service) (hs : s' = s) : s.Loses s' := hs ▸ .refl s
  unfold newSession
  apply Spec.refuse_bind hloses
  intro _
  apply Spec.get_bind
  apply Spec.refuse_bind hloses
  intro _
  apply Spec.refuse_bind hloses
  intro _
  cases w.login.authenticate ctx.clientAddr ctx.interface username password t ip domain with
  | error e => exact Spec.throw hloses
  | ok r =>
    have hborn := born_newAuthenticatedSession (p := p) (w := w) (s := s) (t := t) ctx username
      r.1 r.2 ip extra
    apply Spec.bind (hborn.weaken hloses (fun _ _ h => h) fun _ h => h)
    rintro x s' ⟨hid, hgains⟩
    refine Spec.bind (spec_handleIfRemoteSession r.2 r.1.group) ?_ s' hgains
    intro _
    exact Spec.pure fun s'' h => ⟨hid, r, rfl, h⟩

end Create

/-! ## Origins -/

/-- What a session has been created from: a login and what its user was authenticated by, another
session, or a key. -/
inductive Origin where
  | login (authority : Option Authority)
  | console (parent : Origin)
  | key

/-- What the user was authenticated by, directly or through other sessions. -/
def Origin.authority : Origin → Option Authority
  | .login a => a
  | .console parent => parent.authority
  | .key => none

/-- The type of the groups that an authentication is by. -/
def AuthType.groupType : AuthType → Option Ldap.RemoteGroupType
  | .ldapAutoMatch | .ldapServer1 | .ldapServer2 | .ldapServer3 | .ldapServer4 | .ldapServer5
  | .ldapServer6 => some .ldap
  | .ldapKerberosSso | .kerberosServer => some .kerberos
  | .localUser | .ssoLocal | .ssoLdap | .skipAuth | .autoMatch => none

/-- What a user who has been authenticated was authenticated by. -/
def authorityOf (r : AccountInfo × AuthType) : Option Authority :=
  r.2.groupType.bind fun groupType => r.1.group.map fun d => ⟨groupType, d⟩

/-- The requests for sessions. -/
inductive Request (Dn : Type) where
  | newSession (w : World Dn) (ctx : Ctx) (username password : String) (t : SessionType)
      (domain ip : String) (extra : ExtraData)
  | newRemoteConsoleSession (w : World Dn) (ctx : Ctx) (token : String) (t : SessionType)
      (mode : OccupationMode)

section Request

variable {Dn : Type} (p : Platform)

def Request.world : Request Dn → World Dn
  | .newSession w .. => w
  | .newRemoteConsoleSession w .. => w

/-- The identifier that is generated for the request. -/
def Request.sessionId (r : Request Dn) : String := p.generateSessionId r.world.token

def Request.program : Request Dn → ServiceM Session
  | .newSession w ctx username password t domain ip extra =>
    Sessions.newSession p w ctx username password t domain ip extra
  | .newRemoteConsoleSession w ctx token t mode =>
    Sessions.newRemoteConsoleSession p w ctx token t mode

def Request.call : Request Dn → Call Dn
  | .newSession w ctx username password t domain ip extra =>
    ⟨w, .newSession ctx username password t domain ip extra⟩
  | .newRemoteConsoleSession w ctx token t mode => ⟨w, .newRemoteConsoleSession ctx token t mode⟩

end Request

/-- The service, and what the sessions have been created from. -/
structure Traced where
  service : Service
  origins : String → Origin

/-- No sessions. -/
def Traced.start (config : Service) : Traced where
  service := { config with sessions := fun _ => [] }
  origins _ := .key

section Traced

variable {Dn : Type} (p : Platform)

/-- What the session that a request asks for is created from. -/
def Traced.origin (tr : Traced) : Request Dn → Origin
  | .newSession w ctx username password t domain ip _ =>
    .login ((w.login.authenticate ctx.clientAddr ctx.interface username password t ip
      domain).toOption.bind authorityOf)
  | .newRemoteConsoleSession _ _ token _ _ =>
    ((tr.service.parent p token).map fun x => Origin.console (tr.origins x.sessionId)).getD .key

/-- The state after a request, which may raise. -/
def Traced.after (tr : Traced) (r : Request Dn) : Traced :=
  match exec (r.program p) tr.service with
  | (.ok x, s) => ⟨s, Function.update tr.origins x.sessionId (tr.origin p r)⟩
  | (.error _, s) => ⟨s, tr.origins⟩

/-- The origins are only recorded. -/
theorem Traced.service_after (tr : Traced) (r : Request Dn) :
  (tr.after p r).service = tr.service.after p r.call
  := by
  have hcall : tr.service.after p r.call = Raise.after (r.program p) tr.service := by
    cases r <;> rfl
  rw [hcall]
  unfold Traced.after Raise.after
  rcases exec (r.program p) tr.service with ⟨e | x, s⟩ <;> rfl

end Traced

/-- The types of the sessions that are to be removed. -/
def kickedTypes : List SessionType := [.gui, .redfish, .kvm, .video]

/-- The event removes exactly the sessions whose users it concerns, and none of a user who was
authenticated by groups of another type. -/
structure Traced.Kicks (p : Platform) (t : Ldap.GroupTable) (e : RemoteEvent) (tr : Traced) :
    Prop where
  exact : ∀ u ∈ kickedTypes, ∀ x ∈ tr.service.sessions u,
    x ∉ (tr.service.onEvent p t e).sessions u
      ↔ ∃ a ∈ (tr.origins x.sessionId).authority, e.Concerns t a
  others : ∀ u, ∀ x ∈ tr.service.sessions u, ∀ a ∈ (tr.origins x.sessionId).authority,
    ¬ e.IsAbout t a.groupType → x ∈ (tr.service.onEvent p t e).sessions u

/-- The event concerns the user of no session that was created from another one; and an event that
is not about LDAP has not the numbers that the user of a login was authenticated by. -/
structure Traced.Spares (t : Ldap.GroupTable) (e : RemoteEvent) (tr : Traced) : Prop where
  consoles : ∀ u ∈ kickedTypes, ∀ x ∈ tr.service.sessions u, ∀ parent,
    tr.origins x.sessionId = .console parent → ∀ a ∈ parent.authority, ¬ e.Concerns t a
  types : ¬ e.IsAbout t .ldap → ∀ u, ∀ x ∈ tr.service.sessions u, ∀ a,
    tr.origins x.sessionId = .login (some a) → ¬ e.Matches t a.dict

/-! ## Runs -/

/-- A session of the origin has the dictionary: that of the groups after a login, and none after
another creation. -/
def Origin.Fits (d : Option RemoteDict) : Origin → Prop
  | .login a => d = a.map (·.dict) ∧ ∀ b ∈ a, b.groupType = .ldap
  | .console _ | .key => d = none

/-- The identifiers of the sessions are among those that have been generated, and the dictionaries
fit the origins. -/
structure Traced.Sound (used : List String) (tr : Traced) : Prop where
  used : ∀ u, ∀ x ∈ tr.service.sessions u, x.sessionId ∈ used
  fits : ∀ u, ∀ x ∈ tr.service.sessions u, (tr.origins x.sessionId).Fits x.remoteDict

section Runs

variable {Dn : Type} {p : Platform} {w : World Dn} {used : List String} {tr : Traced}

theorem Service.Gains.mem {i : String} {d : Option RemoteDict} {t : SessionType} {s s' : Service}
    (h : s.Gains i d t s') {u : SessionType} {z : Session} (hz : z ∈ s'.sessions u) :
  z ∈ s.sessions u ∨ (z.sessionId = i ∧ z.remoteDict = d)
  := by
  obtain ⟨l, y, hid, hdict, hl, hown, hothers⟩ := h
  by_cases hu : u = t
  · subst hu
    rw [hown] at hz
    rcases List.mem_append.mp hz with hz | hz
    · exact .inl (hl hz)
    · obtain rfl := List.mem_singleton.mp hz
      exact .inr ⟨hid, hdict⟩
  · exact .inl (hothers u hu hz)

/-- A login of LDAP leaves the dictionary of the groups, another one none. -/
theorem fits_authorityOf {ctx : Ctx} {username password ip domain : String} {t : SessionType}
    {r : AccountInfo × AuthType}
    (h : w.login.authenticate ctx.clientAddr ctx.interface username password t ip domain = .ok r) :
  (Origin.login (authorityOf r)).Fits (remoteDictOf r.2 r.1.group)
  := by
  obtain ⟨info, authType⟩ := r
  rcases LoginEnv.authenticate_ok h with ⟨rfl, -, hgroup⟩ | ⟨hldap, i, _, innerIds, -, hgroup, -⟩
  · exact ⟨rfl, nofun⟩
  · have htype : authType.groupType = some .ldap := by
      cases authType <;> first | rfl | cases hldap
    have hauthority : authorityOf (info, authType) = some ⟨.ldap, ⟨i, innerIds⟩⟩ := by
      unfold authorityOf
      rw [htype, hgroup]
      rfl
    rw [hauthority, remoteDictOf, if_pos hldap, hgroup]
    refine ⟨rfl, ?_⟩
    rintro b ⟨⟩
    rfl

theorem Traced.Sound.loses (h : tr.Sound used) {s' : Service} (hs : tr.service.Loses s')
    (i : String) :
  Traced.Sound (i :: used) ⟨s', tr.origins⟩
  where
    used u x hx := List.mem_cons_of_mem i (h.used u x (hs u hx))
    fits u x hx := h.fits u x (hs u hx)

theorem Traced.Sound.gains (h : tr.Sound used) {i : String} (hi : i ∉ used)
    {d : Option RemoteDict} {t : SessionType} {s' : Service} (hs : tr.service.Gains i d t s')
    {o : Origin} (ho : o.Fits d) :
  Traced.Sound (i :: used) ⟨s', Function.update tr.origins i o⟩
  where
    used u x hx := by
      rcases hs.mem hx with hx | ⟨hid, -⟩
      · exact List.mem_cons_of_mem i (h.used u x hx)
      · exact hid ▸ List.mem_cons_self
    fits u x hx := by
      rcases hs.mem hx with hx | ⟨hid, hdict⟩
      · have hne : x.sessionId ≠ i := fun heq => hi (heq ▸ h.used u x hx)
        dsimp only
        rw [Function.update_of_ne hne]
        exact h.fits u x hx
      · dsimp only
        rw [hid, Function.update_self, hdict]
        exact ho

/-- What a request creates has the identifier that is generated for it and fits its origin. -/
theorem Request.spec_program (tr : Traced) (r : Request Dn) :
  Spec (· = tr.service) (r.program p)
    (fun x s => x.sessionId = r.sessionId p
      ∧ ∃ d t, tr.service.Gains (r.sessionId p) d t s ∧ (tr.origin p r).Fits d)
    tr.service.Loses
  := by
  cases r with
  | newSession w ctx username password t domain ip extra =>
    apply (spec_newSession ctx username password domain ip extra).weaken (fun _ h => h) _
      fun _ h => h
    rintro x s ⟨hid, r, hr, hgains⟩
    refine ⟨hid, _, t, hgains, ?_⟩
    unfold Traced.origin
    dsimp only
    rw [hr]
    exact fits_authorityOf hr
  | newRemoteConsoleSession w ctx token t mode =>
    apply (born_of_enters fun s => enters_newRemoteConsoleSession ctx token mode).weaken
      (fun _ h => h ▸ Service.Loses.refl _) _ fun _ h => h
    rintro x s ⟨hid, hgains⟩
    refine ⟨hid, none, t, hgains, ?_⟩
    unfold Traced.origin
    dsimp only
    cases tr.service.parent p token <;> rfl

/-- A request with a new identifier. -/
theorem Traced.Sound.after (h : tr.Sound used) (r : Request Dn) (hi : r.sessionId p ∉ used) :
  (tr.after p r).Sound (r.sessionId p :: used)
  := by
  have hspec := r.spec_program (p := p) tr tr.service rfl
  unfold Traced.after
  rcases hexec : exec (r.program p) tr.service with ⟨e | x, s⟩
  · rw [hexec] at hspec
    exact h.loses hspec _
  · rw [hexec] at hspec
    obtain ⟨hid, d, t, hgains, hfits⟩ := hspec
    dsimp only
    rw [hid]
    exact h.gains hi hgains hfits

theorem sound_start (config : Service) :
  (Traced.start config).Sound []
  where
    used _ _ hx := absurd hx List.not_mem_nil
    fits _ _ hx := absurd hx List.not_mem_nil

/-- In a run whose requests get different identifiers the dictionaries fit the origins. -/
theorem Traced.Sound.run (h : tr.Sound used) {l : List (Request Dn)}
    (hids : (l.map (Request.sessionId p) ++ used).Nodup) :
  ∃ used', (l.foldl (Traced.after p) tr).Sound used'
  := by
  induction l generalizing used tr with
  | nil => exact ⟨used, h⟩
  | cons r l ih =>
    rw [List.map_cons, List.cons_append, List.nodup_cons] at hids
    have hi : r.sessionId p ∉ used := fun hmem => hids.1 (List.mem_append_right _ hmem)
    apply ih (h.after r hi)
    exact List.nodup_middle.mpr (List.nodup_cons.mpr hids)

end Runs

/-! ## What is removed -/

section Kicks

variable {p : Platform} {used : List String} {tr : Traced} {t : Ldap.GroupTable} {e : RemoteEvent}

theorem notMem_onEvent_iff {s : Service} {u : SessionType} {x : Session} (hx : x ∈ s.sessions u) :
  x ∉ (s.onEvent p t e).sessions u ↔ ∃ d ∈ x.remoteDict, e.Matches t d
  := by
  rw [sessions_onEvent, List.mem_filter, ← hits_iff]
  simp [hx]

/-- Only a session that was created by a login of LDAP has a dictionary. -/
theorem Origin.Fits.exists_login {x : Option RemoteDict} {o : Origin} (h : o.Fits x) {d : RemoteDict}
    (hd : d ∈ x) :
  ∃ a : Authority, o = .login (some a) ∧ a.dict = d ∧ a.groupType = .ldap
  := by
  cases o with
  | login a =>
    obtain ⟨rfl, htype⟩ := h
    obtain ⟨a, rfl, rfl⟩ := Option.map_eq_some_iff.mp hd
    exact ⟨a, rfl, rfl, htype a rfl⟩
  | console parent | key =>
    obtain rfl : x = none := h
    cases hd

theorem Traced.Sound.kicks_iff_spares (h : tr.Sound used) :
  tr.Kicks p t e ↔ tr.Spares t e
  := by
  constructor
  · intro hkicks
    constructor
    · intro u hu x hx parent horigin a ha hconcerns
      have hremoved := (hkicks.exact u hu x hx).mpr ⟨a, by rwa [horigin], hconcerns⟩
      obtain ⟨d, hd, -⟩ := (notMem_onEvent_iff hx).mp hremoved
      have hfits := h.fits u x hx
      rw [horigin] at hfits
      rw [show x.remoteDict = none from hfits] at hd
      cases hd
    · intro habout u x hx a horigin hmatches
      have hfits := h.fits u x hx
      rw [horigin] at hfits
      have htype := hfits.2 a rfl
      have hstays := hkicks.others u x hx a (by rw [horigin]; rfl) (by rwa [htype])
      refine (notMem_onEvent_iff hx).mpr ⟨a.dict, ?_, hmatches⟩ hstays
      rw [hfits.1]
      rfl
  · intro hspares
    have hlogin {u : SessionType} {x : Session} (hx : x ∈ tr.service.sessions u)
        (hout : x ∉ (tr.service.onEvent p t e).sessions u) :
        ∃ a, tr.origins x.sessionId = .login (some a) ∧ e.Concerns t a := by
      obtain ⟨d, hd, hmatches⟩ := (notMem_onEvent_iff hx).mp hout
      obtain ⟨a, horigin, rfl, htype⟩ := (h.fits u x hx).exists_login hd
      refine ⟨a, horigin, ?_, hmatches⟩
      by_contra habout
      rw [htype] at habout
      exact hspares.types habout u x hx a horigin hmatches
    constructor
    · intro u hu x hx
      constructor
      · intro hout
        obtain ⟨a, horigin, hconcerns⟩ := hlogin hx hout
        exact ⟨a, by rw [horigin]; rfl, hconcerns⟩
      · rintro ⟨a, ha, hconcerns⟩
        have hfits := h.fits u x hx
        cases horigin : tr.origins x.sessionId with
        | login b =>
          rw [horigin] at ha hfits
          obtain rfl : b = some a := ha
          exact (notMem_onEvent_iff hx).mpr ⟨a.dict, hfits.1, hconcerns.2⟩
        | console parent =>
          rw [horigin] at ha
          exact absurd hconcerns (hspares.consoles u hu x hx parent horigin a ha)
        | key =>
          rw [horigin] at ha
          cases ha
    · intro u x hx a ha habout
      by_contra hout
      obtain ⟨b, horigin, hconcerns⟩ := hlogin hx hout
      rw [horigin] at ha
      obtain rfl : b = a := Option.some_inj.mp ha
      exact habout hconcerns.1

end Kicks

/-- Whether an event after a run of requests removes exactly the sessions that it should. -/
theorem kicks_iff {Dn : Type} (p : Platform) (config : Service) (l : List (Request Dn))
    (hids : (l.map (Request.sessionId p)).Nodup) (t : Ldap.GroupTable) (e : RemoteEvent) :
  (l.foldl (Traced.after p) (Traced.start config)).Kicks p t e
    ↔ (l.foldl (Traced.after p) (Traced.start config)).Spares t e
  := by
  obtain ⟨used, h⟩ := (sound_start config).run (p := p) (l := l) (by rwa [List.append_nil])
  exact h.kicks_iff_spares

/-! ### A console session of a user of LDAP, and a group of Kerberos -/

/-- A web login of a user of LDAP. -/
def ldapRequest (token : String) : Request Unit :=
  .newSession (plainWorld token) plainCtx "user" "secret" .gui "" "192.168.1.2" ⟨none, none⟩

/-- A session of KVM that is created from another session. -/
def consoleRequest (token parent : String) : Request Unit :=
  .newRemoteConsoleSession (plainWorld token) plainCtx parent .kvm .shared

/-- A web session of a user of LDAP, and a session of KVM that is created from it. -/
def consoleRun : Traced :=
  [ldapRequest "a", consoleRequest "b" "a"].foldl (Traced.after plainPlatform)
    (Traced.start plainService)

/-- A group of Kerberos. -/
def kerberosGroup : Ldap.GroupRow :=
  ⟨1, 1, 1, 1, "S-1-5", 2, some "users", some "", some 2, some 0, some 1⟩

theorem kicks_iff_console :
  ([ldapRequest "a", consoleRequest "b" "a"].map (Request.sessionId plainPlatform)).Nodup ∧
    (consoleRun.Kicks plainPlatform .empty .configChanged
      ↔ consoleRun.Spares .empty .configChanged)
  := ⟨by decide, kicks_iff plainPlatform plainService _ (by decide) _ _⟩

/-- The session of KVM has no dictionary, although its user is that of the web session. -/
theorem consoleRun_sessions :
  (∃ x ∈ consoleRun.service.sessions .gui, x.remoteDict = some ⟨1, 2⟩
      ∧ (consoleRun.origins x.sessionId).authority = some ⟨.ldap, ⟨1, 2⟩⟩)
    ∧ ∃ x ∈ consoleRun.service.sessions .kvm, x.remoteDict = none
      ∧ (consoleRun.origins x.sessionId).authority = some ⟨.ldap, ⟨1, 2⟩⟩
  := by
  decide +kernel

theorem named_kerberosGroup :
  (Ldap.GroupTable.empty.enter kerberosGroup).named "KERBEROS1_1" = some kerberosGroup
  := by
  decide +kernel

/-- When LDAP is switched off the session of KVM stays, and when the group of Kerberos is deleted
the web session is removed. -/
theorem not_kicks :
  ¬ consoleRun.Kicks plainPlatform .empty .configChanged
    ∧ ¬ consoleRun.Kicks plainPlatform (.enter .empty kerberosGroup) (.groupDeleted "KERBEROS1_1")
  := by
  obtain ⟨⟨x, hx, hxdict, hxauthority⟩, y, hy, hydict, hyauthority⟩ := consoleRun_sessions
  constructor
  · intro h
    have hremoved := (h.exact .kvm (by decide) y hy).mpr ⟨_, hyauthority, rfl, trivial⟩
    obtain ⟨d, hd, -⟩ := (notMem_onEvent_iff hy).mp hremoved
    rw [hydict] at hd
    cases hd
  · intro h
    have hmatches : (RemoteEvent.groupDeleted "KERBEROS1_1").Matches (.enter .empty kerberosGroup)
        ⟨1, 2⟩ := ⟨kerberosGroup, named_kerberosGroup, by decide⟩
    apply (notMem_onEvent_iff hx).mpr ⟨_, hxdict, hmatches⟩
    apply h.others .gui x hx _ hxauthority
    rintro ⟨g, hg, htype⟩
    obtain rfl := Option.some_inj.mp (named_kerberosGroup.symm.trans hg)
    cases htype

end Sessions

end BmcAccount
