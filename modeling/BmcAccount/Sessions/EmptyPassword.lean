import BmcAccount.Ldap.Bind
import BmcAccount.Sessions.Login

/-!
# Logins with an empty password

Neither the service nor the C library looks at the password of an LDAP user before it is sent.
Whether an empty password lets someone in is therefore left to the directory servers, which may
take a simple bind with an empty password for an anonymous one and accept it.
`refusesEmpty_iff` says that nobody is authenticated exactly if the servers refuse all requests
that can be sent with the empty password.
-/

namespace BmcAccount

namespace Sessions

open LdapBind

variable {Dn : Type}

section Refused

variable {l : LdapEnv Dn} {userName password ip : String} {interface : Option LoginInterface}

/-- The C library authenticates nobody with the password. -/
def LdapEnv.Refuses (l : LdapEnv Dn) (password : String) : Prop :=
  ∀ info group, info.password = password → (Ldap.mscmLdapAuthenticate l.server info group).1 ≠ 0

theorem LdapEnv.authenticate_refused (h : l.Refuses password) {user name : String}
    {serverId : ℕ} {c : Controller} {account : AccountInfo} :
  l.authenticate user password serverId c ip interface name ≠ .ok (.ok account)
  := by
  intro hok
  unfold LdapEnv.authenticate Ldap.authenticate at hok
  rcases hinfo : Ldap.authInfo l.groups serverId c.userDomain user password with _ | info
  · rw [hinfo] at hok
    cases hok
  · have hpassword : info.password = password := by
      obtain ⟨group, -, rfl⟩ := Option.map_eq_some_iff.mp hinfo
      rfl
    rw [hinfo, Option.map_some, Ldap.authorise, if_pos (h info _ hpassword)] at hok
    cases hok

theorem LdapEnv.askDivided_refused (h : l.Refuses password) {serverId : ℕ} {c : Controller}
    {account : AccountInfo} :
  l.askDivided userName password ip interface serverId c ≠ .ok (.ok account)
  := by
  intro hok
  unfold LdapEnv.askDivided at hok
  split at hok
  · split at hok
    · exact LdapEnv.authenticate_refused h hok
    · cases hok
  · cases hok

theorem LdapEnv.ldapAuthenticate_refused (h : l.Refuses password) {serverId : ℕ}
    {account : AccountInfo} :
  l.ldapAuthenticate userName password ip interface serverId ≠ .ok account
  := by
  intro hok
  unfold LdapEnv.ldapAuthenticate at hok
  dsimp only at hok
  split at hok
  · cases hok
  · split at hok
    · cases hok
    obtain ⟨divided, hdivided, hok⟩ := exists_of_bind_eq_ok hok
    rcases divided with ret | account'
    · obtain ⟨whole, hwhole, hok⟩ := exists_of_bind_eq_ok hok
      rcases whole with ret' | account'
      · cases hok
      · exact LdapEnv.authenticate_refused h hwhole
    · exact LdapEnv.askDivided_refused h hdivided

theorem LdapEnv.askDomains_refused (h : l.Refuses password) {account : AccountInfo} :
  l.askDomains userName password ip interface ≠ .ok (.ok account)
  := by
  intro hok
  unfold LdapEnv.askDomains at hok
  split at hok
  · refine firstAccepted_ok (P := fun _ => False) (fun i account' hask => ?_) hok
    unfold LdapEnv.askDomain at hask
    split at hask
    · cases hask
    · exact LdapEnv.authenticate_refused h hask
  · cases hok

theorem LdapEnv.askWhole_refused (h : l.Refuses password) {i : ℕ} {account : AccountInfo} :
  l.askWhole userName password ip interface i ≠ .ok (.ok account)
  := by
  intro hok
  unfold LdapEnv.askWhole at hok
  split at hok
  · cases hok
  · split at hok
    · exact LdapEnv.authenticate_refused h hok
    · cases hok

theorem LdapEnv.ldapAuthenticateAutoMatch_refused (h : l.Refuses password)
    {account : AccountInfo} :
  l.ldapAuthenticateAutoMatch userName password ip interface ≠ .ok account
  := by
  intro hok
  unfold LdapEnv.ldapAuthenticateAutoMatch at hok
  dsimp only at hok
  split at hok
  · cases hok
  · obtain ⟨divided, hdivided, hok⟩ := exists_of_bind_eq_ok hok
    rcases divided with ret | account'
    · obtain ⟨whole, hwhole, hok⟩ := exists_of_bind_eq_ok hok
      rcases whole with ret' | account'
      · cases hok
      · exact firstAccepted_ok (P := fun _ => False)
          (fun _ _ hask => LdapEnv.askWhole_refused h hask) hwhole
    · exact LdapEnv.askDomains_refused h hdivided

end Refused

/-- A login that succeeds is none by LDAP. -/
theorem LoginEnv.authenticate_refused {w : LoginEnv Dn}
    {clientAddr ctxInterface userName password ip domain : String} {sessionType : SessionType}
    (hrefuses : w.ldap.Refuses password) {account : AccountInfo} {authType : AuthType}
    (h : w.authenticate clientAddr ctxInterface userName password sessionType ip domain
      = .ok (account, authType)) :
  authType.isLdap = false
  := by
  unfold LoginEnv.authenticate at h
  dsimp only at h
  split at h
  · cases h
  · split at h
    · cases h
    · split at h
      · next r hr =>
        cases h
        have htable := firstSuccess_ok hr
        cases authType with
        | localUser => rfl
        | ldapAutoMatch => exact absurd htable (LdapEnv.ldapAuthenticateAutoMatch_refused hrefuses)
        | ldapServer1 | ldapServer2 | ldapServer3 | ldapServer4 | ldapServer5 | ldapServer6 =>
          exact absurd htable (LdapEnv.ldapAuthenticate_refused hrefuses)
        | ldapKerberosSso | kerberosServer | ssoLocal | ssoLdap | skipAuth | autoMatch =>
          cases htable
      · cases h

/-! ## The empty password -/

variable [DecidableEq Dn]

/-- Nobody is authenticated by LDAP with the empty password, whatever the directories contain
and whatever is configured in the service: not by the C library, not by a controller that is
named, not by the controllers in turn, and not by a login. -/
structure RefusesEmpty (controllers : Controllers Dn) : Prop where
  library : ∀ content info group, info.password = "" →
    (Ldap.mscmLdapAuthenticate (controllers.toServer content) info group).1 ≠ 0
  ldapAuthenticate : ∀ (l : LdapEnv Dn) content, l.server = controllers.toServer content →
    ∀ userName ip interface serverId account,
      l.ldapAuthenticate userName "" ip interface serverId ≠ .ok account
  ldapAuthenticateAutoMatch : ∀ (l : LdapEnv Dn) content,
    l.server = controllers.toServer content → ∀ userName ip interface account,
      l.ldapAuthenticateAutoMatch userName "" ip interface ≠ .ok account
  authenticate : ∀ (w : LoginEnv Dn) content, w.ldap.server = controllers.toServer content →
    ∀ clientAddr ctxInterface userName sessionType ip domain account authType,
      w.authenticate clientAddr ctxInterface userName "" sessionType ip domain
        = .ok (account, authType) → authType.isLdap = false

/-- Nobody is authenticated with the empty password exactly if no server admits a user with
it. -/
theorem refusesEmpty_iff (controllers : Controllers Dn) :
  RefusesEmpty controllers
    ↔ ∀ info : Ldap.LdapAuthInfo, info.password = "" → ¬ controllers.Admits info
  := by
  constructor
  · intro h info hpassword hadmits
    obtain ⟨content, groupCnt, groups, hok⟩ :=
      (mscmLdapAuthenticate_iff controllers info fun _ => 0xff).mpr hadmits
    exact h.library content { info with groupCnt, group := groups } _ hpassword hok
  · intro h
    have hlibrary : ∀ content info group, info.password = "" →
        (Ldap.mscmLdapAuthenticate (controllers.toServer content) info group).1 ≠ 0 := by
      intro content info group hpassword hok
      apply h info hpassword
      exact (mscmLdapAuthenticate_iff controllers info group).mp
        ⟨content, info.groupCnt, info.group, hok⟩
    have hrefuses : ∀ (l : LdapEnv Dn) content, l.server = controllers.toServer content →
        l.Refuses "" := by
      intro l content hserver info group hpassword
      rw [hserver]
      exact hlibrary content info group hpassword
    exact
      { library := hlibrary
        ldapAuthenticate l content hserver _ _ _ _ _ :=
          LdapEnv.ldapAuthenticate_refused (hrefuses l content hserver)
        ldapAuthenticateAutoMatch l content hserver _ _ _ _ :=
          LdapEnv.ldapAuthenticateAutoMatch_refused (hrefuses l content hserver)
        authenticate w content hserver _ _ _ _ _ _ _ _ :=
          LoginEnv.authenticate_refused (hrefuses w.ldap content hserver) }

/-- A server that accepts a simple bind with a name and without a password. -/
def acceptsUnauthenticated : BindRequest → Bool
  | .sasl _ _ _ => false
  | .simple userdn password => userdn ≠ [] && password = []

/-- The controllers have that server, no folder and no proxy user. -/
def unauthenticatedControllers : Controllers (List UInt8) where
  server _ := some acceptsUnauthenticated
  folder _ := []
  bindDn _ := []
  bindDnPwd _ := []
  groupDn _ g := (bytes g.groupName, true)
  userDn _ cn := ⟨cn, cn⟩

/-- The group `ops` has the user `ada`. -/
def adaContent : Content (List UInt8) where
  users _ := oneEntry (bytes "ada")
  groups _ := oneGroup (bytes "ada") (bytes "ops")

/-- LDAP with the controller `1` and that group. -/
def adaEnv : LdapEnv (List UInt8) where
  enabled := true
  controllers i := if i = 1 then some ⟨"10.0.0.2", "example.com"⟩ else none
  server := unauthenticatedControllers.toServer adaContent
  groups i := if i = 1 then some ⟨.ldap, 1, 1, "ops", "", 4, 4, 0, 1⟩ else none
  rules _ _ := true
  allocUid := 1001

/-- The user `ada` gets in without a password. -/
theorem not_refusesEmpty :
  (adaEnv.ldapAuthenticate "ada" "" "10.0.0.9" (some .web) 1).toBool
    ∧ ¬ RefusesEmpty unauthenticatedControllers
  := by
  have hok : (adaEnv.ldapAuthenticate "ada" "" "10.0.0.9" (some .web) 1).toBool := by
    decide +kernel
  use hok
  intro h
  have hnever := h.ldapAuthenticate adaEnv adaContent rfl "ada" "10.0.0.9" (some .web) 1
  rcases haccount : adaEnv.ldapAuthenticate "ada" "" "10.0.0.9" (some .web) 1 with e | account
  · rw [haccount] at hok
    cases hok
  · exact hnever account haccount

end Sessions

end BmcAccount
