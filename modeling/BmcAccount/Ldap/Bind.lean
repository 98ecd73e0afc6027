import BmcAccount.Ldap.Authorise
import BmcAccount.Ldap.BindDn
import BmcAccount.Ldap.Resolve
import BmcAccount.Ldap.UserSearch

/-!
# The binds of an LDAP authentication

A user is authenticated by a bind that the server accepts with the password that was typed.
There are several attempts: a SASL bind, a simple bind with the name of an entry, and one with
the name and its domain. If a proxy user is configured, it is bound first, with its own
password, and the directory says then under which name the user is bound.

The password goes into each request as it is. A server may accept a simple bind with a name and
an empty password without looking for the name, so `succeeds_iff` matters for the empty
password too: there is a directory in which the user is authenticated exactly if the server
accepts one of the requests with the password.
-/

namespace BmcAccount

namespace LdapBind

open CString CBuffer ParseInfo BindDn Ldap UserSearch

/-- `SMALL_BUFFER_SIZE`. -/
def smallBufferSize : ℕ :=
  256

/-- A request to bind: `ldap_sasl_interactive_bind_s`, for which the user is named once more, and
`ldap_simple_bind`. -/
inductive BindRequest : Type where
  | sasl (userdn username password : List UInt8)
  | simple (userdn password : List UInt8)
  deriving DecidableEq

/-- How a server answers to the requests, or that no session with it can be opened. -/
abbrev BindServer : Type :=
  Option (BindRequest → Bool)

/-- The server accepts a request. -/
def accepts (server : BindServer) (request : BindRequest) : Bool :=
  server.any fun answer => answer request

/-- The members of `LDAP_AUTH_INFO` that the binds read. -/
structure BindInfo where
  userDomain : List UInt8
  folder : List UInt8
  bindDn : List UInt8
  bindDnPwd : List UInt8
  username : List UInt8
  password : List UInt8

/-- The base of the configuration. -/
def BindInfo.base (info : BindInfo) : List UInt8 :=
  parseLdapBaseInfo (info.userDomain.take ldapUserfolderMaxLen)
    (info.folder.take ldapUserfolderMaxLen) ldapUserdnMaxLen

/-- The members that name the user. -/
def BindInfo.auth (info : BindInfo) : AuthInfo where
  username := info.username
  userDomain := info.userDomain

/-! ## The attempts -/

/-- `do_sasl_bind`. -/
def doSaslBind (server : BindServer) (info : BindInfo) (dnWithUid : Bool) : BindRun :=
  match server with
  | none => ⟨[], false, dnWithUid⟩
  | some answer =>
    tryLdapSaslInteractiveBind (fun userdn => answer (.sasl userdn info.username info.password))
      info.base info.username dnWithUid

/-- `do_direct_bind` under a name, with the password of the user. -/
def doSimpleBind (server : BindServer) (info : BindInfo) (username : List UInt8)
    (dnWithUid : Bool) : BindRun :=
  doDirectBind (server.map fun answer userdn => answer (.simple userdn info.password))
    info.base username dnWithUid

/-- The SASL bind, and after it the direct bind under a name. -/
def bindAs (server : BindServer) (info : BindInfo) (username : List UInt8) (dnWithUid : Bool) :
    BindRun :=
  let run := doSaslBind server info dnWithUid
  if run.success then run else doSimpleBind server info username run.dnWithUid

/-- `ldap_bind_user`. -/
def ldapBindUser (server : BindServer) (info : BindInfo) (dnWithUid : Bool) : BindRun :=
  bindAs server info info.username dnWithUid

/-- What `ldap_search_user` found. -/
def searched (r : AuthCode × List UInt8) : Option (List UInt8) :=
  if r.1 = .success then some r.2 else none

/-- `ldap_auth` up to `do_get_user_group`: the name of the user that is found. -/
def ldapAuth (server : BindServer) (users : UserSearch.Server) (info : BindInfo) :
    Option (List UInt8) :=
  let run := ldapBindUser server info false
  if run.success ∨
      (info.userDomain ≠ [] ∧ accepts server (.simple info.auth.fullName info.password)) then
    searched (ldapSearchUser users run.dnWithUid info.auth [] ldapUserfolderMaxLen)
  else none

/-- `strncpy_s` of a whole text into a buffer, which is emptied if the text does not fit. -/
def copied (t : List UInt8) : List UInt8 :=
  (strncpyS smallBufferSize t t.length).getD []

/-- `switch_dn_and_user`. -/
def BindInfo.switchDnAndUser (info : BindInfo) : BindInfo :=
  { info with
    bindDn := copied info.username
    bindDnPwd := copied info.password
    username := copied (copied info.bindDn)
    password := copied (copied info.bindDnPwd) }

/-- The proxy user is given by a name that begins with a tag. -/
def BindInfo.startsWith (info : BindInfo) (tag : String) : Bool :=
  SameText (info.bindDn.take (ofString tag).length) (ofString tag)

/-- `do_direct_bind_dn`. -/
def doDirectBindDn (server : BindServer) (info : BindInfo) : Bool :=
  accepts server (.simple info.bindDn info.bindDnPwd)

/-- The bind of the proxy user: the information after it, and `dn_with_uid`. -/
def proxyBind (server : BindServer) (info : BindInfo) : Option (BindInfo × Bool) :=
  if info.startsWith "CN=" then
    if doDirectBindDn server info then some (info, false) else none
  else if info.startsWith "UID=" then
    if doDirectBindDn server info then some (info, true) else none
  else
    let run := ldapBindUser server info.switchDnAndUser false
    if run.success then some (info.switchDnAndUser.switchDnAndUser, run.dnWithUid) else none

/-- `ldap_proxyuser_auth` up to `do_get_user_group`. -/
def ldapProxyuserAuth (server : BindServer) (users : UserSearch.Server) (info : BindInfo) :
    Option (List UInt8) := do
  let (info, dnWithUid) ← proxyBind server info
  let cn ← searched (ldapSearchUser users dnWithUid info.auth [] smallBufferSize)
  if (bindAs server info cn dnWithUid).success then some cn else none

/-- A proxy user is configured. -/
def BindInfo.ByProxy (info : BindInfo) : Prop :=
  info.bindDn ≠ [] ∧ info.bindDnPwd ≠ []

instance (info : BindInfo) : Decidable info.ByProxy :=
  inferInstanceAs (Decidable (_ ∧ _))

/-- `ldap_authenticate` up to `do_get_user_group`. -/
def boundUser (server : BindServer) (users : UserSearch.Server) (info : BindInfo) :
    Option (List UInt8) :=
  if info.ByProxy then ldapProxyuserAuth server users info else ldapAuth server users info

/-! ## The requests -/

/-- The names that a bind tries: the first one, and the one with `UID` if the flag says so. -/
def attempts (base username : List UInt8) (first : List UInt8 × UserdnFlag) :
    List (List UInt8) :=
  if first.2 = .tryUid then [first.1, uidUserdn username base] else [first.1]

/-- The requests of a SASL bind. -/
def BindInfo.saslRequests (info : BindInfo) : List BindRequest :=
  (attempts info.base info.username (doSaslBindSetUserdn info.base info.username)).map
    fun userdn => .sasl userdn info.username info.password

/-- The requests of a direct bind under a name. -/
def BindInfo.simpleRequests (info : BindInfo) (username : List UInt8) : List BindRequest :=
  (attempts info.base username (addPrefixUserdn info.base username)).map
    fun userdn => .simple userdn info.password

/-- The requests that bind the user under a name. -/
def BindInfo.requestsAs (info : BindInfo) (username : List UInt8) : List BindRequest :=
  info.saslRequests ++ info.simpleRequests username

/-- The request with the name and its domain. -/
def BindInfo.fullNameRequests (info : BindInfo) : List BindRequest :=
  if info.userDomain = [] then [] else [.simple info.auth.fullName info.password]

/-- The proxy user is given by its name in the directory. -/
def BindInfo.hasProxyDn (info : BindInfo) : Bool :=
  info.startsWith "CN=" || info.startsWith "UID="

/-- The requests that bind the proxy user. -/
def BindInfo.proxyRequests (info : BindInfo) : List BindRequest :=
  if info.hasProxyDn then [.simple info.bindDn info.bindDnPwd]
  else info.switchDnAndUser.requestsAs info.switchDnAndUser.username

/-- The information that the user is bound with after the proxy user. -/
def BindInfo.afterProxy (info : BindInfo) : BindInfo :=
  if info.hasProxyDn then info else info.switchDnAndUser.switchDnAndUser

/-- The user can be searched. -/
def BindInfo.Searchable (info : BindInfo) : Prop :=
  (escapeString info.username ldapFiltMaxsiz).isSome

/-- A name that a search may write. -/
def IsName (cn : List UInt8) : Prop :=
  0 ∉ cn ∧ cn.length < smallBufferSize

/-- The server accepts one of the requests that bind the user with the password that was
typed. If a proxy user is configured, it has been accepted before, and the user is bound under
some name. -/
def Admits (server : BindServer) (info : BindInfo) : Prop :=
  if info.ByProxy then
    (∃ request ∈ info.proxyRequests, accepts server request) ∧ info.afterProxy.Searchable
      ∧ ∃ cn, IsName cn ∧ ∃ request ∈ info.afterProxy.requestsAs cn, accepts server request
  else
    info.Searchable ∧ ∃ request ∈ info.requestsAs info.username ++ info.fullNameRequests,
      accepts server request

/-! ## What an attempt comes to -/

theorem success_doDirectBind (answer : List UInt8 → Bool) (base username : List UInt8)
    (dnWithUid : Bool) :
  (doDirectBind (some answer) base username dnWithUid).success
    = (attempts base username (addPrefixUserdn base username)).any answer
  := by
  rw [doDirectBind, attempts]
  obtain ⟨userdn, flag⟩ := addPrefixUserdn base username
  by_cases hflag : flag = .tryUid
  · by_cases hanswer : answer userdn <;> simp [hflag, hanswer]
  · by_cases hstart : flag = .startWithUid ∧ answer userdn <;> simp [hflag, hstart]

theorem success_tryLdapSaslInteractiveBind (answer : List UInt8 → Bool)
    (base username : List UInt8) (dnWithUid : Bool) :
  (tryLdapSaslInteractiveBind answer base username dnWithUid).success
    = (attempts base username (doSaslBindSetUserdn base username)).any answer
  := by
  rw [tryLdapSaslInteractiveBind, attempts]
  obtain ⟨userdn, flag⟩ := doSaslBindSetUserdn base username
  by_cases hflag : flag = .tryUid
  · by_cases hanswer : answer userdn <;> simp [hflag, hanswer]
  · simp [hflag]

theorem success_doSaslBind (server : BindServer) (info : BindInfo) (dnWithUid : Bool) :
  (doSaslBind server info dnWithUid).success = info.saslRequests.any (accepts server)
  := by
  rw [BindInfo.saslRequests, List.any_map]
  cases server with
  | none => simp [doSaslBind, accepts]
  | some answer => exact success_tryLdapSaslInteractiveBind _ _ _ _

theorem success_doSimpleBind (server : BindServer) (info : BindInfo) (username : List UInt8)
    (dnWithUid : Bool) :
  (doSimpleBind server info username dnWithUid).success
    = (info.simpleRequests username).any (accepts server)
  := by
  rw [BindInfo.simpleRequests, List.any_map]
  cases server with
  | none => simp [doSimpleBind, doDirectBind, accepts]
  | some answer => exact success_doDirectBind _ _ _ _

/-- A user is bound exactly if one of the requests is accepted. -/
theorem success_bindAs (server : BindServer) (info : BindInfo) (username : List UInt8)
    (dnWithUid : Bool) :
  (bindAs server info username dnWithUid).success
    ↔ ∃ request ∈ info.requestsAs username, accepts server request
  := by
  rw [bindAs, BindInfo.requestsAs, ← List.any_eq_true, List.any_append,
    ← success_doSaslBind server info dnWithUid]
  by_cases hsasl : (doSaslBind server info dnWithUid).success
  · simp [hsasl]
  · simp [hsasl, success_doSimpleBind]

/-- The proxy user is bound exactly if one of its requests is accepted. -/
theorem proxyBind_isSome_iff (server : BindServer) (info : BindInfo) :
  (∃ dnWithUid, proxyBind server info = some (info.afterProxy, dnWithUid))
    ↔ ∃ request ∈ info.proxyRequests, accepts server request
  := by
  rw [proxyBind, BindInfo.proxyRequests, BindInfo.afterProxy, BindInfo.hasProxyDn]
  by_cases hcn : info.startsWith "CN="
  · by_cases hdn : accepts server (.simple info.bindDn info.bindDnPwd)
    · simp [hcn, doDirectBindDn, hdn]
    · simp [hcn, doDirectBindDn, hdn]
  · by_cases huid : info.startsWith "UID="
    · by_cases hdn : accepts server (.simple info.bindDn info.bindDnPwd)
      · simp [hcn, huid, doDirectBindDn, hdn]
      · simp [hcn, huid, doDirectBindDn, hdn]
    · simp only [hcn, huid, Bool.or_self, Bool.false_eq_true, if_false,
        ← success_bindAs server _ _ false]
      by_cases hrun :
          (bindAs server info.switchDnAndUser info.switchDnAndUser.username false).success
      · simp [ldapBindUser, hrun]
      · simp [ldapBindUser, hrun]

/-- After the proxy user, the user is the one to be bound. -/
theorem proxyBind_eq_some {server : BindServer} {info info' : BindInfo} {dnWithUid : Bool}
    (h : proxyBind server info = some (info', dnWithUid)) :
  info' = info.afterProxy
  := by
  rw [proxyBind] at h
  rw [BindInfo.afterProxy, BindInfo.hasProxyDn]
  by_cases hcn : info.startsWith "CN="
  · rw [if_pos hcn] at h
    split at h
    · cases h
      simp [hcn]
    · cases h
  · rw [if_neg hcn] at h
    split at h
    · next huid =>
      split at h
      · cases h
        simp [huid]
      · cases h
    · next huid =>
      dsimp only at h
      split at h
      · cases h
        simp [hcn, huid]
      · cases h

/-! ## What a search comes to -/

theorem isName_nil :
  IsName []
  := ⟨List.not_mem_nil, by decide⟩

/-- A search leaves a name in the buffer. -/
theorem isName_ldapFindUserCn {users : UserSearch.Server} {dnWithUid : Bool}
    {filter cn : List UInt8} {cnSize : ℕ} (h : IsName cn) (hsize : cnSize ≤ smallBufferSize) :
  IsName (ldapFindUserCn users dnWithUid filter cn cnSize).2
  := by
  rw [ldapFindUserCn]
  split
  · exact h
  · next hpos =>
    dsimp only
    split
    · exact h
    · split
      · exact h
      · split
        · exact h
        · next value _ _ =>
          have hfits : min (cnSize - 1) (text value).length < cnSize := by omega
          rw [strncpyS, if_pos hfits, Option.getD_some]
          constructor
          · intro hzero
            exact zero_notMem_text value (List.mem_of_mem_take hzero)
          · rw [List.length_take]
            exact lt_of_lt_of_le hfits hsize

theorem isName_windowLogonName {users : UserSearch.Server} {dnWithUid : Bool} {auth : AuthInfo}
    {cn escapedUser : List UInt8} {cnSize : ℕ} (h : IsName cn) (hsize : cnSize ≤ smallBufferSize) :
  IsName (windowLogonName users dnWithUid auth cn cnSize escapedUser).2
  := by
  have hfirst := @isName_ldapFindUserCn users dnWithUid (Label.sAMAccountName.filter escapedUser)
    cn cnSize h hsize
  have hsecond := @isName_ldapFindUserCn users dnWithUid
    (Label.userPrincipalName.filter escapedUser) _ cnSize hfirst hsize
  rw [windowLogonName]
  dsimp only
  split
  · exact hfirst
  · split
    · exact hsecond
    · split
      · exact hsecond
      · exact hsecond

/-- What is found is a name, and the user can be searched. -/
theorem of_searched {users : UserSearch.Server} {dnWithUid : Bool} {info : BindInfo}
    {cn : List UInt8} {cnSize : ℕ} (hsize : cnSize ≤ smallBufferSize)
    (h : searched (ldapSearchUser users dnWithUid info.auth [] cnSize) = some cn) :
  info.Searchable ∧ IsName cn
  := by
  rw [ldapSearchUser] at h
  rw [BindInfo.Searchable]
  rcases hescape : escapeString info.auth.username ldapFiltMaxsiz with _ | escapedUser
  · rw [hescape] at h
    cases h
  · have hescape' : escapeString info.username ldapFiltMaxsiz = some escapedUser := hescape
    use by rw [hescape', Option.isSome_some]
    have hfirst := @isName_ldapFindUserCn users dnWithUid
      ((nameLabel dnWithUid).filter escapedUser) [] cnSize isName_nil hsize
    have hsecond := @isName_windowLogonName users dnWithUid info.auth _ escapedUser cnSize hfirst
      hsize
    have hthird := @isName_ldapFindUserCn users dnWithUid
      (Label.userPrincipalName.filter escapedUser) _ cnSize hsecond hsize
    rw [hescape] at h
    dsimp only at h
    split at h
    · cases h
      exact hfirst
    · split at h
      · cases h
        exact hsecond
      · split at h
        · cases h
          exact hthird
        · cases h

/-- A directory with one entry, which each search finds. -/
def oneEntry (cn : List UInt8) : UserSearch.Server where
  entries := {fun _ => [cn]}
  same _ _ _ := True
  pick _ _ := some fun _ => [cn]
  search _ := ⟨0, some fun _ => [cn]⟩
  pick_same h := by
    cases h
    exact ⟨Finset.mem_singleton_self _, cn, List.mem_singleton_self _, trivial⟩
  pick_isSome _ _ := rfl
  entry_search _ := rfl
  code_search _ _ := List.mem_cons_self

/-- There each user who can be searched is found under the name of the entry. -/
theorem searched_oneEntry {cn : List UInt8} {dnWithUid : Bool} {info : BindInfo} {cnSize : ℕ}
    (hsearchable : info.Searchable) (hname : IsName cn) (hlen : cn.length < cnSize) :
  searched (ldapSearchUser (oneEntry cn) dnWithUid info.auth [] cnSize) = some cn
  := by
  obtain ⟨escapedUser, hescape⟩ := Option.isSome_iff_exists.mp hsearchable
  have hcopy : strncpyS cnSize (text cn) (cnSize - 1) = some cn := by
    rw [text_of_notMem hname.1, strncpyS, if_pos (by omega), List.take_of_length_le (by omega)]
  have hfind : ∀ filter, ldapFindUserCn (oneEntry cn) dnWithUid filter [] cnSize
      = (.success, cn) := by
    intro filter
    rw [ldapFindUserCn, if_neg (by omega)]
    simp [oneEntry, codesWithEntries, hcopy]
  have hescape' : escapeString info.auth.username ldapFiltMaxsiz = some escapedUser := hescape
  rw [ldapSearchUser, hescape']
  simp [hfind, searched]

/-! ## Who is authenticated -/

/-- Without a proxy user, a user is found in some directory exactly if a request of the user is
accepted. -/
theorem ldapAuth_iff (server : BindServer) (info : BindInfo) :
  (∃ users cn, ldapAuth server users info = some cn)
    ↔ info.Searchable ∧ ∃ request ∈ info.requestsAs info.username ++ info.fullNameRequests,
      accepts server request
  := by
  have hbound : ((ldapBindUser server info false).success
      ∨ info.userDomain ≠ [] ∧ accepts server (.simple info.auth.fullName info.password))
      ↔ ∃ request ∈ info.requestsAs info.username ++ info.fullNameRequests,
        accepts server request := by
    simp only [List.mem_append, or_and_right, exists_or]
    apply or_congr
    · exact success_bindAs server info info.username false
    · by_cases hdomain : info.userDomain = [] <;> simp [BindInfo.fullNameRequests, hdomain]
  constructor
  · rintro ⟨users, cn, h⟩
    rw [ldapAuth] at h
    split at h
    · next haccepted => exact ⟨(of_searched (by decide) h).1, hbound.mp haccepted⟩
    · cases h
  · rintro ⟨hsearchable, haccepted⟩
    use oneEntry [], []
    rw [ldapAuth, if_pos (hbound.mpr haccepted)]
    exact searched_oneEntry hsearchable isName_nil (by decide)

/-- With a proxy user, a user is found in some directory exactly if the proxy user is accepted
and a request of the user under some name is. -/
theorem ldapProxyuserAuth_iff (server : BindServer) (info : BindInfo) :
  (∃ users cn, ldapProxyuserAuth server users info = some cn)
    ↔ (∃ request ∈ info.proxyRequests, accepts server request) ∧ info.afterProxy.Searchable
      ∧ ∃ cn, IsName cn ∧ ∃ request ∈ info.afterProxy.requestsAs cn, accepts server request
  := by
  constructor
  · rintro ⟨users, cn, h⟩
    obtain ⟨⟨info', dnWithUid⟩, hproxy, h⟩ := Option.bind_eq_some_iff.mp h
    obtain rfl := proxyBind_eq_some hproxy
    obtain ⟨cn', hfound, h⟩ := Option.bind_eq_some_iff.mp h
    obtain ⟨hsearchable, hname⟩ := of_searched (by decide) hfound
    split at h
    · next hbound =>
      exact ⟨(proxyBind_isSome_iff server info).mp ⟨dnWithUid, hproxy⟩, hsearchable, cn', hname,
        (success_bindAs server _ cn' dnWithUid).mp hbound⟩
    · cases h
  · rintro ⟨hproxy, hsearchable, cn, hname, hbound⟩
    obtain ⟨dnWithUid, hproxy⟩ := (proxyBind_isSome_iff server info).mpr hproxy
    have hfound := @searched_oneEntry cn dnWithUid _ smallBufferSize hsearchable hname hname.2
    use oneEntry cn, cn
    apply Option.bind_eq_some_iff.mpr
    refine ⟨_, hproxy, ?_⟩
    apply Option.bind_eq_some_iff.mpr
    refine ⟨cn, hfound, ?_⟩
    rw [if_pos ((success_bindAs server _ cn dnWithUid).mpr hbound)]

/-- A user is found in some directory exactly if the server admits the user. -/
theorem boundUser_iff (server : BindServer) (info : BindInfo) :
  (∃ users cn, boundUser server users info = some cn) ↔ Admits server info
  := by
  rw [Admits]
  simp only [boundUser]
  by_cases hproxy : info.ByProxy
  · simp only [if_pos hproxy]
    exact ldapProxyuserAuth_iff server info
  · simp only [if_neg hproxy]
    exact ldapAuth_iff server info

/-! ## The C library -/

/-- A text that `lua_get_struct_string` copies into a member, which is emptied if the text does
not fit. -/
def luaGetStructString (size : ℕ) (t : List UInt8) : List UInt8 :=
  if t.length ≤ size then text t else []

/-- The bytes of a text. -/
def bytes (t : String) : List UInt8 :=
  t.toUTF8.data.toList

/-- The servers of the controllers, the configuration that only the binds read, and the spelling
in the directory of the groups and of the user whose name has been found. -/
structure Controllers (Dn : Type) where
  server : ℕ → BindServer
  folder : ℕ → List UInt8
  bindDn : ℕ → List UInt8
  bindDnPwd : ℕ → List UInt8
  groupDn : String → LdapGroupInfo → Dn × Bool
  userDn : BindInfo → List UInt8 → UserDn Dn

/-- What the directories of the controllers contain. -/
structure Content (Dn : Type) where
  users : ℕ → UserSearch.Server
  groups : ℕ → Directory Dn

variable {Dn : Type}

/-- The members of `LDAP_AUTH_INFO` as `l_mscm_ldap_authenticate` fills them. -/
def Controllers.bindInfo (controllers : Controllers Dn) (info : LdapAuthInfo) : BindInfo where
  userDomain := luaGetStructString 256 (bytes info.userDomain)
  folder := luaGetStructString 256 (controllers.folder info.serverId)
  bindDn := luaGetStructString smallBufferSize (controllers.bindDn info.serverId)
  bindDnPwd := luaGetStructString smallBufferSize (controllers.bindDnPwd info.serverId)
  username := luaGetStructString 256 (bytes info.username)
  password := luaGetStructString 256 (bytes info.password)

/-- `ldap_authenticate` up to `do_get_user_group`, for the server of a controller. -/
def Controllers.boundUser (controllers : Controllers Dn) (content : Content Dn)
    (info : LdapAuthInfo) : Option (List UInt8) :=
  LdapBind.boundUser (controllers.server info.serverId) (content.users info.serverId)
    (controllers.bindInfo info)

/-- The servers as `mscm_ldap_authenticate` asks them. -/
def Controllers.toServer [DecidableEq Dn] (controllers : Controllers Dn) (content : Content Dn) :
    Ldap.Server Dn where
  groupDn := controllers.groupDn
  bind info := (controllers.boundUser content info).isSome
  search info groupdn group :=
    match controllers.boundUser content info with
    | none => (.error, group)
    | some cn =>
      doGetUserGroup (content.groups info.serverId)
        (controllers.userDn (controllers.bindInfo info) cn) groupdn group

/-- The server of the controller admits the user. -/
def Controllers.Admits (controllers : Controllers Dn) (info : LdapAuthInfo) : Prop :=
  LdapBind.Admits (controllers.server info.serverId) (controllers.bindInfo info)

variable [DecidableEq Dn]

/-- The library authenticates a user exactly if one is found who is in a group. -/
theorem mscmLdapAuthenticate_eq_zero_iff (controllers : Controllers Dn) (content : Content Dn)
    (info : LdapAuthInfo) (group : GroupIds) :
  (mscmLdapAuthenticate (controllers.toServer content) info group).1 = 0
    ↔ ∃ cn, controllers.boundUser content info = some cn
      ∧ (doGetUserGroup (content.groups info.serverId)
        (controllers.userDn (controllers.bindInfo info) cn)
        ((controllers.toServer content).groupdn info) noGroups).1 = .success
  := by
  have hlogin : userLdapLoginFail ≠ 0 := by decide
  have hcode : (mscmLdapAuthenticate (controllers.toServer content) info group).1 = 0
      ↔ (ldapAuthenticate (controllers.toServer content) info noGroups).1 = .success := by
    rw [mscmLdapAuthenticate]
    split
    · next hfound => exact iff_of_true rfl hfound
    · next hfound => exact iff_of_false hlogin hfound
  rw [hcode, ldapAuthenticate]
  rcases hcn : controllers.boundUser content info with _ | cn
  · simp [Controllers.toServer, hcn]
  · simp [Controllers.toServer, hcn]

/-- A directory in which a group has a user. -/
def oneGroup (user g : Dn) : Directory Dn where
  member x := if x = g then some [user] else none
  memberOf x := if x = user then [g] else []
  groups := {g}
  mem_groups x := by
    by_cases hx : x = g <;> simp [hx]
  providesMemberOf := true
  memberOf_eq_nil h := by cases h
  mem_memberOf _ x y := by
    by_cases hx : x = user
    · by_cases hy : y = g <;> simp [hx, hy]
    · by_cases hy : y = g <;> simp [hx, hy]

/-- The user is found in the group. -/
theorem doGetUserGroup_oneGroup (user : UserDn Dn) (g : Dn) {groupdn : GroupConf Dn}
    (hg : groupdn 0 = some g) :
  (doGetUserGroup (oneGroup user.entry g) user groupdn noGroups).1 = .success
  := by
  have hcard : (oneGroup user.entry g).groups.card < 50 := by
    rw [oneGroup, Finset.card_singleton]
    decide
  have hmember : ∃ i, Member (oneGroup user.entry g) user.entry groupdn i := by
    use 0, g, hg
    apply Contains.direct
    simp [oneGroup, Directory.members]
  exact (doGetUserGroup_of_member hcard rfl hmember).success hmember

/-- With some content of the directories and some groups, the library authenticates a user
exactly if the server admits the user. -/
theorem mscmLdapAuthenticate_iff (controllers : Controllers Dn) (info : LdapAuthInfo)
    (group : GroupIds) :
  (∃ content groupCnt groups, (mscmLdapAuthenticate (controllers.toServer content)
      { info with groupCnt, group := groups } group).1 = 0)
    ↔ controllers.Admits info
  := by
  rw [Controllers.Admits, ← boundUser_iff]
  constructor
  · rintro ⟨content, groupCnt, groups, h⟩
    obtain ⟨cn, hcn, -⟩ := (mscmLdapAuthenticate_eq_zero_iff controllers content _ group).mp h
    exact ⟨content.users info.serverId, cn, hcn⟩
  · rintro ⟨users, cn, hcn⟩
    let g : LdapGroupInfo := ⟨1, "", "", 0⟩
    let dn := (controllers.groupDn info.userDomain g).1
    let user := controllers.userDn (controllers.bindInfo info) cn
    use ⟨fun _ => users, fun _ => oneGroup user.entry dn⟩, 1, fun _ => g
    apply (mscmLdapAuthenticate_eq_zero_iff controllers _ _ group).mpr
    use cn, hcn
    apply doGetUserGroup_oneGroup
    simp only [Server.groupdn, List.ofFn_succ, List.take_succ_cons, List.take_zero, readGroupdn]
    split <;> rfl

end LdapBind

end BmcAccount
