import Mathlib.Data.Finset.Defs
import BmcAccount.Ldap.Escape
import BmcAccount.Ldap.GroupSearch

/-!
# The search of an LDAP user

A user may log in with the common name of an entry of the directory or with one of the login
names that Windows uses, so the entry is searched up to four times. The first three searches
are exact. For the last one `window_logon_name` escapes the name with its domain in its own
copy of the buffer and returns the code of the escaping, which `ldap_search_user` takes for
the code of a search: it reports a user who was not searched. `ldapSearchUser_exact_iff` says
exactly when the report is right.
-/

namespace BmcAccount

namespace UserSearch

open CString CBuffer Ldap

/-- The values of the attributes of an entry. -/
abbrev Entry : Type :=
  Label → List (List UInt8)

/-- What `ldap_search_ext_s` returns, and the entry that `ldap_first_entry` reads from it. -/
structure Answer where
  code : ℤ
  entry : Option Entry

/-- `LDAP_SUCCESS`, `LDAP_TIMELIMIT_EXCEEDED` and `LDAP_SIZELIMIT_EXCEEDED`. -/
def codesWithEntries : List ℤ :=
  [0, 3, 4]

/-- A directory below the base of the search, and how its server answers for one entry: a filter
that asks for a value of an attribute finds an entry that has it, if there is one. The rule
`same` compares the values of an attribute. -/
structure Server where
  entries : Finset Entry
  same : Label → List UInt8 → List UInt8 → Prop
  pick : Label → List UInt8 → Option Entry
  search : List UInt8 → Answer
  pick_same : ∀ {label v e}, pick label v = some e → e ∈ entries ∧ ∃ x ∈ e label, same label x v
  pick_isSome : ∀ {label v e}, e ∈ entries → (∃ x ∈ e label, same label x v) →
    (pick label v).isSome
  entry_search : ∀ {label v}, Escaped v →
    (search (label.filterText v)).entry = pick label (unescape v)
  code_search : ∀ {label v}, Escaped v → (pick label (unescape v)).isSome →
    (search (label.filterText v)).code ∈ codesWithEntries

/-- The members of `LDAP_AUTH_INFO` that name the user. -/
structure AuthInfo where
  username : List UInt8
  userDomain : List UInt8

/-- The attribute that `dn_with_uid` selects. -/
def nameLabel (dnWithUid : Bool) : Label :=
  if dnWithUid then .uid else .cn

/-- `ldap_find_user_cn`: the code and what `cn` holds. -/
def ldapFindUserCn (srv : Server) (dnWithUid : Bool) (filter cn : List UInt8) (cnSize : ℕ) :
    AuthCode × List UInt8 :=
  if cnSize = 0 then (.error, cn)
  else
    let answer := srv.search filter
    if answer.code ∉ codesWithEntries then (.unknown, cn)
    else
      match answer.entry with
      | none => (.unknown, cn)
      | some entry =>
        match entry (nameLabel dnWithUid) with
        | [] => (.unknown, cn)
        | value :: _ => (.success, (strncpyS cnSize (text value) (cnSize - 1)).getD [])

/-- `name@domain`, as it is printed. -/
def AuthInfo.fullName (auth : AuthInfo) : List UInt8 :=
  printed ldapFiltMaxsiz (text auth.username ++ ofString "@" ++ text auth.userDomain)

/-- `window_logon_name`. The escaped name is a copy, so the caller does not get what is escaped
here. -/
def windowLogonName (srv : Server) (dnWithUid : Bool) (auth : AuthInfo) (cn : List UInt8)
    (cnSize : ℕ) (escapedUser : List UInt8) : AuthCode × List UInt8 :=
  let (ret, cn) :=
    ldapFindUserCn srv dnWithUid (Label.sAMAccountName.filter escapedUser) cn cnSize
  if ret = .success then (.success, cn)
  else
    let (ret, cn) :=
      ldapFindUserCn srv dnWithUid (Label.userPrincipalName.filter escapedUser) cn cnSize
    if ret = .success then (.success, cn)
    else
      match escapeString auth.fullName ldapFiltMaxsiz with
      | some _ => (.success, cn)
      | none => (.error, cn)

/-- `ldap_search_user`. -/
def ldapSearchUser (srv : Server) (dnWithUid : Bool) (auth : AuthInfo) (cn : List UInt8)
    (cnSize : ℕ) : AuthCode × List UInt8 :=
  match escapeString auth.username ldapFiltMaxsiz with
  | none => (.error, cn)
  | some escapedUser =>
    let (ret, cn) :=
      ldapFindUserCn srv dnWithUid ((nameLabel dnWithUid).filter escapedUser) cn cnSize
    if ret = .success then (.success, cn)
    else
      let (ret, cn) := windowLogonName srv dnWithUid auth cn cnSize escapedUser
      if ret = .success then (.success, cn)
      else
        let (ret, cn) :=
          ldapFindUserCn srv dnWithUid (Label.userPrincipalName.filter escapedUser) cn cnSize
        if ret = .success then (.success, cn) else (.error, cn)

/-! ## What the search is for -/

/-- The name of the entry that a search finds, if it has one. -/
def Server.found (srv : Server) (dnWithUid : Bool) (query : Label × List UInt8) :
    Option (List UInt8) :=
  (srv.pick query.1 query.2).bind fun e => (e (nameLabel dnWithUid)).head?

/-- The searches by the name alone. -/
def AuthInfo.queries (auth : AuthInfo) (dnWithUid : Bool) : List (Label × List UInt8) :=
  [(nameLabel dnWithUid, auth.username), (.sAMAccountName, auth.username),
    (.userPrincipalName, auth.username)]

/-- The search by the name and its domain. -/
def AuthInfo.domainQuery (auth : AuthInfo) : Label × List UInt8 :=
  (.userPrincipalName, auth.username ++ ofString "@" ++ auth.userDomain)

/-- The name of the entry that the first successful search finds. -/
def AuthInfo.userIn (auth : AuthInfo) (srv : Server) (dnWithUid : Bool) : Option (List UInt8) :=
  (auth.queries dnWithUid ++ [auth.domainQuery]).findSome? (srv.found dnWithUid)

/-- A value as far as it fits into a buffer. -/
def cut (size : ℕ) (value : List UInt8) : List UInt8 :=
  (text value).take (size - 1)

/-- The search succeeds exactly if one of the four searches finds a name, and then writes this
name as far as it fits. -/
def Exact (srv : Server) (dnWithUid : Bool) (auth : AuthInfo) (cnSize : ℕ)
    (result : AuthCode × List UInt8) : Prop :=
  (result.1 = .success ↔ (auth.userIn srv dnWithUid).isSome)
    ∧ ∀ value ∈ auth.userIn srv dnWithUid, result.2 = cut cnSize value

/-- The name with its domain fits into the buffer when it is escaped. -/
def AuthInfo.DomainFits (auth : AuthInfo) : Prop :=
  (escape auth.domainQuery.2.dropLast).length < ldapFiltMaxsiz - escapeLen

instance (auth : AuthInfo) : Decidable auth.DomainFits :=
  inferInstanceAs (Decidable (_ < _))

/-! ## What the search does -/

/-- A search by a name that is not cut reports what the server finds. -/
theorem ldapFindUserCn_escape {srv : Server} {dnWithUid : Bool} {label : Label}
    {name cn : List UInt8} {cnSize : ℕ} (hlen : name.length ≤ ldapUserNameMaxLen)
    (hsize : 0 < cnSize) :
  ldapFindUserCn srv dnWithUid (label.filter (escape name)) cn cnSize
    = (srv.found dnWithUid (label, name)).elim (.unknown, cn) fun v => (.success, cut cnSize v)
  := by
  have hentry := @srv.entry_search label _ (escaped_escape name)
  have hcode := @srv.code_search label _ (escaped_escape name)
  rw [unescape_escape] at hentry hcode
  rw [ldapFindUserCn, if_neg hsize.ne', filter_escape label hlen]
  simp only [hentry, Server.found]
  rcases hpick : srv.pick label name with _ | e
  · simp
  · rw [if_neg (by simpa using hcode (by simp [hpick]))]
    rcases hvalues : e (nameLabel dnWithUid) with _ | ⟨value, values⟩
    · simp [hvalues]
    · have hfits : min (cnSize - 1) (text value).length < cnSize := by omega
      simp [hvalues, strncpyS, hfits, cut]

/-- The texts of the user, as the buffers of `LDAP_AUTH_INFO` hold them. -/
structure AuthInfo.Stored (auth : AuthInfo) : Prop where
  zero_notMem_username : 0 ∉ auth.username
  username_le : auth.username.length ≤ ldapUserNameMaxLen
  zero_notMem_userDomain : 0 ∉ auth.userDomain
  userDomain_le : auth.userDomain.length ≤ ldapUserNameMaxLen

/-- The name with its domain is printed without being cut. -/
theorem AuthInfo.Stored.fullName {auth : AuthInfo} (h : auth.Stored) :
  auth.fullName = auth.domainQuery.2
  := by
  have hname := h.username_le
  have hdomain := h.userDomain_le
  have hsign : (ofString "@").length = 1 := by decide
  rw [AuthInfo.fullName, text_of_notMem h.zero_notMem_username,
    text_of_notMem h.zero_notMem_userDomain, domainQuery]
  apply printed_of_lt
  simp only [List.length_append, ldapUserNameMaxLen, ldapFiltMaxsiz] at *
  omega

/-- `window_logon_name` escapes the name with its domain exactly if it fits. -/
theorem AuthInfo.Stored.escapeString_fullName {auth : AuthInfo} (h : auth.Stored) :
  escapeString auth.fullName ldapFiltMaxsiz
    = if auth.DomainFits then some (escape auth.domainQuery.2) else none
  := by
  have hzero : 0 ∉ auth.domainQuery.2 := by
    have hsign : 0 ∉ ofString "@" := by decide
    simp [domainQuery, hsign, h.zero_notMem_username, h.zero_notMem_userDomain]
  rw [h.fullName, escapeString_eq hzero]
  rfl

/-- The code of the escaping of the name with its domain. -/
def AuthInfo.domainCode (auth : AuthInfo) : AuthCode :=
  if auth.DomainFits then .success else .error

theorem windowLogonName_eq {srv : Server} {dnWithUid : Bool} {auth : AuthInfo} {cn : List UInt8}
    {cnSize : ℕ} (h : auth.Stored) (hsize : 0 < cnSize) :
  windowLogonName srv dnWithUid auth cn cnSize (escape auth.username)
    = ((srv.found dnWithUid (.sAMAccountName, auth.username)).or
        (srv.found dnWithUid (.userPrincipalName, auth.username))).elim (auth.domainCode, cn)
      fun v => (.success, cut cnSize v)
  := by
  rw [windowLogonName, ldapFindUserCn_escape h.username_le hsize]
  rcases srv.found dnWithUid (.sAMAccountName, auth.username) with _ | v
  · simp only [Option.elim_none, reduceCtorEq, if_false, Option.none_or]
    simp only [ldapFindUserCn_escape h.username_le hsize, h.escapeString_fullName,
      AuthInfo.domainCode]
    rcases srv.found dnWithUid (.userPrincipalName, auth.username) with _ | v
    · by_cases hfits : auth.DomainFits <;> simp [hfits]
    · simp
  · simp

/-- If the searches by the name alone find nothing, the code is that of the escaping of the name
with its domain, and nothing is written. -/
theorem ldapSearchUser_eq {srv : Server} {dnWithUid : Bool} {auth : AuthInfo} {cn : List UInt8}
    {cnSize : ℕ} (h : auth.Stored) (hsize : 0 < cnSize) :
  ldapSearchUser srv dnWithUid auth cn cnSize
    = ((auth.queries dnWithUid).findSome? (srv.found dnWithUid)).elim (auth.domainCode, cn)
      fun v => (.success, cut cnSize v)
  := by
  have hname := escapeString_of_le h.zero_notMem_username h.username_le
  simp only [ldapSearchUser, hname, AuthInfo.queries, List.findSome?_cons, List.findSome?_nil]
  rw [ldapFindUserCn_escape h.username_le hsize]
  rcases srv.found dnWithUid (nameLabel dnWithUid, auth.username) with _ | v
  · simp only [Option.elim_none, reduceCtorEq, if_false]
    simp only [windowLogonName_eq h hsize]
    rcases srv.found dnWithUid (.sAMAccountName, auth.username) with _ | v
    · rcases hlast : srv.found dnWithUid (.userPrincipalName, auth.username) with _ | v
      · simp only [Option.none_or, Option.elim_none]
        simp only [ldapFindUserCn_escape h.username_le hsize, hlast, AuthInfo.domainCode]
        by_cases hfits : auth.DomainFits <;> simp [hfits]
      · simp
    · simp
  · simp

/-- The search of a user is right exactly if one of the searches by the name alone finds a
name, or the name with its domain can be escaped and `cn` already holds what the search by it
finds, or it cannot be escaped and the search by it finds nothing. -/
theorem ldapSearchUser_exact_iff (srv : Server) (dnWithUid : Bool) (auth : AuthInfo)
    (cn : List UInt8) (cnSize : ℕ) (h : auth.Stored) (hsize : 0 < cnSize) :
  Exact srv dnWithUid auth cnSize (ldapSearchUser srv dnWithUid auth cn cnSize)
    ↔ (∃ query ∈ auth.queries dnWithUid, (srv.found dnWithUid query).isSome)
      ∨ (auth.DomainFits ∧ ∃ v ∈ srv.found dnWithUid auth.domainQuery, cut cnSize v = cn)
      ∨ (¬ auth.DomainFits ∧ srv.found dnWithUid auth.domainQuery = none)
  := by
  rw [ldapSearchUser_eq h hsize, Exact, AuthInfo.userIn, List.findSome?_append,
    List.findSome?_singleton, AuthInfo.domainCode, ← List.findSome?_isSome_iff]
  rcases (auth.queries dnWithUid).findSome? (srv.found dnWithUid) with _ | v
  · rcases srv.found dnWithUid auth.domainQuery with _ | v
    · by_cases hfits : auth.DomainFits <;> simp [hfits]
    · by_cases hfits : auth.DomainFits <;> simp [hfits, eq_comm]
  · simp

/-- A server without entries, which answers with its code alone. -/
def emptyServer : Server where
  entries := ∅
  same _ x v := x = v
  pick _ _ := none
  search _ := ⟨0, none⟩
  pick_same h := by simp at h
  pick_isSome h := by simp at h
  entry_search _ := rfl
  code_search _ h := by simp at h

/-- The user `ada` of the domain `example.com`. -/
def ada : AuthInfo where
  username := ofString "ada"
  userDomain := ofString "example.com"

theorem ada_stored :
  ada.Stored
  where
  zero_notMem_username := by decide
  username_le := by decide
  zero_notMem_userDomain := by decide
  userDomain_le := by decide

/-- In a directory without entries the search of a user succeeds. -/
theorem not_ldapSearchUser_exact :
  ¬ Exact emptyServer false ada 256 (ldapSearchUser emptyServer false ada [] 256)
  := by
  rintro ⟨hcode, -⟩
  rw [ldapSearchUser_eq ada_stored (by decide)] at hcode
  exact absurd (hcode.mp (by decide)) (by decide)

/-- There none of the conditions holds for the user. -/
theorem ldapSearchUser_exact_iff_ada :
  ada.Stored ∧ ¬ (Exact emptyServer false ada 256 (ldapSearchUser emptyServer false ada [] 256))
  := by
  use ada_stored
  rw [ldapSearchUser_exact_iff emptyServer false ada [] 256 ada_stored (by decide)]
  simp [emptyServer, Server.found]
  decide

end UserSearch

end BmcAccount
