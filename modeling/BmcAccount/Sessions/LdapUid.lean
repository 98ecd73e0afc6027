import BmcAccount.Sessions.Service

/-!
# The users of LDAP who log in over SSH

A user of LDAP has no account of the system, so a login over SSH takes one of 32 slots of a
file and with it an identifier. The slot is taken before the user is authenticated, and nothing
gives it back when the authentication raises an error. Taking a slot writes back the record
that has been read last, marked as used: that is the record of whoever had the slot before,
or of the last user of the file when the file grows.

`run_slotLaw_iff` says which logins are without harm.
-/

namespace BmcAccount

namespace Sessions

/-! ## The file -/

/-- `LDAP_USER`. -/
structure LdapUser where
  used : ℕ
  uid : ℤ
  username : String
  fromip : String
  serverid : ℕ
  groupid : ℕ
  privilege : ℕ
  roleid : List ℕ
deriving DecidableEq

/-- `LDAP_USER_ROLE_ID_NUM`. -/
def ldapUserRoleIdNum : ℕ := 32

/-- A record of zeros. -/
def LdapUser.zero : LdapUser :=
  ⟨0, 0, "", "", 0, 0, 0, List.replicate ldapUserRoleIdNum 0⟩

/-- `LDAP_USER_FILE`, once it is there. -/
abbrev UidFile : Type := Option (List LdapUser)

/-- The records of the file. -/
def UidFile.users (file : UidFile) : List LdapUser := file.getD []

/-- `LDAP_USER_ID_BASE` and `LDAP_USER_MAX_COUNT`. -/
def ldapUserIdBase : ℕ := 1000
def ldapUserMaxCount : ℕ := 32

/-- `RET_ERR`. -/
def retErr : ℤ := -1

/-- The loop of `uip_alloc_ldap_uid`: the number of the first slot that is free, and the record
that has been read last. -/
def scanSlots : ℕ → LdapUser → List LdapUser → ℕ × LdapUser
  | n, usr, [] => (n, usr)
  | n, _, u :: l => if u.used = 0 then (n, u) else scanSlots (n + 1) u l

/-- A record is written at its place; a gap before it is filled with zeros. -/
def writeAt (l : List LdapUser) (n : ℕ) (usr : LdapUser) : List LdapUser :=
  if n < l.length then l.set n usr
  else l ++ List.replicate (n - l.length) LdapUser.zero ++ [usr]

/-- The slot that an allocation takes. -/
def UidFile.slot (file : UidFile) : ℕ := (scanSlots 0 LdapUser.zero file.users).1

/-- The record that an allocation reads last. -/
def UidFile.stale (file : UidFile) : LdapUser := (scanSlots 0 LdapUser.zero file.users).2

/-- The record that an allocation writes. -/
def UidFile.taken (file : UidFile) : LdapUser :=
  { file.stale with used := 1, uid := ldapUserIdBase + file.slot }

/-- `uip_alloc_ldap_uid`. -/
def uipAllocLdapUid (file : UidFile) : ℤ × UidFile :=
  if ldapUserMaxCount ≤ file.slot then (retErr, some file.users)
  else (ldapUserIdBase + file.slot, some (writeAt file.users file.slot file.taken))

/-- `uip_renew_ldap_user`. -/
def uipRenewLdapUser (usr : LdapUser) : UidFile → UidFile
  | none => none
  | some l =>
    if usr.uid < ldapUserIdBase then some l
    else some (writeAt l (usr.uid - ldapUserIdBase).toNat usr)

/-! ## Logins -/

variable {Dn : Type}

/-- The logins over SSH. -/
inductive SshLogin (Dn : Type) where
  | ldapAuthenticate (l : LdapEnv Dn) (userName password ip : String) (serverId : ℕ)
  | ldapAuthenticateAutoMatch (l : LdapEnv Dn) (userName password ip : String)

/-- `get_ldap_enabled`. -/
def SshLogin.enabled : SshLogin Dn → Bool
  | .ldapAuthenticate l _ _ _ _ => l.enabled
  | .ldapAuthenticateAutoMatch l _ _ _ => l.enabled

/-- The address the user comes from. -/
def SshLogin.ip : SshLogin Dn → String
  | .ldapAuthenticate _ _ _ ip _ => ip
  | .ldapAuthenticateAutoMatch _ _ _ ip => ip

/-- The authentication, once an identifier has been allocated. -/
def SshLogin.authenticate (uid : ℤ) : SshLogin Dn → Except LoginErr AccountInfo
  | .ldapAuthenticate l userName password ip serverId =>
    { l with allocUid := uid }.ldapAuthenticate userName password ip (some .ssh) serverId
  | .ldapAuthenticateAutoMatch l userName password ip =>
    { l with allocUid := uid }.ldapAuthenticateAutoMatch userName password ip (some .ssh)

/-- `ldap_authenticate` or `ldap_authenticate_auto_match` with the file: the identifier is
allocated as soon as LDAP is known to be enabled. -/
def SshLogin.run (c : SshLogin Dn) (file : UidFile) : Except LoginErr AccountInfo × UidFile :=
  if c.enabled then (c.authenticate (uipAllocLdapUid file).1, (uipAllocLdapUid file).2)
  else (.error .authorizationFailed, file)

/-- The calls that read and write the file. -/
inductive UidCall (Dn : Type) where
  | login (c : SshLogin Dn)
  | uipRenewLdapUser (usr : LdapUser)

/-- The file after a call. -/
def UidFile.step (file : UidFile) : UidCall Dn → UidFile
  | .login c => (c.run file).2
  | .uipRenewLdapUser usr => Sessions.uipRenewLdapUser usr file

/-! ## The law -/

/-- What is in the record is blank, or it is the user's. -/
structure LdapUser.OnlyOf (info : AccountInfo) (ip : String) (u : LdapUser) : Prop where
  username : u.username = "" ∨ u.username = info.userName
  fromip : u.fromip = "" ∨ u.fromip = ip
  serverid : u.serverid = 0 ∨ info.group.map (·.controllerId) = some u.serverid
  groupid : u.groupid = 0 ∨ info.group.map (·.controllerInnerId) = some u.groupid
  privilege : u.privilege = 0 ∨ u.privilege ∈ info.roleId
  roleid : ∀ r ∈ u.roleid, r = 0 ∨ r ∈ info.roleId

/-- The slot is in use. -/
def UidFile.Holds (file : UidFile) (i : ℕ) (u : LdapUser) : Prop :=
  file.users[i]? = some u ∧ u.used ≠ 0

/-- A login that raises an error leaves the slots as they are, and one that succeeds has an
identifier of its own, whose slot has nothing of another user. -/
structure SshLogin.Lawful (c : SshLogin Dn) (file : UidFile) : Prop where
  raised : ∀ e, (c.run file).1 = .error e → (c.run file).2.users = file.users
  range : ∀ info, (c.run file).1 = .ok info → 1000 ≤ info.id ∧ info.id < 1032
  slot : ∀ info, (c.run file).1 = .ok info →
    ∃ i u, (c.run file).2.Holds i u ∧ u.uid = info.id ∧ u.OnlyOf info c.ip
      ∧ ∀ j v, j ≠ i → (c.run file).2.Holds j v → v.uid ≠ info.id

/-- The law for a call. -/
def UidFile.SlotLaw (file : UidFile) : UidCall Dn → Prop
  | .login c => c.Lawful file
  | .uipRenewLdapUser _ => True

/-- What the directory says of the user. -/
def SshLogin.accepted (c : SshLogin Dn) : Except LoginErr AccountInfo := c.authenticate 0

/-- A login is without harm when LDAP is disabled, when the directory accepts the user, a slot
is free and the record that is read last has nothing of another user, and when the directory
does not accept the user and no slot is free. -/
def SshLogin.Harmless (c : SshLogin Dn) (file : UidFile) : Prop :=
  c.enabled = true →
    if ldapUserMaxCount ≤ file.slot then ∀ info, c.accepted ≠ .ok info
    else ∃ info, c.accepted = .ok info ∧ file.stale.OnlyOf info c.ip

/-- The condition for a call. -/
def UidFile.Harmless (file : UidFile) : UidCall Dn → Prop
  | .login c => c.Harmless file
  | .uipRenewLdapUser _ => True

/-! ## The identifier of a user -/

/-- The account with another identifier. -/
def AccountInfo.withId (uid : ℤ) (info : AccountInfo) : AccountInfo := { info with id := uid }

section Identifier

variable (l : LdapEnv Dn) (uid : ℤ) (password ip : String)

/-- Whatever identifier is allocated, a controller gives the same answer. -/
theorem authenticate_allocUid (user : String) (serverId : ℕ) (c : Controller) (name : String) :
  ({ l with allocUid := uid } : LdapEnv Dn).authenticate user password serverId c ip (some .ssh)
      name
    = (l.authenticate user password serverId c ip (some .ssh) name).map
        (Except.map (AccountInfo.withId uid))
  := by
  unfold LdapEnv.authenticate
  dsimp only
  cases Ldap.authenticate l.server l.groups l.rules serverId c.userDomain user password (some ip)
      ((some LoginInterface.ssh).map LoginInterface.value) with
  | none => rfl
  | some r =>
    cases r with
    | code ret => rfl
    | groups ret pri roles innerIds =>
      cases ret with
      | zero => rfl
      | succ n => rfl

theorem askDivided_allocUid (userName : String) (serverId : ℕ) (c : Controller) :
  ({ l with allocUid := uid } : LdapEnv Dn).askDivided userName password ip (some .ssh) serverId c
    = (l.askDivided userName password ip (some .ssh) serverId c).map
        (Except.map (AccountInfo.withId uid))
  := by
  unfold LdapEnv.askDivided
  cases checkUsernameDivideByDomain userName with
  | none => rfl
  | some p =>
    dsimp only
    split
    · exact authenticate_allocUid l uid password ip _ _ _ _
    · rfl

theorem askDomain_allocUid (userName user domain : String) (i : ℕ) :
  ({ l with allocUid := uid } : LdapEnv Dn).askDomain userName password ip (some .ssh) user domain
      i
    = (l.askDomain userName password ip (some .ssh) user domain i).map
        (Except.map (AccountInfo.withId uid))
  := by
  unfold LdapEnv.askDomain
  dsimp only
  cases (l.controllers i).filter fun c => c.userDomain = domain with
  | none => rfl
  | some c => exact authenticate_allocUid l uid password ip _ _ _ _

theorem askWhole_allocUid (userName : String) (i : ℕ) :
  ({ l with allocUid := uid } : LdapEnv Dn).askWhole userName password ip (some .ssh) i
    = (l.askWhole userName password ip (some .ssh) i).map (Except.map (AccountInfo.withId uid))
  := by
  unfold LdapEnv.askWhole
  dsimp only
  cases l.controllers i with
  | none => rfl
  | some c =>
    dsimp only
    split
    · exact authenticate_allocUid l uid password ip _ _ _ _
    · rfl

theorem firstAccepted_map {α : Type} {f : α → α}
    {ask ask' : ℕ → Except LoginErr (Except (Option ℕ) α)}
    (h : ∀ i, ask' i = (ask i).map (Except.map f)) (is : List ℕ) (ret : Option ℕ) :
  firstAccepted ask' is ret = (firstAccepted ask is ret).map (Except.map f)
  := by
  induction is generalizing ret with
  | nil => rfl
  | cons i is ih =>
    unfold firstAccepted
    rw [h]
    cases ask i with
    | error e => rfl
    | ok r =>
      cases r with
      | error ret' => exact ih _
      | ok a => rfl

theorem askDomains_allocUid (userName : String) :
  ({ l with allocUid := uid } : LdapEnv Dn).askDomains userName password ip (some .ssh)
    = (l.askDomains userName password ip (some .ssh)).map (Except.map (AccountInfo.withId uid))
  := by
  unfold LdapEnv.askDomains
  cases checkUsernameDivideByDomain userName with
  | none => rfl
  | some p => exact firstAccepted_map (askDomain_allocUid l uid password ip userName p.1 p.2) _ _

theorem ldapAuthenticate_allocUid (userName : String) (serverId : ℕ) :
  ({ l with allocUid := uid } : LdapEnv Dn).ldapAuthenticate userName password ip (some .ssh)
      serverId
    = (l.ldapAuthenticate userName password ip (some .ssh) serverId).map
        (AccountInfo.withId uid)
  := by
  unfold LdapEnv.ldapAuthenticate
  dsimp only
  cases l.controllers serverId with
  | none => cases l.enabled <;> rfl
  | some c =>
    dsimp only
    rw [askDivided_allocUid l uid, authenticate_allocUid l uid]
    generalize l.askDivided userName password ip (some .ssh) serverId c = divided
    generalize l.authenticate userName password serverId c ip (some .ssh) (c.qualify userName)
      = whole
    cases l.enabled with
    | false => rfl
    | true =>
      rcases divided with e | ret | info
      · rfl
      · rcases whole with e | ret | info <;> rfl
      · rfl

theorem ldapAuthenticateAutoMatch_allocUid (userName : String) :
  ({ l with allocUid := uid } : LdapEnv Dn).ldapAuthenticateAutoMatch userName password ip
      (some .ssh)
    = (l.ldapAuthenticateAutoMatch userName password ip (some .ssh)).map
        (AccountInfo.withId uid)
  := by
  have hwhole := firstAccepted_map (askWhole_allocUid l uid password ip userName)
    (List.range' 1 maxLdapCount)
  unfold LdapEnv.ldapAuthenticateAutoMatch
  dsimp only
  rw [askDomains_allocUid l uid]
  simp only [hwhole]
  generalize firstAccepted (l.askWhole userName password ip (some .ssh))
    (List.range' 1 maxLdapCount) = whole
  generalize l.askDomains userName password ip (some .ssh) = domains
  cases l.enabled with
  | false => rfl
  | true =>
    rcases domains with e | ret | info
    · rfl
    · dsimp [bind, Except.bind, Except.map]
      rcases whole ret with e | ret' | info <;> rfl
    · rfl

end Identifier

theorem SshLogin.authenticate_eq (c : SshLogin Dn) (uid : ℤ) :
  c.authenticate uid = c.accepted.map (AccountInfo.withId uid)
  := by
  have hmap : ∀ r : Except LoginErr AccountInfo, r.map (AccountInfo.withId uid)
      = (r.map (AccountInfo.withId 0)).map (AccountInfo.withId uid) := by
    intro r
    cases r <;> rfl
  cases c with
  | ldapAuthenticate l userName password ip serverId =>
    unfold SshLogin.accepted SshLogin.authenticate
    dsimp only
    rw [ldapAuthenticate_allocUid, ldapAuthenticate_allocUid l 0]
    exact hmap _
  | ldapAuthenticateAutoMatch l userName password ip =>
    unfold SshLogin.accepted SshLogin.authenticate
    dsimp only
    rw [ldapAuthenticateAutoMatch_allocUid, ldapAuthenticateAutoMatch_allocUid l 0]
    exact hmap _

/-! ## The slots -/

theorem getElem?_writeAt_self (l : List LdapUser) (n : ℕ) (usr : LdapUser) :
  (writeAt l n usr)[n]? = some usr
  := by
  unfold writeAt
  split
  case isTrue h => rw [List.getElem?_set_self h]
  case isFalse h =>
    have hlen : (l ++ List.replicate (n - l.length) LdapUser.zero).length = n := by
      rw [List.length_append, List.length_replicate]
      omega
    rw [List.getElem?_append_right hlen.le, hlen, Nat.sub_self]
    rfl

/-- What is at another place was there, or it is a gap. -/
theorem getElem?_writeAt_of_ne {l : List LdapUser} {n i : ℕ} {usr u : LdapUser} (hi : i ≠ n)
    (h : (writeAt l n usr)[i]? = some u) :
  l[i]? = some u ∨ u = LdapUser.zero
  := by
  unfold writeAt at h
  split at h
  case isTrue hn =>
    rw [List.getElem?_set_ne (Ne.symm hi)] at h
    exact .inl h
  case isFalse hn =>
    rw [List.append_assoc, List.getElem?_append] at h
    split at h
    case isTrue => exact .inl h
    case isFalse hlen =>
      rw [List.getElem?_append] at h
      split at h
      case isTrue => exact .inr (List.eq_of_mem_replicate (List.mem_of_getElem? h))
      case isFalse hgap =>
        rw [List.length_replicate] at hgap h
        have hzero : i - l.length - (n - l.length) ≠ 0 := by omega
        rw [List.getElem?_singleton, if_neg hzero] at h
        exact nomatch h

/-- The slot that is found is free, or it is the next after the last. -/
theorem used_scanSlots (n : ℕ) (usr : LdapUser) (l : List LdapUser) :
  ∃ j, (scanSlots n usr l).1 = n + j ∧ ∀ u, l[j]? = some u → u.used = 0
  := by
  induction l generalizing n usr with
  | nil => exact ⟨0, rfl, by simp⟩
  | cons u l ih =>
    unfold scanSlots
    split
    case isTrue hused => exact ⟨0, rfl, by simpa using hused⟩
    case isFalse =>
      obtain ⟨j, hj, hfree⟩ := ih (n + 1) u
      exact ⟨j + 1, by rw [hj]; omega, by simpa using hfree⟩

theorem used_slot {file : UidFile} {u : LdapUser} (h : file.users[file.slot]? = some u) :
  u.used = 0
  := by
  obtain ⟨j, hj, hfree⟩ := used_scanSlots 0 LdapUser.zero file.users
  rw [UidFile.slot, hj, Nat.zero_add] at h
  exact hfree u h

/-- Slots in use have the identifiers of their places. -/
def UidFile.Numbered (file : UidFile) : Prop :=
  ∀ i u, file.Holds i u → u.uid = ldapUserIdBase + i

theorem numbered_writeAt {file : UidFile} (h : file.Numbered) {n : ℕ} {usr : LdapUser}
    (husr : usr.used ≠ 0 → usr.uid = ldapUserIdBase + n) :
  UidFile.Numbered (some (writeAt file.users n usr))
  := by
  rintro i u ⟨hi, hused⟩
  by_cases hin : i = n
  · subst hin
    obtain rfl := Option.some_inj.mp ((getElem?_writeAt_self _ _ _).symm.trans hi)
    exact husr hused
  · rcases getElem?_writeAt_of_ne hin hi with hi | rfl
    · exact h i u ⟨hi, hused⟩
    · exact absurd rfl hused

theorem UidFile.Numbered.alloc {file : UidFile} (h : file.Numbered) :
  (uipAllocLdapUid file).2.Numbered
  := by
  unfold uipAllocLdapUid
  split
  · exact h
  · exact numbered_writeAt h fun _ => rfl

theorem UidFile.Numbered.renew {file : UidFile} (h : file.Numbered) (usr : LdapUser) :
  (uipRenewLdapUser usr file).Numbered
  := by
  cases file with
  | none => exact h
  | some l =>
    unfold uipRenewLdapUser
    dsimp only
    split
    · exact h
    · rename_i huid
      apply numbered_writeAt h
      intro _
      omega

theorem UidFile.Numbered.step {file : UidFile} (h : file.Numbered) (c : UidCall Dn) :
  (file.step c).Numbered
  := by
  cases c with
  | login c =>
    unfold UidFile.step SshLogin.run
    dsimp only
    split
    · exact h.alloc
    · exact h
  | uipRenewLdapUser usr => exact h.renew usr

/-! ## The law -/

section Login

variable {c : SshLogin Dn} {file : UidFile}

/-- A login while no slot is free. -/
theorem run_full (henabled : c.enabled = true) (hfull : ldapUserMaxCount ≤ file.slot) :
  c.run file = (c.accepted.map (AccountInfo.withId retErr), some file.users)
  := by
  rw [SshLogin.run, if_pos henabled, uipAllocLdapUid, if_pos hfull, c.authenticate_eq]

/-- A login that takes a slot. -/
theorem run_free (henabled : c.enabled = true) (hfree : ¬ ldapUserMaxCount ≤ file.slot) :
  c.run file = (c.accepted.map (AccountInfo.withId (ldapUserIdBase + file.slot)),
    some (writeAt file.users file.slot file.taken))
  := by
  rw [SshLogin.run, if_pos henabled, uipAllocLdapUid, if_neg hfree, c.authenticate_eq]

theorem run_disabled (hdisabled : c.enabled = false) :
  c.run file = (.error .authorizationFailed, file)
  := by
  rw [SshLogin.run, if_neg (by rw [hdisabled]; exact Bool.false_ne_true)]

/-- Taking a slot changes the file. -/
theorem users_taken_ne :
  writeAt file.users file.slot file.taken ≠ file.users
  := by
  intro h
  have hslot := getElem?_writeAt_self file.users file.slot file.taken
  rw [h] at hslot
  exact absurd (used_slot hslot) one_ne_zero

theorem onlyOf_taken {info : AccountInfo} {ip : String} {uid : ℤ} :
  file.taken.OnlyOf (info.withId uid) ip ↔ file.stale.OnlyOf info ip
  := by
  constructor
  · exact fun h => ⟨h.username, h.fromip, h.serverid, h.groupid, h.privilege, h.roleid⟩
  · exact fun h => ⟨h.username, h.fromip, h.serverid, h.groupid, h.privilege, h.roleid⟩

theorem lawful_full (henabled : c.enabled = true) (hfull : ldapUserMaxCount ≤ file.slot) :
  c.Lawful file ↔ ∀ info, c.accepted ≠ .ok info
  := by
  have hrun := run_full henabled hfull
  constructor
  · intro h info haccepted
    have hok : (c.run file).1 = .ok (info.withId retErr) := by rw [hrun, haccepted]; rfl
    have hrange : (1000 : ℤ) ≤ -1 := (h.range _ hok).1
    omega
  · intro hnone
    have herror : ∀ info, (c.run file).1 ≠ .ok info := by
      rw [hrun]
      cases haccepted : c.accepted with
      | error e => exact fun _ => nofun
      | ok info => exact absurd haccepted (hnone info)
    exact {
      raised := fun _ _ => by rw [hrun]; rfl
      range := fun info h => absurd h (herror info)
      slot := fun info h => absurd h (herror info) }

theorem lawful_free (hfile : file.Numbered) (henabled : c.enabled = true)
    (hfree : ¬ ldapUserMaxCount ≤ file.slot) :
  c.Lawful file ↔ ∃ info, c.accepted = .ok info ∧ file.stale.OnlyOf info c.ip
  := by
  have hrun := run_free henabled hfree
  have hnumbered : (c.run file).2.Numbered := by
    rw [hrun]
    exact numbered_writeAt hfile fun _ => rfl
  have hholds : (c.run file).2.Holds file.slot file.taken := by
    rw [hrun]
    exact ⟨getElem?_writeAt_self _ _ _, one_ne_zero⟩
  constructor
  · intro h
    cases haccepted : c.accepted with
    | error e =>
      have hraised := h.raised e (by rw [hrun, haccepted]; rfl)
      rw [hrun] at hraised
      exact absurd hraised users_taken_ne
    | ok info =>
      refine ⟨info, rfl, ?_⟩
      have hok : (c.run file).1 = .ok (info.withId (ldapUserIdBase + file.slot)) := by
        rw [hrun, haccepted]
        rfl
      obtain ⟨i, u, hu, huid, honly, -⟩ := h.slot _ hok
      have hi : i = file.slot := by
        have := (hnumbered i u hu).symm.trans huid
        simpa [AccountInfo.withId] using this
      subst hi
      obtain rfl := Option.some_inj.mp (hu.1.symm.trans hholds.1)
      exact onlyOf_taken.mp honly
  · rintro ⟨info, haccepted, honly⟩
    have hok : (c.run file).1 = .ok (info.withId (ldapUserIdBase + file.slot)) := by
      rw [hrun, haccepted]
      rfl
    have hinfo : ∀ info', (c.run file).1 = .ok info' →
        info' = info.withId (ldapUserIdBase + file.slot) :=
      fun info' h => Except.ok.inj (h.symm.trans hok)
    exact {
      raised := fun e h => nomatch h.symm.trans hok
      range := by
        intro info' h
        rw [hinfo info' h]
        simp only [AccountInfo.withId, ldapUserIdBase, ldapUserMaxCount] at hfree ⊢
        omega
      slot := by
        intro info' h
        rw [hinfo info' h]
        refine ⟨file.slot, file.taken, hholds, rfl, onlyOf_taken.mpr honly, ?_⟩
        intro j v hj hv huid
        have := (hnumbered j v hv).symm.trans huid
        exact hj (by simpa [AccountInfo.withId] using this) }

/-- A login obeys the law exactly when it is without harm. -/
theorem lawful_iff_harmless (hfile : file.Numbered) :
  c.Lawful file ↔ c.Harmless file
  := by
  cases henabled : c.enabled with
  | false =>
    have hrun : c.run file = _ := run_disabled henabled
    constructor
    · intro _ h
      exact absurd (henabled.symm.trans h) Bool.false_ne_true
    · intro _
      exact {
        raised := fun _ _ => by rw [hrun]
        range := fun info h => by rw [hrun] at h; exact nomatch h
        slot := fun info h => by rw [hrun] at h; exact nomatch h }
  | true =>
    unfold SshLogin.Harmless
    by_cases hfull : ldapUserMaxCount ≤ file.slot
    · rw [lawful_full henabled hfull, if_pos hfull]
      exact ⟨fun h _ => h, fun h => h henabled⟩
    · rw [lawful_free hfile henabled hfull, if_neg hfull]
      exact ⟨fun h _ => h, fun h => h henabled⟩

end Login

/-- No user has logged in, and the file has been created or not. -/
def noUsers (created : Bool) : UidFile := if created then some [] else none

theorem numbered_noUsers (created : Bool) :
  (noUsers created).Numbered
  := by
  cases created <;> exact fun i u h => nomatch h.1

/-- In a run that begins without users, every call obeys the law exactly when every call is
without harm where it is made. -/
theorem run_slotLaw_iff (created : Bool) (calls : List (UidCall Dn)) :
  Run.Along UidFile.step UidFile.SlotLaw (noUsers created) calls
    ↔ Run.Along UidFile.step UidFile.Harmless (noUsers created) calls
  := by
  apply Run.along_iff (I := UidFile.Numbered) (p := UidFile.SlotLaw) (q := UidFile.Harmless)
  · exact fun file c hfile (_ : True) => hfile.step c
  · intro file c hfile _
    cases c with
    | login c => exact lawful_iff_harmless hfile
    | uipRenewLdapUser usr => exact Iff.rfl
  · exact numbered_noUsers created
  · exact Run.along_of_forall fun _ _ => trivial

/-- The directory of a plain system, which refuses all users. -/
def refusingLdap : LdapEnv Unit :=
  { plainLdap with server := { plainLdap.server with bind := fun _ => false } }

/-- A user who is refused keeps a slot. -/
theorem refused_not_slotLaw :
  ¬ Run.Along UidFile.step UidFile.SlotLaw (noUsers false)
    [UidCall.login (.ldapAuthenticate refusingLdap "bob" "secret" "192.168.1.2" 1)]
  := by
  intro h
  obtain ⟨info, haccepted, -⟩ := (lawful_free (numbered_noUsers false) rfl (by decide)).mp h.1
  have hrefused : SshLogin.accepted (.ldapAuthenticate refusingLdap "bob" "secret" "192.168.1.2" 1)
      = .error .authorizationFailed := rfl
  exact nomatch hrefused.symm.trans haccepted

end Sessions

end BmcAccount
