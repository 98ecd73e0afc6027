import BmcAccount.Ldap.ParseInfo

/-!
# The name that a user binds with

The folder of an LDAP controller may already contain the entry of the user. Whether it does is
decided by a search for `CN=user` and `UID=user` in the whole base, so that a base with an RDN
that only contains such a text, as `CN=users` for the user `user`, is taken for the entry of
the user. `doDirectBind_right_iff` says exactly when the simple bind is right, and
`userdn_agree_iff` when the SASL bind, where the two flags are exchanged, agrees with it.
-/

namespace BmcAccount

namespace BindDn

open CString CBuffer ParseInfo

/-- `LDAP_USERFOLDER_MAX_LEN`. -/
def ldapUserfolderMaxLen : ℕ :=
  255

/-- The flags `0`, `LDAP_USERDN_TRY_UID` and `LDAP_USERDN_START_WITH_UID`. -/
inductive UserdnFlag : Type where
  | unset
  | tryUid
  | startWithUid
  deriving DecidableEq

/-- `CN=user` and `UID=user`, as they are printed into their buffers. -/
def cnOf (username : List UInt8) : List UInt8 :=
  printed (ldapUserfolderMaxLen + 1) (ofString "CN=" ++ username)

def uidOf (username : List UInt8) : List UInt8 :=
  printed (ldapUserfolderMaxLen + 1) (ofString "UID=" ++ username)

/-- `CN=user,base` and `UID=user,base`. -/
def cnUserdn (username base : List UInt8) : List UInt8 :=
  printed ldapUserdnMaxLen (ofString "CN=" ++ username ++ [comma] ++ base)

def uidUserdn (username base : List UInt8) : List UInt8 :=
  printed ldapUserdnMaxLen (ofString "UID=" ++ username ++ [comma] ++ base)

/-- `add_prefix_userdn`. -/
def addPrefixUserdn (base username : List UInt8) : List UInt8 × UserdnFlag :=
  if ¬ strcasestr base (cnOf username) ∧ ¬ strcasestr base (uidOf username) then
    (cnUserdn username base, .tryUid)
  else if strcasestr base (cnOf username) then
    (printed ldapUserdnMaxLen base, .unset)
  else
    (printed ldapUserdnMaxLen base, .startWithUid)

/-- `do_sasl_bind_set_userdn`. -/
def doSaslBindSetUserdn (base username : List UInt8) : List UInt8 × UserdnFlag :=
  if ¬ strcasestr base (cnOf username) ∧ ¬ strcasestr base (uidOf username) then
    (cnUserdn username base, .tryUid)
  else if ¬ strcasestr base (cnOf username) then
    (printed ldapUserdnMaxLen base, .unset)
  else
    (printed ldapUserdnMaxLen base, .startWithUid)

/-- What comes of a bind: the names that were tried, whether the last one was accepted, and
`dn_with_uid`. -/
structure BindRun where
  tried : List (List UInt8)
  success : Bool
  dnWithUid : Bool
  deriving DecidableEq

/-- `do_direct_bind`. The server accepts or refuses a name with the password of the user; there
is none if no session can be opened. -/
def doDirectBind (server : Option (List UInt8 → Bool)) (base username : List UInt8)
    (dnWithUid : Bool) : BindRun :=
  match server with
  | none => ⟨[], false, dnWithUid⟩
  | some accepts =>
    let (userdn, flag) := addPrefixUserdn base username
    let rc := accepts userdn
    if flag = .tryUid ∧ ¬ rc then
      let rc := accepts (uidUserdn username base)
      ⟨[userdn, uidUserdn username base], rc, rc || dnWithUid⟩
    else if flag = .startWithUid ∧ rc then
      ⟨[userdn], rc, true⟩
    else
      ⟨[userdn], rc, dnWithUid⟩

/-- `try_ldap_sasl_interactive_bind`, for a server that accepts or refuses a name. -/
def tryLdapSaslInteractiveBind (accepts : List UInt8 → Bool) (base username : List UInt8)
    (dnWithUid : Bool) : BindRun :=
  let (userdn, flag) := doSaslBindSetUserdn base username
  let rc := accepts userdn
  let dnWithUid := if flag = .startWithUid ∧ rc then true else dnWithUid
  if flag = .tryUid ∧ ¬ rc then
    let rc := accepts (uidUserdn username base)
    ⟨[userdn, uidUserdn username base], rc, rc || dnWithUid⟩
  else
    ⟨[userdn], rc, dnWithUid⟩

/-! ## The RDNs of a name -/

/-- A byte in front of the first RDN. -/
def consFirst (c : UInt8) : List (List UInt8) → List (List UInt8)
  | [] => [[c]]
  | rdn :: rest => (c :: rdn) :: rest

/-- The RDNs of a name, which end at each comma that is not escaped. -/
def splitRdns : Bool → List UInt8 → List (List UInt8)
  | _, [] => [[]]
  | escaped, c :: s =>
    if c = comma ∧ ¬ escaped then [] :: splitRdns false s
    else consFirst c (splitRdns (c = 92 ∧ ¬ escaped) s)

def rdns (s : List UInt8) : List (List UInt8) :=
  splitRdns false s

/-- An RDN is that of the user, with one type or the other. -/
def IsCn (username rdn : List UInt8) : Prop :=
  SameText rdn (ofString "CN=" ++ username)

def IsUid (username rdn : List UInt8) : Prop :=
  SameText rdn (ofString "UID=" ++ username)

instance (username rdn : List UInt8) : Decidable (IsCn username rdn) :=
  inferInstanceAs (Decidable (SameText _ _))

instance (username rdn : List UInt8) : Decidable (IsUid username rdn) :=
  inferInstanceAs (Decidable (SameText _ _))

/-- The RDN of the user in a name: the first one that has the user as its value. -/
def userRdn (username dn : List UInt8) : Option (List UInt8) :=
  (rdns dn).find? fun rdn => IsCn username rdn ∨ IsUid username rdn

/-- The names that are to be tried: the base if it has an RDN of the user, and otherwise the
user below the base, with `CN` and then with `UID`. -/
def dnsFor (accepts : List UInt8 → Bool) (base username : List UInt8) : List (List UInt8) :=
  if (userRdn username base).isSome then [base]
  else if accepts (ofString "CN=" ++ username ++ [comma] ++ base) then
    [ofString "CN=" ++ username ++ [comma] ++ base]
  else
    [ofString "CN=" ++ username ++ [comma] ++ base, ofString "UID=" ++ username ++ [comma] ++ base]

/-- A bind is right if it tries these names, reports what the server says to the last one, and
sets `dn_with_uid` exactly if the RDN of the user in an accepted name has the type `UID`. -/
structure BindRun.Right (run : BindRun) (accepts : List UInt8 → Bool) (base username : List UInt8)
    (dnWithUid : Bool) : Prop where
  tried : run.tried = dnsFor accepts base username
  success : ∃ dn ∈ run.tried.getLast?, run.success = accepts dn
  dnWithUid : run.dnWithUid ↔ dnWithUid ∨ run.success ∧
    ∃ dn ∈ run.tried.getLast?, ∃ rdn ∈ userRdn username dn, IsUid username rdn

/-- A user name without a character that is special in a name of the directory. -/
def Plain (username : List UInt8) : Prop :=
  ∀ c ∈ username, c ∉ ofString "\\\x22;<>#+=,"

/-- The names for a user and a base fit into their buffers. -/
structure Fits (base username : List UInt8) : Prop where
  user : (ofString "UID=" ++ username).length ≤ ldapUserfolderMaxLen
  userdn : (ofString "UID=" ++ username ++ [comma] ++ base).length < ldapUserdnMaxLen

theorem splitRdns_infix (escaped : Bool) (s : List UInt8) :
  ∃ rdn rest, splitRdns escaped s = rdn :: rest ∧ rdn <+: s ∧ ∀ r ∈ rest, r <:+: s
  := by
  induction s generalizing escaped with
  | nil => exact ⟨[], [], rfl, List.prefix_rfl, by simp⟩
  | cons c s ih =>
    rw [splitRdns]
    split
    · obtain ⟨rdn, rest, heq, hfirst, hrest⟩ := ih false
      use [], rdn :: rest, by rw [heq], List.nil_prefix
      intro r hr
      rcases List.mem_cons.mp hr with rfl | hr
      · exact hfirst.isInfix.trans (List.suffix_cons c s).isInfix
      · exact (hrest r hr).trans (List.suffix_cons c s).isInfix
    · obtain ⟨rdn, rest, heq, hfirst, hrest⟩ := ih (c = 92 ∧ ¬ escaped)
      use c :: rdn, rest, by rw [heq, consFirst], (List.prefix_cons_inj c).mpr hfirst
      intro r hr
      exact (hrest r hr).trans (List.suffix_cons c s).isInfix

theorem infix_of_mem_rdns {rdn dn : List UInt8} (h : rdn ∈ rdns dn) :
  rdn <:+: dn
  := by
  obtain ⟨first, rest, heq, hfirst, hrest⟩ := splitRdns_infix false dn
  rw [rdns, heq] at h
  rcases List.mem_cons.mp h with rfl | h
  · exact hfirst.isInfix
  · exact hrest rdn h

/-- An RDN without special characters in front of a name is its first RDN. -/
theorem rdns_append {rdn : List UInt8} (dn : List UInt8) (h : ∀ c ∈ rdn, c ≠ comma ∧ c ≠ 92) :
  rdns (rdn ++ [comma] ++ dn) = rdn :: rdns dn
  := by
  rw [rdns, rdns]
  induction rdn with
  | nil => simp [splitRdns]
  | cons c rdn ih =>
    obtain ⟨hc, hrdn⟩ := List.forall_mem_cons.mp h
    rw [List.cons_append, List.cons_append, splitRdns, if_neg (by simp [hc.1]),
      show decide (c = 92 ∧ ¬ false = true) = false by simp [hc.2], ih hrdn, consFirst]

theorem Plain.rdn_plain {username : List UInt8} (h : Plain username) (tag : List UInt8)
    (htag : ∀ c ∈ tag, c ≠ comma ∧ c ≠ 92) :
  ∀ c ∈ tag ++ username, c ≠ comma ∧ c ≠ 92
  := by
  intro c hc
  rcases List.mem_append.mp hc with hc | hc
  · exact htag c hc
  · have hspecial := h c hc
    constructor
    · rintro rfl
      exact absurd (by decide) hspecial
    · rintro rfl
      exact absurd (by decide) hspecial

theorem not_isUid_of_isCn {username rdn : List UInt8} (h : IsCn username rdn) :
  ¬ IsUid username rdn
  := by
  intro huid
  have hlen := congrArg List.length (h.symm.trans huid)
  have hcn : (ofString "CN=").length = 3 := by decide
  have huid : (ofString "UID=").length = 4 := by decide
  simp only [List.length_map, List.length_append, hcn, huid] at hlen
  omega

/-- Below the base, the RDN of the user is the one that was put in front. -/
theorem userRdn_cnUserdn {username : List UInt8} (base : List UInt8) (h : Plain username) :
  userRdn username (ofString "CN=" ++ username ++ [comma] ++ base)
    = some (ofString "CN=" ++ username)
  := by
  rw [userRdn, rdns_append base (h.rdn_plain _ (by decide +kernel))]
  apply List.find?_cons_of_pos
  exact decide_eq_true (Or.inl rfl)

theorem userRdn_uidUserdn {username : List UInt8} (base : List UInt8) (h : Plain username) :
  userRdn username (ofString "UID=" ++ username ++ [comma] ++ base)
    = some (ofString "UID=" ++ username)
  := by
  rw [userRdn, rdns_append base (h.rdn_plain _ (by decide +kernel))]
  apply List.find?_cons_of_pos
  exact decide_eq_true (Or.inr rfl)

/-- An RDN of the user is found in the whole base. -/
theorem strcasestr_of_userRdn {username base rdn : List UInt8}
    (h : userRdn username base = some rdn) :
  IsCn username rdn ∧ strcasestr base (ofString "CN=" ++ username)
    ∨ IsUid username rdn ∧ strcasestr base (ofString "UID=" ++ username)
  := by
  rw [userRdn] at h
  have hmem := infix_of_mem_rdns (List.mem_of_find?_eq_some h)
  have huser := List.find?_some h
  rw [decide_eq_true_iff] at huser
  rcases huser with hcn | huid
  · exact Or.inl ⟨hcn, strcasestr_of_sameText hmem hcn⟩
  · exact Or.inr ⟨huid, strcasestr_of_sameText hmem huid⟩

/-! ## The texts that are printed -/

theorem Fits.uidOf {base username : List UInt8} (h : Fits base username) :
  uidOf username = ofString "UID=" ++ username
  := printed_of_lt (Nat.lt_succ_of_le h.user)

theorem Fits.cnOf {base username : List UInt8} (h : Fits base username) :
  cnOf username = ofString "CN=" ++ username
  := by
  have huser := h.user
  have hcn : (ofString "CN=").length = 3 := by decide
  have huid : (ofString "UID=").length = 4 := by decide
  rw [List.length_append] at huser
  apply printed_of_lt
  rw [List.length_append]
  omega

theorem Fits.uidUserdn {base username : List UInt8} (h : Fits base username) :
  uidUserdn username base = ofString "UID=" ++ username ++ [comma] ++ base
  := printed_of_lt h.userdn

theorem Fits.cnUserdn {base username : List UInt8} (h : Fits base username) :
  cnUserdn username base = ofString "CN=" ++ username ++ [comma] ++ base
  := by
  have huser := h.userdn
  have hcn : (ofString "CN=").length = 3 := by decide
  have huid : (ofString "UID=").length = 4 := by decide
  apply printed_of_lt
  simp only [List.length_append] at *
  omega

theorem Fits.base {base username : List UInt8} (h : Fits base username) :
  printed ldapUserdnMaxLen base = base
  := by
  have huser := h.userdn
  apply printed_of_lt
  simp only [List.length_append] at huser
  omega

/-! ## The simple bind -/

/-- Without the texts in the base, the bind is right. -/
theorem right_of_notMem {accepts : List UInt8 → Bool} {base username : List UInt8}
    {dnWithUid : Bool} (hplain : Plain username) (hfits : Fits base username)
    (hcn : ¬ strcasestr base (ofString "CN=" ++ username))
    (huid : ¬ strcasestr base (ofString "UID=" ++ username)) :
  (doDirectBind (some accepts) base username dnWithUid).Right accepts base username dnWithUid
  := by
  have hnone : userRdn username base = none := by
    rcases h : userRdn username base with _ | rdn
    · rfl
    · rcases strcasestr_of_userRdn h with ⟨-, hmem⟩ | ⟨-, hmem⟩
      · exact absurd hmem hcn
      · exact absurd hmem huid
  have hadd : addPrefixUserdn base username
      = (ofString "CN=" ++ username ++ [comma] ++ base, .tryUid) := by
    rw [addPrefixUserdn, hfits.cnOf, hfits.uidOf, if_pos ⟨hcn, huid⟩, hfits.cnUserdn]
  have hnot : ¬ IsUid username (ofString "CN=" ++ username) :=
    not_isUid_of_isCn (by rfl)
  have hyes : IsUid username (ofString "UID=" ++ username) := rfl
  rcases h : accepts (ofString "CN=" ++ username ++ [comma] ++ base) with _ | _
  · have hrun : doDirectBind (some accepts) base username dnWithUid
        = ⟨[ofString "CN=" ++ username ++ [comma] ++ base,
            ofString "UID=" ++ username ++ [comma] ++ base],
          accepts (ofString "UID=" ++ username ++ [comma] ++ base),
          accepts (ofString "UID=" ++ username ++ [comma] ++ base) || dnWithUid⟩ := by
      rw [doDirectBind]
      simp only [hadd, hfits.uidUserdn, h]
      simp
    rw [hrun]
    constructor
    · simp only [dnsFor, hnone, h]
      simp
    · simp
    · simp only [List.getLast?_cons_cons, List.getLast?_singleton, Option.mem_some_iff,
        exists_eq_left', userRdn_uidUserdn base hplain, hyes, and_true, Bool.or_eq_true]
      exact or_comm
  · have hrun : doDirectBind (some accepts) base username dnWithUid
        = ⟨[ofString "CN=" ++ username ++ [comma] ++ base], true, dnWithUid⟩ := by
      rw [doDirectBind]
      simp only [hadd, h]
      simp
    rw [hrun]
    constructor
    · simp only [dnsFor, hnone, h]
      simp
    · exact ⟨_, rfl, h.symm⟩
    · simp only [List.getLast?_singleton, Option.mem_some_iff, exists_eq_left',
        userRdn_cnUserdn base hplain, hnot, and_false, or_false]

/-- With one of the texts in the base, the bind tries the base alone. -/
theorem doDirectBind_of_mem {accepts : List UInt8 → Bool} {base username : List UInt8}
    {dnWithUid : Bool} (hfits : Fits base username)
    (h : strcasestr base (ofString "CN=" ++ username)
      ∨ strcasestr base (ofString "UID=" ++ username)) :
  doDirectBind (some accepts) base username dnWithUid
    = ⟨[base], accepts base,
      if ¬ strcasestr base (ofString "CN=" ++ username) ∧ accepts base then true else dnWithUid⟩
  := by
  have hnot : ¬ (¬ strcasestr base (ofString "CN=" ++ username)
      ∧ ¬ strcasestr base (ofString "UID=" ++ username)) := by
    rintro ⟨hcn, huid⟩
    exact h.elim hcn huid
  rw [doDirectBind, addPrefixUserdn, hfits.cnOf, hfits.uidOf, if_neg hnot, hfits.base]
  by_cases hcn : strcasestr base (ofString "CN=" ++ username)
  · simp [hcn]
  · by_cases haccepts : accepts base <;> simp [hcn, haccepts]

/-- With one of the texts in the base, the bind is right exactly if the base has an RDN of the
user, and `dn_with_uid` is not missed. -/
theorem right_iff_of_mem {accepts : List UInt8 → Bool} {base username : List UInt8}
    {dnWithUid : Bool} (hfits : Fits base username)
    (h : strcasestr base (ofString "CN=" ++ username)
      ∨ strcasestr base (ofString "UID=" ++ username)) :
  (doDirectBind (some accepts) base username dnWithUid).Right accepts base username dnWithUid
    ↔ ∃ rdn ∈ userRdn username base, IsUid username rdn →
      strcasestr base (ofString "CN=" ++ username) → accepts base → dnWithUid
  := by
  rw [doDirectBind_of_mem hfits h]
  rcases huser : userRdn username base with _ | rdn
  · constructor
    · rintro ⟨htried, -, -⟩
      exfalso
      have hlen : (ofString "CN=" ++ username ++ [comma] ++ base).length ≠ base.length := by
        simp only [List.length_append, List.length_singleton]
        omega
      simp only [dnsFor, huser, Option.isSome_none, Bool.false_eq_true, if_false] at htried
      split at htried
      · exact hlen (congrArg List.length (List.cons.inj htried).1).symm
      · simp at htried
    · rintro ⟨rdn, hrdn, -⟩
      simp at hrdn
  · have htried : [base] = dnsFor accepts base username := by
      simp [dnsFor, huser]
    have hkind := strcasestr_of_userRdn huser
    constructor
    · rintro ⟨-, -, hflag⟩
      use rdn, rfl
      intro hisUid hcn haccepts
      have hset := hflag.mpr (Or.inr ⟨haccepts, base, rfl, rdn, huser, hisUid⟩)
      simpa [hcn] using hset
    · rintro ⟨rdn', hrdn, hmissed⟩
      obtain rfl : rdn = rdn' := by simpa using hrdn
      refine ⟨htried, ⟨base, rfl, rfl⟩, ?_⟩
      simp only [List.getLast?_singleton, Option.mem_some_iff, exists_eq_left', huser]
      by_cases hcn : strcasestr base (ofString "CN=" ++ username)
      · simp only [hcn, not_true_eq_false, false_and, if_false]
        constructor
        · exact Or.inl
        · rintro (hset | ⟨haccepts, hisUid⟩)
          · exact hset
          · exact hmissed hisUid hcn haccepts
      · have hisUid : IsUid username rdn := by
          rcases hkind with ⟨-, hmem⟩ | ⟨hisUid, -⟩
          · exact absurd hmem hcn
          · exact hisUid
        by_cases haccepts : accepts base <;> simp [hcn, haccepts, hisUid]

/-- The bind with a user name is right exactly if `CN=user` and `UID=user` are found in the
base only where it has an RDN of the user, and not before one with the type `UID` in a name
that is accepted, unless `dn_with_uid` is set already. -/
theorem doDirectBind_right_iff (accepts : List UInt8 → Bool) (base username : List UInt8)
    (dnWithUid : Bool) (hplain : Plain username) (hfits : Fits base username) :
  (doDirectBind (some accepts) base username dnWithUid).Right accepts base username dnWithUid
    ↔ ((strcasestr base (ofString "CN=" ++ username)
        ∨ strcasestr base (ofString "UID=" ++ username)) → (userRdn username base).isSome)
      ∧ ∀ rdn ∈ userRdn username base, IsUid username rdn →
        strcasestr base (ofString "CN=" ++ username) → accepts base → dnWithUid
  := by
  by_cases h : strcasestr base (ofString "CN=" ++ username)
      ∨ strcasestr base (ofString "UID=" ++ username)
  · rw [right_iff_of_mem hfits h]
    rcases userRdn username base with _ | rdn <;> simp [h]
  · obtain ⟨hcn, huid⟩ := not_or.mp h
    apply iff_of_true (right_of_notMem hplain hfits hcn huid)
    constructor
    · intro hmem
      exact absurd hmem h
    · intro rdn _ _ hmem
      exact absurd hmem hcn

/-- The base of the domain `example.com` with a folder. -/
def exampleBase (folder : List UInt8) : List UInt8 :=
  parseLdapBaseInfo (ofString "example.com") folder ldapUserdnMaxLen

/-- The user `user` below the folder `Users` is bound with the name of the folder. -/
theorem not_doDirectBind_right :
  exampleBase (ofString "Users") = ofString "CN=Users,DC=example,DC=com"
    ∧ Plain (ofString "user") ∧ Fits (exampleBase (ofString "Users")) (ofString "user")
    ∧ ¬ (doDirectBind (some fun _ => true) (exampleBase (ofString "Users")) (ofString "user")
      false).Right (fun _ => true) (exampleBase (ofString "Users")) (ofString "user") false
  := by
  refine ⟨by decide, ?_, ⟨by decide, by decide⟩, ?_⟩
  · rw [Plain]
    decide +kernel
  · rintro ⟨htried, -, -⟩
    revert htried
    decide +kernel

/-- The user `ada` below it is bound with the right name. -/
theorem doDirectBind_right_iff_ada :
  Plain (ofString "ada") ∧ Fits (exampleBase (ofString "Users")) (ofString "ada")
    ∧ (doDirectBind (some fun _ => true) (exampleBase (ofString "Users")) (ofString "ada")
      false).Right (fun _ => true) (exampleBase (ofString "Users")) (ofString "ada") false
  := by
  have hplain : Plain (ofString "ada") := by
    rw [Plain]
    decide +kernel
  have hfits : Fits (exampleBase (ofString "Users")) (ofString "ada") := ⟨by decide, by decide⟩
  use hplain, hfits
  apply (doDirectBind_right_iff _ _ _ _ hplain hfits).mpr
  constructor
  · decide
  · intro rdn _ _ hmem
    revert hmem
    decide +kernel

/-! ## The SASL bind -/

/-- The two binds agree on the name and the flag for a user, so that they leave the same
`dn_with_uid` whatever the server says. -/
structure Agree (base username : List UInt8) : Prop where
  userdn : doSaslBindSetUserdn base username = addPrefixUserdn base username
  dnWithUid : ∀ accepts dnWithUid,
    (tryLdapSaslInteractiveBind accepts base username dnWithUid).dnWithUid
      = (doDirectBind (some accepts) base username dnWithUid).dnWithUid

/-- With the same name and flag, the binds are the same. -/
theorem dnWithUid_eq_of_userdn {base username : List UInt8}
    (h : doSaslBindSetUserdn base username = addPrefixUserdn base username)
    (accepts : List UInt8 → Bool) (dnWithUid : Bool) :
  (tryLdapSaslInteractiveBind accepts base username dnWithUid).dnWithUid
    = (doDirectBind (some accepts) base username dnWithUid).dnWithUid
  := by
  rw [tryLdapSaslInteractiveBind, doDirectBind, h]
  obtain ⟨userdn, flag⟩ := addPrefixUserdn base username
  by_cases haccepts : accepts userdn
  · by_cases hflag : flag = .startWithUid <;> simp [haccepts, hflag]
  · by_cases hflag : flag = .tryUid <;> simp [haccepts, hflag]

/-- The two binds agree exactly if neither `CN=user` nor `UID=user` is found in the base. -/
theorem userdn_agree_iff (base username : List UInt8) :
  Agree base username
    ↔ ¬ strcasestr base (cnOf username) ∧ ¬ strcasestr base (uidOf username)
  := by
  constructor
  · rintro ⟨h, -⟩
    rw [doSaslBindSetUserdn, addPrefixUserdn] at h
    by_cases hcn : strcasestr base (cnOf username)
    · simp [hcn] at h
    · by_cases huid : strcasestr base (uidOf username)
      · simp [hcn, huid] at h
      · exact ⟨hcn, huid⟩
  · intro h
    have huserdn : doSaslBindSetUserdn base username = addPrefixUserdn base username := by
      rw [doSaslBindSetUserdn, addPrefixUserdn, if_pos h, if_pos h]
    exact ⟨huserdn, dnWithUid_eq_of_userdn huserdn⟩

/-- For a base that is the entry of the user, the SASL bind sets `dn_with_uid`. -/
theorem not_userdn_agree :
  exampleBase (ofString "CN=ada") = ofString "CN=ada,DC=example,DC=com"
    ∧ ¬ Agree (exampleBase (ofString "CN=ada")) (ofString "ada")
  := by
  use by decide
  rintro ⟨h, -⟩
  revert h
  decide

end BindDn

end BmcAccount
