import BmcAccount.Account.Authentication
import BmcAccount.Account.Password
import BmcAccount.Account.Permanent

/-!
# One password for all interfaces

The password of an account is stored as a hash, and once more as a cipher text for IPMI. A
change of the password writes both; of an OEM account only the first twenty characters are
for IPMI. Closing the IPMI interface clears the cipher text, and then IPMI falls back on the
hash. The recovery of the permanent backup writes the hash alone.

The run carries along the password that the account was given last.
-/

namespace BmcAccount

open Raise

/-! ## What is stored of a password -/

/-- What is stored of the password of an account, and what its changes depend on. -/
structure SecretView where
  cls : AccountClass
  hasSnmp : Bool
  password : String
  ipmiPassword : String

/-- The view of an account; an IPMI password that is not there reads as empty. -/
def Account.secretView (a : Account) : SecretView :=
  ⟨a.cls, a.snmp.isSome, a.data.password, a.data.ipmiPassword.getD ""⟩

theorem secretView_updatePrivileges (env : Env) (cfg : Config)
    (given : Option (List PrivilegeType)) (a : Account) :
  (a.updatePrivileges env cfg given).secretView = a.secretView
  := by
  unfold Account.updatePrivileges
  simp only
  split <;> rfl

theorem showsStored_secretView :
  ShowsStored Account.secretView
  where
  history _ _ := rfl
  inTable _ _ := rfl
  updatePrivileges := secretView_updatePrivileges
  updateInactiveUserStartTime env cfg a := by
    unfold Account.updateInactiveUserStartTime
    split
    · split_ifs <;> rfl
    · rfl
  updateDeletable cfg only id a := by
    unfold Account.updateDeletable
    split <;> rfl
  setWithinMinPasswordDaysStatus status a := by
    unfold Account.setWithinMinPasswordDaysStatus
    split <;> rfl

/-- The password of an account: whether it was given by a call that limits the IPMI password. -/
structure GivenPassword where
  password : String
  limited : Bool

/-- The IPMI password: the first twenty characters, where it is limited. -/
def GivenPassword.ipmi (p : GivenPassword) : String :=
  if p.limited then String.ofList (p.password.toList.take 20) else p.password

section Told

variable (crypt : String → String → String) (encrypt : String → String)

/-- The hash and the cipher text are those of the password, where there is a cipher text. Only
OEM accounts have a limited one. -/
structure SecretView.Told (p : GivenPassword) (v : SecretView) : Prop where
  cls : v.cls = .localAccount ∧ p.limited = false ∨ v.cls = .oemAccount
  hasSnmp : v.hasSnmp = true
  stored : v.ipmiPassword ≠ "" →
    (∃ salt, IsSalt salt ∧ v.password = crypt p.password ("$6$" ++ salt)) ∧
      v.ipmiPassword = encrypt p.ipmi

end Told

/-! ## Runs -/

/-- The operations of a run. -/
inductive SecretOp where
  | setAccountPassword (handler id : ℕ) (password : String)
  | setLoginInterface (id : ℕ) (interfaces : List String)
  | recoverPermanentAccountInfo (rows : PermanentTable)

/-- An operation, and what it sees of the rest of the system. -/
structure SecretCall where
  env : Env
  op : SecretOp

/-- The program of a call. -/
def SecretCall.prog (c : SecretCall) : M Unit :=
  match c.op with
  | .setAccountPassword handler id password => setAccountPassword c.env handler id password
  | .setLoginInterface id interfaces => setLoginInterface c.env id interfaces
  | .recoverPermanentAccountInfo rows => recoverPermanentAccountInfo c.env rows

/-- A state, with the password that the account under consideration was given last. -/
structure Remembered where
  state : State
  given : GivenPassword

/-- The password that a call gives the account `id`, if it succeeds: a password is limited
where the account is an OEM one. -/
def SecretCall.given (id : ℕ) (s : State) (c : SecretCall) : Option GivenPassword :=
  match c.op with
  | .setAccountPassword _ j password =>
      if j = id then
        some ⟨password, (s.accounts.lookup id).any fun a => a.cls = .oemAccount⟩
      else none
  | .setLoginInterface _ _ => none
  | .recoverPermanentAccountInfo _ => none

/-- The state after a call, and the password that the account `id` was given last by then. -/
def secretStep (id : ℕ) (x : Remembered) (c : SecretCall) : Remembered where
  state := after c.prog x.state
  given :=
    match (exec c.prog x.state).1 with
    | .ok _ => (c.given id x.state).getD x.given
    | .error _ => x.given

/-- A recovery leaves an account with an IPMI password the hash that it has. -/
def LeavesHash (id : ℕ) (x : Remembered) (c : SecretCall) : Prop :=
  match c.op with
  | .setAccountPassword _ _ _ => True
  | .setLoginInterface _ _ => True
  | .recoverPermanentAccountInfo rows =>
      ∀ i r a, rows.lookup i = some r → i.1 = id → x.state.accounts.lookup id = some a →
        a.data.ipmiPassword.getD "" ≠ "" → r.password = a.data.password

/-- The password functions that a call sees. -/
structure Env.HasSecrets (crypt : String → String → String) (encrypt : String → String)
    (decrypt : String → Option String) (env : Env) : Prop where
  crypt : env.crypt = crypt
  encrypt : env.encryptPassword = encrypt
  decrypt : env.decryptPassword = decrypt

section Inv

variable {crypt : String → String → String} {encrypt : String → String}
  {decrypt : String → Option String} {env : Env} {id : ℕ} {p : GivenPassword}

/-! ### Creation -/

/-- An account that is created with a plain password stores it in both forms. -/
theorem told_init (henv : env.HasSecrets crypt encrypt decrypt) {info : Account.Info}
    (hplain : info.isPwdEncrypted = false) {a : Account} (ha : Account.init env info = .ok a) :
  a.secretView.Told crypt encrypt ⟨info.password, false⟩
  := by
  unfold Account.init at ha
  cases hpw : Account.initPassword env info with
  | error e =>
    rw [hpw] at ha
    cases ha
  | ok r =>
    simp only [hpw] at ha
    split at ha
    · cases ha
    cases ha
    refine ⟨?_, rfl, ?_⟩
    · cases hoem : info.oem with
      | true => exact .inr (if_pos hoem)
      | false => exact .inl ⟨if_neg (by simp [hoem]), rfl⟩
    · intro hne
      unfold Account.initPassword at hpw
      simp only [hplain, Bool.false_eq_true, if_false] at hpw
      split_ifs at hpw
      · cases hpw
        exact absurd rfl hne
      · cases hpw
        refine ⟨⟨_, isSalt_randomSalt env.randomBytes, ?_⟩, ?_⟩
        · rw [← henv.crypt]
          rfl
        · rw [← henv.encrypt]
          rfl

/-! ### Changes of the password -/

/-- The view of an account after a change of its password. -/
theorem secretView_storePassword (env : Env) (cfg : Config) (password ipmiPassword : String)
    (isConfigSelf : Bool) (a : Account) :
  (a.storePassword env cfg password ipmiPassword isConfigSelf).secretView
    = { a.secretView with
        password := Account.cryptPasswordByRandomSalt env env.randomBytes password
        ipmiPassword := env.encryptPassword ipmiPassword }
  := secretView_updatePrivileges ..

theorem told_setAccountPassword (henv : env.HasSecrets crypt encrypt decrypt) (cfg : Config)
    (password : String) (isConfigSelf : Bool) {a : Account}
    (h : a.secretView.Told crypt encrypt p) :
  ∃ a', a.setAccountPassword env cfg password isConfigSelf = (a', .ok ()) ∧
    a'.secretView.Told crypt encrypt ⟨password, a.cls = .oemAccount⟩
  := by
  have hhash : Account.cryptPasswordByRandomSalt env env.randomBytes password
      = crypt password ("$6$" ++ Account.randomSalt env.randomBytes) := by
    rw [← henv.crypt]
    rfl
  obtain ⟨r, hr⟩ := Option.isSome_iff_exists.mp h.hasSnmp
  unfold Account.setAccountPassword
  obtain ⟨hcls, -⟩ | hcls := h.cls
  · have hcls' : a.cls = .localAccount := hcls
    simp only [hcls', hr]
    refine ⟨_, rfl, ?_⟩
    have hview := secretView_storePassword env cfg password password isConfigSelf a
    have hlocal := congrArg SecretView.cls hview
    have hpassword := congrArg SecretView.password hview
    have hipmi := congrArg SecretView.ipmiPassword hview
    refine ⟨.inl ⟨hlocal.trans hcls, by simp⟩, rfl,
      fun _ => ⟨⟨_, isSalt_randomSalt env.randomBytes, ?_⟩, ?_⟩⟩
    · exact hpassword.trans hhash
    · rw [← henv.encrypt]
      exact hipmi
  · have hcls' : a.cls = .oemAccount := hcls
    simp only [hcls']
    refine ⟨_, rfl, ?_⟩
    rw [secretView_storePassword]
    refine ⟨.inr hcls, h.hasSnmp, fun _ => ⟨⟨_, isSalt_randomSalt _, hhash⟩, ?_⟩⟩
    rw [← henv.encrypt]
    simp [GivenPassword.ipmi]

/-- A change of the password of the account is refused, or the account is told of it. -/
theorem exec_setAccountPassword_told (henv : env.HasSecrets crypt encrypt decrypt)
    (handler : ℕ) (password : String) {s : State} {a : Account}
    (ha : s.accounts.lookup id = some a) (h : a.secretView.Told crypt encrypt p) :
  (∃ e, exec (setAccountPassword env handler id password) s = (.error e, s)) ∨
    ∃ s', exec (setAccountPassword env handler id password) s = (.ok (), s') ∧
      ViewAt Account.secretView id
        (SecretView.Told crypt encrypt ⟨password, a.cls = .oemAccount⟩) s'
  := by
  cases hvalid : a.passwordValidator env s.config a.data.userName password false (handler = id) with
  | error e => exact .inl ⟨e, exec_setAccountPassword_refused ha hvalid⟩
  | ok u =>
    obtain ⟨a', hset, htold⟩ := told_setAccountPassword henv s.config password (handler = id) h
    refine .inr ⟨after (updateWithinMinPasswordDaysStatus env) (s.modifyAccount id fun _ => a'),
      ?_, a'.secretView, ?_, htold⟩
    · unfold setAccountPassword
      rw [exec_bind_ok (exec_getAccount ha), exec_bind_ok (exec_get s), hvalid]
      simp only [hset]
      rfl
    · have hview := State.view_mapAccounts (v := Account.secretView)
        (s := s.modifyAccount id fun _ => a')
        (f := fun _ b => b.setWithinMinPasswordDaysStatus
          (b.withinMinPasswordDays env s.config))
        fun _ _ => showsStored_secretView.setWithinMinPasswordDaysStatus ..
      refine (congrFun hview id).trans ?_
      rw [State.view_modifyAccount, Function.update_self, ha, Option.map_some]

/-! ### Login interfaces -/

/-- A change of the login interfaces keeps both forms, or clears the cipher text. -/
theorem setLoginInterface_told (env : Env) (interfaces : List String) :
  Keeps (ViewAt Account.secretView id (SecretView.Told crypt encrypt p))
    (setLoginInterface env id interfaces)
  := by
  apply Keeps.bind getAccount_keeps
  intro account
  apply Keeps.bind Keeps.refuse
  intro _
  apply Keeps.bind checkIsLastOperateAdmin_keeps
  intro _
  apply Keeps.bind Keeps.refuse
  intro _
  apply Keeps.bind
  · apply Keeps.onlyIf
    apply updateAccount_at
    intro cfg a h
    exact ⟨h.cls, h.hasSnmp, fun hne => absurd rfl hne⟩
  · intro _
    apply callAccount_at
    intro cfg a a' ha' h
    have hview : a'.secretView = a.secretView := by
      unfold Account.setLoginInterface at ha'
      cases hcls : a.cls <;> simp only [hcls] at ha'
      all_goals
        try split_ifs at ha'
        cases ha'
        simp [Account.secretView, hcls]
    rw [hview]
    exact h

/-! ### Recovery -/

/-- The rows of the account `id` have its hash, if it has a cipher text. -/
def RowsLeave (id : ℕ) (l : List (Sigma fun _ : LocalId => PermanentRow)) (v : SecretView) : Prop :=
  ∀ e ∈ l, e.1.1 = id → v.ipmiPassword ≠ "" → e.2.password = v.password

theorem recoverPermanentRow_off (env : Env) (r : PermanentRow) {v : Account → SecretView}
    {T : ℕ → Option SecretView} (hv : ShowsStored v) :
  Keeps (ViewOff v T id) (recoverPermanentRow env id r)
  := by
  unfold recoverPermanentRow
  apply Keeps.bind Keeps.get
  intro s
  apply Keeps.ite updateAccount_off
  exact newAccountToDbAndMdb_off hv.toShowsNoFlags env (r.info id) true

/-- The recovery of a row that leaves the hash. -/
theorem recoverPermanentRow_told (env : Env) {l : List (Sigma fun _ : LocalId => PermanentRow)}
    {e : Sigma fun _ : LocalId => PermanentRow} (he : e ∈ l) :
  Keeps (ViewAt Account.secretView id fun v => v.Told crypt encrypt p ∧ RowsLeave id l v)
    (recoverPermanentRow env e.1 e.2)
  := by
  by_cases hid : id = e.1.1
  · rintro s ⟨v, hview, htold, hrows⟩
    have hpresent : ∃ a, s.accounts.lookup e.1.1 = some a ∧ a.secretView = v := by
      rw [← hid]
      exact Option.map_eq_some_iff.mp hview
    obtain ⟨a, ha, rfl⟩ := hpresent
    have hexec : exec (recoverPermanentRow env e.1 e.2) s
        = (.ok (), s.modifyAccount e.1 fun a => (e.2.cover a).updatePrivileges env s.config none) := by
      unfold recoverPermanentRow
      rw [exec_bind_ok (exec_get s)]
      simp only [ha, Option.isSome_some, if_true]
      rfl
    rw [hexec]
    refine ⟨{ a.secretView with password := e.2.password }, ?_, ⟨htold.cls, htold.hasSnmp, ?_⟩, ?_⟩
    · rw [hid, State.view_modifyAccount, Function.update_self, ha, Option.map_some,
        secretView_updatePrivileges]
      rfl
    · intro hne
      have hsame := hrows e he hid.symm hne
      obtain ⟨hhash, hcipher⟩ := htold.stored hne
      simp only [hsame]
      exact ⟨hhash, hcipher⟩
    · intro e' he' hid' hne
      rw [hrows e' he' hid' hne, ← hrows e he hid.symm hne]
  · exact keeps_at_of_off hid fun T => recoverPermanentRow_off env e.2 showsStored_secretView

/-! ### A call -/

/-- The account is told of the password it was given last. -/
def SecretInv (crypt : String → String → String) (encrypt : String → String) (id : ℕ)
    (x : Remembered) : Prop :=
  ViewAt Account.secretView id (SecretView.Told crypt encrypt x.given) x.state

/-- A call that gives the account no password. -/
theorem secretStep_of_given_none {x : Remembered} {c : SecretCall}
    (h : c.given id x.state = none) :
  secretStep id x c = ⟨after c.prog x.state, x.given⟩
  := by
  unfold secretStep
  rw [h]
  cases (exec c.prog x.state).1 <;> rfl

theorem secretStep_setAccountPassword (henv : env.HasSecrets crypt encrypt decrypt)
    {x : Remembered} (h : SecretInv crypt encrypt id x) (handler : ℕ) (password : String) :
  SecretInv crypt encrypt id (secretStep id x ⟨env, .setAccountPassword handler id password⟩)
  := by
  obtain ⟨v, hview, htold⟩ := h
  obtain ⟨a, ha, rfl⟩ := Option.map_eq_some_iff.mp hview
  obtain ⟨e, hexec⟩ | ⟨s', hexec, hs'⟩ := exec_setAccountPassword_told henv handler password ha htold
  · have hstep : secretStep id x ⟨env, .setAccountPassword handler id password⟩ = x := by
      unfold secretStep SecretCall.prog after
      simp only [hexec]
    rw [hstep]
    exact ⟨_, hview, htold⟩
  · have hstep : secretStep id x ⟨env, .setAccountPassword handler id password⟩
        = ⟨s', ⟨password, a.cls = .oemAccount⟩⟩ := by
      unfold secretStep SecretCall.prog SecretCall.given after
      simp only [hexec, if_true, ha, Option.any_some, Option.getD_some]
    rw [hstep]
    exact hs'

/-- Every call keeps the account told of its last password, as long as a recovery leaves the
hash. -/
theorem secretStep_inv {x : Remembered} {c : SecretCall}
    (henv : c.env.HasSecrets crypt encrypt decrypt) (h : SecretInv crypt encrypt id x)
    (hc : LeavesHash id x c) :
  SecretInv crypt encrypt id (secretStep id x c)
  := by
  obtain ⟨env, op⟩ := c
  cases op with
  | setAccountPassword handler j password =>
    by_cases hj : j = id
    · subst hj
      exact secretStep_setAccountPassword henv h handler password
    · have hnone : SecretCall.given id x.state ⟨env, .setAccountPassword handler j password⟩
          = none := if_neg hj
      rw [secretStep_of_given_none hnone]
      exact (keeps_at_of_off (Ne.symm hj) fun _ =>
        setAccountPassword_off showsStored_secretView.toShowsNoFlags env handler password).after h
  | setLoginInterface j interfaces =>
    rw [secretStep_of_given_none rfl]
    by_cases hj : j = id
    · subst hj
      exact (setLoginInterface_told env interfaces).after h
    · exact (keeps_at_of_off (Ne.symm hj) fun _ => setLoginInterface_off env interfaces).after h
  | recoverPermanentAccountInfo rows =>
    rw [secretStep_of_given_none rfl]
    obtain ⟨v, hview, htold⟩ := h
    obtain ⟨a, ha, rfl⟩ := Option.map_eq_some_iff.mp hview
    have hrows : RowsLeave id rows.entries a.secretView := fun e he hid hne =>
      hc e.1 e.2 a (Table.mem_entries_iff.mp he) hid ha hne
    have hkeeps : Keeps (ViewAt Account.secretView id fun v =>
        v.Told crypt encrypt x.given ∧ RowsLeave id rows.entries v)
        (recoverPermanentAccountInfo env rows) :=
      Keeps.forM fun e he => recoverPermanentRow_told env he
    obtain ⟨v', hview', htold', -⟩ := hkeeps.after ⟨_, hview, htold, hrows⟩
    exact ⟨v', hview', htold'⟩

end Inv

/-! ## The law -/

/-- The two checks of an account that was given the password `p`: `authenticate` accepts the
password alone, and IPMI its IPMI form alone. For a local account both are the password. -/
structure SecretLaw (env : Env) (p : GivenPassword) (a : Account) : Prop where
  limited : p.limited = true → a.cls = .oemAccount
  hash : ∀ q, a.authPassword env q = true ↔ q = p.password
  ipmi : ∀ q, a.testPasswordOperation env q = some true ↔ q = p.ipmi

theorem SecretView.Told.law {crypt : String → String → String} {encrypt : String → String}
    {decrypt : String → Option String} (hcrypt : Sha512Crypt crypt)
    (hinj : ∀ salt, Function.Injective fun q => crypt q salt)
    (hkmc : ∀ q, decrypt (encrypt q) = some q) {env : Env}
    (henv : env.HasSecrets crypt encrypt decrypt) {p : GivenPassword} {a : Account}
    (h : a.secretView.Told crypt encrypt p) (hne : a.data.ipmiPassword.getD "" ≠ "") :
  SecretLaw env p a
  := by
  obtain ⟨⟨salt, hsalt, hhash⟩, hcipher⟩ := h.stored hne
  constructor
  · intro hlimited
    obtain ⟨-, hfalse⟩ | hcls := h.cls
    · rw [hlimited] at hfalse
      cases hfalse
    · exact hcls
  · intro q
    obtain ⟨digest, hdigest⟩ := hcrypt.format p.password salt hsalt
    have hpassword : a.data.password = crypt p.password ("$6$" ++ salt) := hhash
    unfold Account.authPassword
    rw [hpassword, hdigest, saltOf_hash hsalt]
    simp only
    rw [← hdigest, ← hcrypt.terminated p.password salt hsalt, beq_iff_eq, henv.crypt]
    exact (hinj _).eq_iff
  · intro q
    have hcipher' : a.data.ipmiPassword.getD "" = encrypt p.ipmi := hcipher
    unfold Account.testPasswordOperation
    rw [hcipher'] at hne ⊢
    split
    · rename_i hempty
      exact absurd hempty hne
    · rw [henv.decrypt, hkmc, Option.map_some, Option.some_inj, beq_iff_eq]
      exact eq_comm

/-- From the creation of an account with a plain password on, along every run of changes of
passwords and of login interfaces and of recoveries that leave the hash of an account with an
IPMI password, one password is accepted wherever the account has an IPMI password. -/
theorem run_secretLaw (crypt : String → String → String) (hcrypt : Sha512Crypt crypt)
    (hinj : ∀ salt, Function.Injective fun q => crypt q salt) (encrypt : String → String)
    (decrypt : String → Option String) (hkmc : ∀ q, decrypt (encrypt q) = some q) (env : Env)
    (henv : env.HasSecrets crypt encrypt decrypt) (info : Account.Info)
    (hplain : info.isPwdEncrypted = false) (isIpmiOrSnmp : Bool) (id : ℕ) (s s' : State)
    (hnew : exec (newAccount env info isIpmiOrSnmp) s = (.ok id, s')) (calls : List SecretCall)
    (hcalls : ∀ c ∈ calls, c.env.HasSecrets crypt encrypt decrypt)
    (hleaves : Run.Along (secretStep id) (LeavesHash id) ⟨s', info.password, false⟩ calls) :
  ∀ x ∈ Run.states (secretStep id) ⟨s', info.password, false⟩ calls,
    ∃ a, x.state.accounts.lookup id = some a ∧
      (a.data.ipmiPassword.getD "" ≠ "" → SecretLaw env x.given a)
  := by
  have hstart : SecretInv crypt encrypt id ⟨s', info.password, false⟩ := by
    have hspec := newAccount_init showsStored_secretView env info isIpmiOrSnmp s rfl
    rw [hnew] at hspec
    obtain ⟨-, -, a, ha, hview⟩ := hspec
    refine ⟨a.secretView, ?_, told_init henv hplain ha⟩
    rw [hview, Function.update_self]
  have hcallsAlong : Run.Along (secretStep id) _ ⟨s', info.password, false⟩ _ :=
    Run.along_of_forall hcalls
  have halong := hcallsAlong.and hleaves
  have hinv := Run.invariant (fun _ _ h hc => secretStep_inv hc.1 h hc.2) hstart halong
  intro x hx
  obtain ⟨v, hview, htold⟩ := hinv x hx
  obtain ⟨a, ha, rfl⟩ := Option.map_eq_some_iff.mp hview
  exact ⟨a, ha, htold.law hcrypt hinj hkmc henv⟩

/-! ### Two passwords -/

/-- The digest of a password: the true ones of two passwords under the salt of sixteen dots,
and no other digest begins with an exclamation mark. -/
def secretDigest (salt password : String) : String :=
  if salt = "$6$................$" ∧ password = "Admin@9000" then
    "CHStkWe467teWvvXwWWagwbEefVdIWDtlzlqpOYbUxSm2nyueHAXycdwWCZOLM8/FtwS4bpSHuScf1WilGR84/"
  else if salt = "$6$................$" ∧ password = "Huawei12#" then
    "ATZvCFkfAPIre1H4Eifyi9CRvhKoBfba3Z0CzY.FTvgRij.ZT/X.AdjSOIexrO7mIZyBmf9RTBOVgtAypapFZ."
  else "!" ++ password

/-- A hash function with these digests. -/
def secretCrypt (password salt : String) : String :=
  let salt' := if salt.toList.getLast? = some '$' then salt else salt ++ "$"
  salt' ++ secretDigest salt' password

theorem secretDigest_injective (salt : String) :
  Function.Injective (secretDigest salt)
  := by
  have hmark (d q : String) (hd : d.toList.head? ≠ some '!') : d ≠ "!" ++ q := by
    rintro rfl
    exact hd (by simp [String.toList_append])
  intro p q h
  unfold secretDigest at h
  split_ifs at h
  all_goals first
    | exact absurd h (by decide)
    | exact absurd h (hmark _ _ (by decide))
    | exact absurd h.symm (hmark _ _ (by decide))
    | simp_all

theorem secretCrypt_injective (salt : String) :
  Function.Injective fun q => secretCrypt q salt
  := by
  intro p q h
  apply secretDigest_injective (if salt.toList.getLast? = some '$' then salt else salt ++ "$")
  have hlist := congrArg String.toList h
  simp only [secretCrypt, String.toList_append] at hlist
  exact String.toList_injective (List.append_cancel_left hlist)

theorem sha512Crypt_secretCrypt :
  Sha512Crypt secretCrypt
  := by
  constructor
  · intro password salt hsalt
    unfold secretCrypt
    simp only [if_neg hsalt.getLast_ne]
    exact ⟨_, rfl⟩
  · intro password salt hsalt
    unfold secretCrypt
    simp only [if_neg hsalt.getLast_ne, if_pos (getLast_terminated salt)]

/-- The plain system with that hash function, and a cipher that puts a mark before a text. -/
def secretEnv : Env :=
  { plainEnv with
    crypt := secretCrypt
    encryptPassword := fun text => "k" ++ text
    decryptPassword := fun cipher => some (String.ofList (cipher.toList.drop 1)) }

theorem hasSecrets_secretEnv :
  secretEnv.HasSecrets secretCrypt secretEnv.encryptPassword secretEnv.decryptPassword
  := ⟨rfl, rfl, rfl⟩

theorem decrypt_encrypt_secretEnv (q : String) :
  secretEnv.decryptPassword (secretEnv.encryptPassword q) = some q
  := by
  simp [secretEnv, String.toList_append]

/-- The system after the creation of a user. -/
def secretStart : State := after (newAccount secretEnv sampleInfo false) (plainState [])

/-- The user is recovered from a backup and given a new password, then its IPMI interface is
closed. -/
def secretCalls : List SecretCall :=
  [⟨secretEnv, .recoverPermanentAccountInfo (backupPermanentAccountInfo secretStart ∅)⟩,
    ⟨secretEnv, .setAccountPassword 3 3 "Huawei12#"⟩,
    ⟨secretEnv, .setLoginInterface 3 ["Web"]⟩]

/-- The password of a new user is changed, and then its IPMI interface is closed. -/
theorem run_secretLaw_changed :
  (exec (newAccount secretEnv sampleInfo false) (plainState [])).1 = .ok 3
    ∧ ∀ x ∈ Run.states (secretStep 3)
        ⟨secretStart, "Admin@9000", false⟩ secretCalls,
      ∃ a, x.state.accounts.lookup 3 = some a ∧
        (a.data.ipmiPassword.getD "" ≠ "" → SecretLaw secretEnv x.given a)
  := by
  have hnew : (exec (newAccount secretEnv sampleInfo false) (plainState [])).1 = .ok 3 := by
    rfl
  refine ⟨hnew, ?_⟩
  apply run_secretLaw secretCrypt sha512Crypt_secretCrypt secretCrypt_injective
    secretEnv.encryptPassword secretEnv.decryptPassword decrypt_encrypt_secretEnv secretEnv
    hasSecrets_secretEnv sampleInfo rfl false 3 (plainState []) secretStart (Prod.ext hnew rfl)
  · intro c hc
    simp only [secretCalls, List.mem_cons, List.not_mem_nil, or_false] at hc
    obtain rfl | rfl | rfl := hc <;> exact hasSecrets_secretEnv
  · refine ⟨fun i r a hr hi ha _ => ?_, trivial, trivial, trivial⟩
    rw [lookup_backupPermanentAccountInfo, hi, State.view, ha, Option.map_some,
      Option.some_inj] at hr
    rw [← hr]
    rfl

/-- A call of a run succeeds. -/
def Succeeds (x : Remembered) (c : SecretCall) : Prop :=
  (exec c.prog x.state).1.isOk = true

instance (x : Remembered) (c : SecretCall) : Decidable (Succeeds x c) :=
  inferInstanceAs (Decidable (_ = _))

/-- A new OEM account. -/
def oemInfo : Account.Info := ⟨101, "oem", "Admin@9000", 4, 1, none, true, false⟩

/-- The system after its creation. -/
def oemStart : Remembered :=
  ⟨after (newAccount secretEnv oemInfo false) (plainState []), "Admin@9000", false⟩

/-- It is given a password of twenty-two characters. -/
def oemCall : SecretCall := ⟨secretEnv, .setAccountPassword 101 101 "Admin@9000-Huawei12#-x"⟩

/-- An OEM account with a password of more than twenty characters has two passwords. -/
theorem oem_password_limited :
  ¬ ∀ (crypt : String → String → String) (_ : Sha512Crypt crypt)
    (_ : ∀ salt, Function.Injective fun q => crypt q salt) (encrypt : String → String)
    (decrypt : String → Option String) (_ : ∀ q, decrypt (encrypt q) = some q) (env : Env)
    (_ : env.HasSecrets crypt encrypt decrypt) (info : Account.Info)
    (_ : info.isPwdEncrypted = false) (isIpmiOrSnmp : Bool) (id : ℕ) (s s' : State)
    (_ : exec (newAccount env info isIpmiOrSnmp) s = (.ok id, s')) (calls : List SecretCall)
    (_ : ∀ c ∈ calls, c.env.HasSecrets crypt encrypt decrypt)
    (_ : Run.Along (secretStep id) Succeeds ⟨s', info.password, false⟩ calls),
    ∀ x ∈ Run.states (secretStep id) ⟨s', info.password, false⟩ calls,
      ∃ a, x.state.accounts.lookup id = some a ∧ (a.data.ipmiPassword.getD "" ≠ "" →
        ∀ q, a.testPasswordOperation env q = some true ↔ a.authPassword env q = true)
  := by
  intro h
  have hnew : (exec (newAccount secretEnv oemInfo false) (plainState [])).1 = .ok 101 := by
    rfl
  have hlast := h secretCrypt sha512Crypt_secretCrypt secretCrypt_injective
    secretEnv.encryptPassword secretEnv.decryptPassword decrypt_encrypt_secretEnv secretEnv
    hasSecrets_secretEnv oemInfo rfl false 101 (plainState [])
    (after (newAccount secretEnv oemInfo false) (plainState [])) (Prod.ext hnew rfl)
    [oemCall]
    (fun c hc => by
      rw [List.mem_singleton.mp hc]
      exact hasSecrets_secretEnv)
    ⟨by decide +kernel, trivial⟩ (secretStep 101 oemStart oemCall)
    (List.mem_cons_of_mem _ List.mem_cons_self)
  obtain ⟨a, ha, hlaw⟩ := hlast
  have htwo : ((secretStep 101 oemStart oemCall).state.accounts.lookup 101).map (fun a =>
      (a.data.ipmiPassword.getD "" == "",
        a.testPasswordOperation secretEnv "Admin@9000-Huawei12#",
        a.authPassword secretEnv "Admin@9000-Huawei12#"))
      = some (false, some true, false) := by
    decide +kernel
  rw [ha, Option.map_some, Option.some_inj, Prod.mk.injEq, Prod.mk.injEq] at htwo
  obtain ⟨hne, htest, hhash⟩ := htwo
  have haccepted := (hlaw (by simpa using hne) _).mp htest
  rw [hhash] at haccepted
  cases haccepted

end BmcAccount
