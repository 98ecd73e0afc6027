import BmcAccount.Account.Admin
import BmcAccount.Account.Create

/-!
# The law of the password history

Along every run of password changes and of changes to the number of passwords to keep, the
rows of the history of an account are the hashes of its most recent passwords, numbered
from the most recent one, and none of these passwords is accepted again.

The run carries along the passwords that the account has had, which the code does not
store: an `Entry` has the hashes of a password and what is known of the password itself.
-/

namespace BmcAccount

open Raise

/-! ## Hashes -/

/-- A string that can be the salt of a hash. -/
def IsSalt (salt : String) : Prop :=
  salt.toList.length = 16 ∧ ∀ c ∈ salt.toList, c ∈ Account.saltCharset

/-- What is used of the hash function of the C library: a hash begins with its salt, and a
dollar sign ends the salt. -/
structure Sha512Crypt (crypt : String → String → String) : Prop where
  format : ∀ password salt, IsSalt salt →
    ∃ digest, crypt password ("$6$" ++ salt) = "$6$" ++ salt ++ "$" ++ digest
  terminated : ∀ password salt, IsSalt salt →
    crypt password ("$6$" ++ salt ++ "$") = crypt password ("$6$" ++ salt)

theorem isSalt_randomSalt (bytes : Fin 16 → UInt8) :
  IsSalt (Account.randomSalt bytes)
  := by
  unfold IsSalt Account.randomSalt
  rw [String.toList_ofList]
  refine ⟨List.length_ofFn, ?_⟩
  intro c hc
  obtain ⟨i, rfl⟩ := (List.mem_ofFn' _ _).mp hc
  have hlt : (bytes i).toNat % Account.saltCharset.length < Account.saltCharset.length :=
    Nat.mod_lt _ (by decide)
  simp only
  rw [List.getD_eq_getElem?_getD, List.getElem?_eq_getElem hlt, Option.getD_some]
  exact List.getElem_mem hlt

theorem IsSalt.ne_dollar {salt : String} (h : IsSalt salt) :
  ∀ c ∈ salt.toList, decide (c ≠ '$') = true
  := by
  intro c hc
  rw [decide_eq_true_eq]
  rintro rfl
  exact absurd (h.2 _ hc) (by decide)

/-- A salt that is not terminated does not end in a dollar sign. -/
theorem IsSalt.getLast_ne {salt : String} (h : IsSalt salt) :
  ("$6$" ++ salt).toList.getLast? ≠ some '$'
  := by
  intro hlast
  rw [String.toList_append, List.getLast?_append] at hlast
  have hne : salt.toList ≠ [] := by
    intro hnil
    have := h.1
    rw [hnil] at this
    cases this
  rw [List.getLast?_eq_some_getLast hne, Option.some_or, Option.some_inj] at hlast
  have := h.ne_dollar _ (List.getLast_mem hne)
  rw [hlast] at this
  cases this

theorem getLast_terminated (salt : String) :
  ("$6$" ++ salt ++ "$").toList.getLast? = some '$'
  := by
  rw [String.toList_append, List.getLast?_append]
  rfl

/-- The salt of a hash is found back in it. -/
theorem saltOf_hash {salt : String} (h : IsSalt salt) (digest : String) :
  History.saltOf ("$6$" ++ salt ++ "$" ++ digest) = some ("$6$" ++ salt ++ "$")
  := by
  have htoList : ("$6$" ++ salt ++ "$" ++ digest).toList
      = '$' :: '6' :: '$' :: (salt.toList ++ '$' :: digest.toList) := by
    simp [String.toList_append]
  have hdrop : (salt.toList ++ '$' :: digest.toList).dropWhile (· ≠ '$') = '$' :: digest.toList := by
    rw [List.dropWhile_append_of_pos h.ne_dollar]
    rfl
  have htake : (salt.toList ++ '$' :: digest.toList).takeWhile (· ≠ '$') = salt.toList := by
    rw [List.takeWhile_append_of_pos h.ne_dollar]
    simp
  unfold History.saltOf
  rw [htoList]
  simp only [List.dropWhile_cons, List.takeWhile_cons, decide_false, decide_true, ne_eq,
    not_true_eq_false, Char.reduceEq, not_false_eq_true, if_true, Bool.false_eq_true, if_false]
  simp only [ne_eq] at hdrop htake
  rw [hdrop, htake]
  apply congrArg some
  apply String.toList_injective
  simp [String.toList_append]

/-- A password is recognised in its own hash. -/
theorem Sha512Crypt.checkPasswordSame {crypt : String → String → String} (h : Sha512Crypt crypt)
    {salt : String} (hsalt : IsSalt salt) (password : String) :
  History.checkPasswordSame crypt (some (crypt password ("$6$" ++ salt))) password = true
  := by
  obtain ⟨digest, hdigest⟩ := h.format password salt hsalt
  unfold History.checkPasswordSame
  simp only
  rw [hdigest, saltOf_hash hsalt]
  simp only
  rw [h.terminated password salt hsalt, hdigest, beq_self_eq_true]

/-! ## The passwords of an account -/

/-- What is known of a password: the password, or a hash that was given in its place. -/
inductive Secret where
  | plain (password : String)
  | cipher (hash : String)

/-- The password is the secret one. For a given hash these are the passwords that a login
accepts. -/
def Secret.Is (crypt : String → String → String) (password : String) : Secret → Prop
  | .plain p => password = p
  | .cipher hash => ∃ salt, History.saltOf hash = some salt ∧ crypt password salt = hash

/-- A password that an account has had, and its hashes. -/
structure Entry where
  secret : Secret
  hash : String
  kdf : Option String

/-- The hashes as a row of the history holds them. -/
def Entry.hashes (e : Entry) : String × Option String := (e.hash, e.kdf)

/-- The password is recognised in the hash. -/
def Entry.Sound (crypt : String → String → String) (e : Entry) : Prop :=
  ∀ password, e.secret.Is crypt password →
    History.checkPasswordSame crypt (some e.hash) password = true

/-- The entry of a password that is set by a call. -/
def Entry.set (env : Env) (password : String) : Entry :=
  let hash := Account.cryptPasswordByRandomSalt env env.randomBytes password
  ⟨.plain password, hash, some hash⟩

/-- The entry of the password of a new account. -/
def Entry.initial (env : Env) (info : Account.Info) : Entry :=
  if info.password = "" && !info.oem then ⟨.plain "", "", some ""⟩
  else if info.isPwdEncrypted then
    ⟨.cipher info.password, info.password, if info.oem then some info.password else none⟩
  else Entry.set env info.password

theorem Entry.sound_set {env : Env} (h : Sha512Crypt env.crypt) (password : String) :
  (Entry.set env password).Sound env.crypt
  := by
  rintro p rfl
  exact h.checkPasswordSame (isSalt_randomSalt _) p

theorem Entry.sound_initial {env : Env} (h : Sha512Crypt env.crypt) (info : Account.Info) :
  (Entry.initial env info).Sound env.crypt
  := by
  unfold Entry.initial
  split_ifs
  · rintro p rfl
    rfl
  · rintro p ⟨salt, hsalt, hhash⟩
    simp [History.checkPasswordSame, hsalt, hhash]
  · rintro p ⟨salt, hsalt, hhash⟩
    simp [History.checkPasswordSame, hsalt, hhash]
  · exact Entry.sound_set h info.password

theorem initPassword_eq {env : Env} {info : Account.Info} {r : String × Option String × String}
    (h : Account.initPassword env info = .ok r) :
  (r.1, r.2.1) = (Entry.initial env info).hashes
  := by
  unfold Account.initPassword at h
  unfold Entry.initial
  simp only at h
  split_ifs at h ⊢
  · cases h
    rfl
  · split at h
    · cases h
    · cases h
      rfl
  · split at h
    · cases h
    · cases h
      rfl
  · cases h
    rfl

/-! ## Runs -/

/-- The operations of a run: `set_account_password` by a handler on an account, and
`set_history_password_count`. -/
inductive PasswordOp where
  | change (handler id : ℕ) (password : String)
  | setCount (count : ℕ)

/-- A call of an operation, with what it sees of the rest of the system. -/
structure PasswordCall where
  env : Env
  op : PasswordOp

/-- The program of a call. -/
def PasswordCall.prog (c : PasswordCall) : M Unit :=
  match c.op with
  | .change handler id password => setAccountPassword c.env handler id password
  | .setCount count => setHistoryPasswordCount count

/-- A state, with the passwords that the account under consideration has had, the most recent
one first. -/
structure Traced where
  state : State
  entries : List Entry

/-- The entry that a call adds to the passwords of the account `id`, if it succeeds. -/
def PasswordCall.entry (id : ℕ) (c : PasswordCall) : Option Entry :=
  match c.op with
  | .change _ j password => if j = id then some (Entry.set c.env password) else none
  | .setCount _ => none

/-- The state after a call, and the passwords that the account `id` has had by then. -/
def passwordStep (id : ℕ) (x : Traced) (c : PasswordCall) : Traced where
  state := after c.prog x.state
  entries :=
    match (exec c.prog x.state).1 with
    | .ok _ => (c.entry id).toList ++ x.entries
    | .error _ => x.entries

/-- What the history of an account depends on. -/
structure PasswordView where
  cls : AccountClass
  hasSnmp : Bool
  password : String
  kdfPassword : Option String
  history : List HistoryRow

/-- The view of an account. -/
def Account.passwordView (a : Account) : PasswordView :=
  ⟨a.cls, a.snmp.isSome, a.data.password, a.data.kdfPassword, a.history⟩

/-- An account with this view has a history that follows its passwords: the rows are those
of the last passwords, at most `count` of them. -/
structure PasswordView.Follows (v : PasswordView) (count : ℕ) (entries : List Entry) : Prop where
  cls : v.cls = .localAccount ∨ v.cls = .oemAccount
  snmp : v.hasSnmp = true
  current : ∃ e rest, entries = e :: rest ∧ (v.password, v.kdfPassword) = e.hashes
  numbered : ∃ k, k ≤ count ∧ k ≤ entries.length ∧
    History.Numbered v.history ((entries.take k).map Entry.hashes)

theorem passwordView_updatePrivileges (env : Env) (cfg : Config)
    (given : Option (List PrivilegeType)) (a : Account) :
  (a.updatePrivileges env cfg given).passwordView = a.passwordView
  := by
  unfold Account.updatePrivileges
  simp only
  split <;> rfl

theorem passwordView_updateInactiveUserStartTime (env : Env) (cfg : Config) (a : Account) :
  (a.updateInactiveUserStartTime env cfg).passwordView = a.passwordView
  := by
  unfold Account.updateInactiveUserStartTime
  split
  · split_ifs <;> rfl
  · rfl

theorem passwordView_updateDeletable (cfg : Config) (only : Bool) (id : ℕ) (a : Account) :
  (a.updateDeletable cfg only id).passwordView = a.passwordView
  := by
  unfold Account.updateDeletable
  split <;> rfl

theorem passwordView_setWithinMinPasswordDaysStatus (status : Bool) (a : Account) :
  (a.setWithinMinPasswordDaysStatus status).passwordView = a.passwordView
  := by
  unfold Account.setWithinMinPasswordDaysStatus
  split <;> rfl

/-- The view of the account `id`. -/
def State.passwordView (s : State) (id : ℕ) : Option PasswordView :=
  (s.accounts.lookup id).map Account.passwordView

theorem passwordView_mapAccounts {s : State} {f : ℕ → Account → Account} (id : ℕ)
    (h : ∀ id a, (f id a).passwordView = a.passwordView) :
  { s with accounts := s.accounts.map f }.passwordView id = s.passwordView id
  := by
  simp only [State.passwordView, Table.lookup_map, Option.map_map]
  cases s.accounts.lookup id with
  | none => rfl
  | some a => simp [h]

/-- The end of a password change looks at no view. -/
theorem passwordView_updateWithinMinPasswordDaysStatus (env : Env) (s : State) (id : ℕ) :
  (after (updateWithinMinPasswordDaysStatus env) s).passwordView id = s.passwordView id
  := passwordView_mapAccounts id fun _ _ => passwordView_setWithinMinPasswordDaysStatus ..

/-- The history of the account `id` follows its passwords, and the passwords are recognised
in their hashes. -/
structure HistoryInv (crypt : String → String → String) (id : ℕ) (x : Traced) : Prop where
  follows : ∃ v, x.state.passwordView id = some v ∧
    v.Follows x.state.config.historyPasswordCount x.entries
  sound : ∀ e ∈ x.entries, e.Sound crypt

/-! ### One change of a password -/

/-- The view after a password has been stored. -/
def PasswordView.stored (env : Env) (cfg : Config) (password : String) (v : PasswordView) :
    PasswordView :=
  let hash := Account.cryptPasswordByRandomSalt env env.randomBytes password
  { v with
    password := hash
    kdfPassword := some hash
    history := History.insert hash (some hash) cfg.historyPasswordCount v.history }

theorem passwordView_storePassword (env : Env) (cfg : Config) (password ipmiPassword : String)
    (isConfigSelf : Bool) (a : Account) :
  (a.storePassword env cfg password ipmiPassword isConfigSelf).passwordView
    = a.passwordView.stored env cfg password
  := passwordView_updatePrivileges ..

/-- An account that can follow its passwords stores every one it is given. -/
theorem setAccountPassword_view (env : Env) (cfg : Config) (password : String)
    (isConfigSelf : Bool) {a : Account}
    (hcls : a.cls = .localAccount ∨ a.cls = .oemAccount) (hsnmp : a.snmp.isSome = true) :
  ∃ a', a.setAccountPassword env cfg password isConfigSelf = (a', .ok ()) ∧
    a'.passwordView = a.passwordView.stored env cfg password
  := by
  unfold Account.setAccountPassword
  obtain ⟨r, hr⟩ := Option.isSome_iff_exists.mp hsnmp
  obtain hcls | hcls := hcls
  · simp only [hcls, hr]
    refine ⟨_, rfl, ?_⟩
    have hview := passwordView_storePassword env cfg password password isConfigSelf a
    have hsome : (a.storePassword env cfg password password isConfigSelf).snmp.isSome = true := by
      have := congrArg PasswordView.hasSnmp hview
      exact this.trans hsnmp
    rw [← hview]
    simp only [Account.passwordView, Account.setPasswordValidStartTime, hsome, Option.isSome_some]
  · simp only [hcls]
    exact ⟨_, rfl, passwordView_storePassword ..⟩

/-- A view that follows the passwords follows them with the new one. -/
theorem PasswordView.Follows.stored {env : Env} {cfg : Config} {password : String}
    {v : PasswordView} {entries : List Entry}
    (h : v.Follows cfg.historyPasswordCount entries) :
  (v.stored env cfg password).Follows cfg.historyPasswordCount (Entry.set env password :: entries)
  := by
  refine ⟨h.cls, h.snmp, ⟨_, _, rfl, rfl⟩, ?_⟩
  obtain ⟨k, hk, hlen, hnum⟩ := h.numbered
  by_cases hcount : cfg.historyPasswordCount = 0
  · obtain rfl : k = 0 := by omega
    refine ⟨0, by omega, by omega, ?_⟩
    simp only [PasswordView.stored, History.insert, if_pos hcount]
    simpa using hnum
  · refine ⟨min cfg.historyPasswordCount (k + 1), min_le_left _ _, ?_, ?_⟩
    · exact (min_le_right _ _).trans (by simpa using hlen)
    · have hins := hnum.insert (Entry.set env password).hash (Entry.set env password).kdf
        (Nat.pos_of_ne_zero hcount)
      rw [← List.take_take, List.take_succ_cons, List.map_take, List.map_cons]
      exact hins

/-- A refused password changes nothing. -/
theorem exec_setAccountPassword_refused {env : Env} {handler id : ℕ} {password : String}
    {s : State} {a : Account} {e : Err} (ha : s.accounts.lookup id = some a)
    (h : a.passwordValidator env s.config a.data.userName password false (handler = id)
      = .error e) :
  exec (setAccountPassword env handler id password) s = (.error e, s)
  := by
  unfold setAccountPassword
  rw [exec_bind_ok (exec_getAccount ha), exec_bind_ok (exec_get s), h]
  rfl

/-- A change of the password of the account either is refused or stores the password. -/
theorem exec_setAccountPassword_self (env : Env) (handler : ℕ) (password : String) {id : ℕ}
    {s : State} {v : PasswordView} {entries : List Entry} (hv : s.passwordView id = some v)
    (h : v.Follows s.config.historyPasswordCount entries) :
  (∃ e, exec (setAccountPassword env handler id password) s = (.error e, s)) ∨
    ∃ s', exec (setAccountPassword env handler id password) s = (.ok (), s') ∧
      s'.config = s.config ∧ s'.passwordView id = some (v.stored env s.config password)
  := by
  obtain ⟨a, ha, rfl⟩ := Option.map_eq_some_iff.mp hv
  cases hvalid : a.passwordValidator env s.config a.data.userName password false (handler = id) with
  | error e => exact Or.inl ⟨e, exec_setAccountPassword_refused ha hvalid⟩
  | ok u =>
    obtain ⟨a', hset, hview⟩ := setAccountPassword_view env s.config password (handler = id) h.cls
      h.snmp
    refine Or.inr ⟨after (updateWithinMinPasswordDaysStatus env) (s.modifyAccount id fun _ => a'),
      ?_, rfl, ?_⟩
    · unfold setAccountPassword
      rw [exec_bind_ok (exec_getAccount ha), exec_bind_ok (exec_get s), hvalid]
      simp only [hset]
      rfl
    · rw [passwordView_updateWithinMinPasswordDaysStatus, ← hview]
      simp [State.passwordView, State.modifyAccount, ha]

/-- A change of the password of another account keeps the view. -/
theorem setAccountPassword_other (env : Env) (handler : ℕ) (password : String) {id j : ℕ}
    (hj : j ≠ id) (s : State) :
  (after (setAccountPassword env handler j password) s).config = s.config ∧
    (after (setAccountPassword env handler j password) s).passwordView id = s.passwordView id
  := by
  cases ha : s.accounts.lookup j with
  | none =>
    have hexec : exec (setAccountPassword env handler j password) s = (.error .internalError, s) := by
      unfold setAccountPassword getAccount
      rw [exec_bind, exec_bind_ok (exec_get s)]
      simp only [ha]
      rfl
    unfold after
    rw [hexec]
    exact ⟨rfl, rfl⟩
  | some a =>
    cases hvalid : a.passwordValidator env s.config a.data.userName password false
        (handler = j) with
    | error e =>
      unfold after
      rw [exec_setAccountPassword_refused ha hvalid]
      exact ⟨rfl, rfl⟩
    | ok u =>
      have hmodify (a' : Account) :
          (s.modifyAccount j fun _ => a').passwordView id = s.passwordView id := by
        simp only [State.passwordView, State.modifyAccount]
        rw [Table.lookup_modify_ne hj.symm]
      unfold setAccountPassword after
      rw [exec_bind_ok (exec_getAccount ha), exec_bind_ok (exec_get s), hvalid]
      rcases a.setAccountPassword env s.config password (handler = j) with ⟨a', _ | _⟩
      · exact ⟨rfl, hmodify a'⟩
      · refine ⟨rfl, ?_⟩
        refine Eq.trans ?_ (hmodify a')
        exact passwordView_updateWithinMinPasswordDaysStatus env _ id

/-! ### One change of the number of passwords -/

/-- The view after the number of passwords to keep has become `count`. -/
def PasswordView.counted (count : ℕ) (v : PasswordView) : PasswordView :=
  { v with history := History.update v.password v.kdfPassword count v.history }

theorem PasswordView.Follows.counted {n count : ℕ} {v : PasswordView} {entries : List Entry}
    (h : v.Follows n entries) :
  (v.counted count).Follows count entries
  := by
  refine ⟨h.cls, h.snmp, h.current, ?_⟩
  obtain ⟨e, rest, rfl, hcur⟩ := h.current
  obtain ⟨k, -, hlen, hnum⟩ := h.numbered
  have hupd := hnum.update v.password v.kdfPassword count
  by_cases hk : k = 0
  · subst hk
    refine ⟨min count 1, min_le_left _ _, (min_le_right _ _).trans (by simp), ?_⟩
    rw [← List.take_take, List.map_take]
    simp only [List.take_zero, List.map_nil, true_and, hcur] at hupd
    by_cases hcount : 0 < count
    · rw [if_pos hcount] at hupd
      exact hupd
    · rw [if_neg hcount] at hupd
      obtain rfl : count = 0 := by omega
      exact hupd
  · refine ⟨min count k, min_le_left _ _, (min_le_right _ _).trans hlen, ?_⟩
    rw [← List.take_take, List.map_take]
    rw [if_neg] at hupd
    · exact hupd
    · rintro ⟨hnil, -⟩
      obtain ⟨k, rfl⟩ := Nat.exists_eq_succ_of_ne_zero hk
      simp at hnil

/-- A change of the number of passwords either is refused or changes every view. -/
theorem exec_setHistoryPasswordCount (count : ℕ) (s : State) :
  (∃ e, exec (setHistoryPasswordCount count) s = (.error e, s)) ∨
    ∃ s', exec (setHistoryPasswordCount count) s = (.ok (), s') ∧
      s'.config.historyPasswordCount = count ∧
      ∀ id, s'.passwordView id = (s.passwordView id).map (PasswordView.counted count)
  := by
  unfold setHistoryPasswordCount
  rw [exec_bind_ok (exec_get s)]
  by_cases hmax : s.config.maxHistoryPasswordCount < count
  · left
    refine ⟨.propertyValueOutOfRange, ?_⟩
    rw [decide_eq_true hmax, exec_bind_error (exec_refuse_true _ s)]
  · right
    rw [decide_eq_false hmax, exec_bind_ok (exec_refuse_false _ s)]
    refine ⟨_, rfl, rfl, fun id => ?_⟩
    simp only [State.passwordView, Table.lookup_map, Option.map_map]
    rfl

/-! ### The law -/

theorem passwordStep_error {id : ℕ} {x : Traced} {c : PasswordCall} {e : Err}
    (h : exec c.prog x.state = (.error e, x.state)) :
  passwordStep id x c = x
  := by
  unfold passwordStep after
  rw [h]

theorem passwordStep_ok {id : ℕ} {x : Traced} {c : PasswordCall} {s : State}
    (h : exec c.prog x.state = (.ok (), s)) :
  passwordStep id x c = ⟨s, (c.entry id).toList ++ x.entries⟩
  := by
  unfold passwordStep after
  rw [h]

/-- A call that is about no password of the account adds none. -/
theorem passwordStep_of_entry_none {id : ℕ} {x : Traced} {c : PasswordCall}
    (h : c.entry id = none) :
  passwordStep id x c = ⟨after c.prog x.state, x.entries⟩
  := by
  unfold passwordStep
  rw [h]
  cases (exec c.prog x.state).1 <;> rfl

/-- Every call keeps the history of the account following its passwords. -/
theorem passwordStep_historyInv {crypt : String → String → String} (hcrypt : Sha512Crypt crypt)
    {id : ℕ} {x : Traced} {c : PasswordCall} (h : HistoryInv crypt id x)
    (hc : c.env.crypt = crypt) :
  HistoryInv crypt id (passwordStep id x c)
  := by
  obtain ⟨v, hv, hfollows⟩ := h.follows
  obtain ⟨env, op⟩ := c
  cases op with
  | change handler j password =>
    by_cases hj : j = id
    · subst hj
      obtain ⟨e, hexec⟩ | ⟨s', hexec, hcfg, hview⟩ :=
        exec_setAccountPassword_self env handler password hv hfollows
      · rw [passwordStep_error (c := ⟨env, .change handler j password⟩) hexec]
        exact h
      · have hentry : PasswordCall.entry j ⟨env, .change handler j password⟩
            = some (Entry.set env password) := if_pos rfl
        rw [passwordStep_ok (c := ⟨env, .change handler j password⟩) hexec, hentry]
        refine ⟨⟨_, hview, ?_⟩, ?_⟩
        · rw [hcfg]
          exact hfollows.stored
        · intro e he
          obtain rfl | he := List.mem_cons.mp he
          · rw [← hc] at hcrypt ⊢
            exact Entry.sound_set hcrypt password
          · exact h.sound e he
    · obtain ⟨hcfg, hview⟩ := setAccountPassword_other env handler password hj x.state
      have hentry : PasswordCall.entry id ⟨env, .change handler j password⟩ = none := if_neg hj
      rw [passwordStep_of_entry_none hentry]
      refine ⟨⟨v, hview.trans hv, ?_⟩, h.sound⟩
      have hcount := congrArg Config.historyPasswordCount hcfg
      change v.Follows (after (setAccountPassword env handler j password)
        x.state).config.historyPasswordCount x.entries
      rw [hcount]
      exact hfollows
  | setCount count =>
    obtain ⟨e, hexec⟩ | ⟨s', hexec, hcount, hview⟩ := exec_setHistoryPasswordCount count x.state
    · rw [passwordStep_error (c := ⟨env, .setCount count⟩) hexec]
      exact h
    · rw [passwordStep_ok (c := ⟨env, .setCount count⟩) hexec]
      refine ⟨⟨v.counted count, ?_, ?_⟩, h.sound⟩
      · rw [hview id, hv]
        rfl
      · rw [hcount]
        exact hfollows.counted

/-- The account that a creation enters has the password it was given. -/
theorem entered_follows {env : Env} {info : Account.Info} {a : Account} (cfg : Config)
    (h : Account.init env info = .ok a) :
  (a.entered env cfg).passwordView.Follows cfg.historyPasswordCount [Entry.initial env info]
  := by
  unfold Account.init at h
  cases hpw : Account.initPassword env info with
  | error e =>
    rw [hpw] at h
    cases h
  | ok r =>
    obtain ⟨password, kdfPassword, ipmiPassword⟩ := r
    have hhashes := initPassword_eq hpw
    simp only [hpw] at h
    split at h
    · cases h
    cases h
    unfold Account.entered
    rw [passwordView_updatePrivileges]
    refine ⟨?_, rfl, ⟨_, [], rfl, hhashes⟩, ?_⟩
    · cases hoem : info.oem with
      | true => exact Or.inr (if_pos hoem)
      | false => exact Or.inl (if_neg (by simp [hoem]))
    · by_cases hcount : cfg.historyPasswordCount = 0
      · refine ⟨0, Nat.zero_le _, Nat.zero_le _, ?_⟩
        simp only [Account.passwordView, History.insert, if_pos hcount]
        exact List.Perm.refl _
      · have hnil : History.Numbered [] [] := List.Perm.refl _
        have hins := hnil.insert password kdfPassword (Nat.pos_of_ne_zero hcount)
        rw [List.take_of_length_le (by simpa using Nat.one_le_iff_ne_zero.mpr hcount)] at hins
        refine ⟨1, by omega, by simp, ?_⟩
        rw [List.take_of_length_le (by simp), List.map_singleton, ← hhashes]
        exact hins

/-- The view of the account follows the passwords. -/
def State.FollowsAt (id : ℕ) (entries : List Entry) (s : State) : Prop :=
  ∃ v, s.passwordView id = some v ∧ v.Follows s.config.historyPasswordCount entries

theorem FollowsAt.congr {id : ℕ} {entries : List Entry} {s s' : State}
    (h : s.FollowsAt id entries) (hcfg : s'.config = s.config)
    (hview : s'.passwordView id = s.passwordView id) :
  s'.FollowsAt id entries
  := by
  obtain ⟨v, hv, hfollows⟩ := h
  exact ⟨v, hview.trans hv, by rw [hcfg]; exact hfollows⟩

theorem newAccountToDbAndMdb_spec (env : Env) (id : ℕ) (info : Account.Info)
    (isIpmiOrSnmp : Bool) :
  Spec (fun _ => True) (newAccountToDbAndMdb env id info isIpmiOrSnmp)
    (fun _ => State.FollowsAt id [Entry.initial env info]) fun _ => True
  := by
  unfold newAccountToDbAndMdb
  refine Spec.bind (Q := fun _ _ => True) (fun _ _ => trivial) fun s => ?_
  refine Spec.bind (Q := fun _ _ => True) ?_ fun _ => ?_
  · intro s _
    split <;> trivial
  cases ha : Account.init env info with
  | error e => exact Spec.throw fun _ _ => trivial
  | ok a =>
    refine Spec.bind (Q := fun _ => State.FollowsAt id [Entry.initial env info]) ?_ fun _ => ?_
    · apply Spec.modify
      intro s _
      refine ⟨_, ?_, entered_follows s.config ha⟩
      simp [State.passwordView]
    have hkeeps : Keeps (State.FollowsAt id [Entry.initial env info]) (do
        modify (State.newAccountChannels id info.roleId)
        updateAccount id (Account.updateInactiveUserStartTime env)
        updateDeletable
        updateWithinMinPasswordDaysStatus env) := by
      refine Keeps.bind (Keeps.modify ?_) fun _ => Keeps.bind (Keeps.modify ?_) fun _ => ?_
      · intro s hs
        unfold State.newAccountChannels
        split_ifs
        · exact FollowsAt.congr hs rfl rfl
        · exact hs
      · intro s hs
        refine FollowsAt.congr hs rfl ?_
        simp only [State.passwordView, State.modifyAccount, Table.lookup_modify_self,
          Option.map_map, Function.comp_def, passwordView_updateInactiveUserStartTime]
      refine Keeps.bind (Keeps.modify ?_) fun _ => Keeps.modify ?_
      · intro s hs
        refine FollowsAt.congr hs rfl ?_
        exact passwordView_mapAccounts id fun _ _ => passwordView_updateDeletable ..
      · intro s hs
        refine FollowsAt.congr hs rfl ?_
        exact passwordView_updateWithinMinPasswordDaysStatus env s id
    exact hkeeps.weaken (fun _ h => h) (fun _ _ h => h) fun _ _ => trivial

theorem newAccount_spec (env : Env) (info : Account.Info) (isIpmiOrSnmp : Bool) :
  Spec (fun _ => True) (newAccount env info isIpmiOrSnmp)
    (fun id => State.FollowsAt id [Entry.initial env info]) fun _ => True
  := by
  unfold newAccount
  cases env.checkUserName (if info.oem then .oem else .localUser) info.name with
  | none => exact Spec.throw fun _ _ => trivial
  | some allowed =>
    refine Spec.bind Keeps.refuse fun _ => Spec.bind Keeps.refuse fun _ => ?_
    refine Spec.bind Keeps.get fun s => ?_
    cases getValidAccountId s info.id info.oem with
    | error e => exact Spec.throw fun _ _ => trivial
    | ok id =>
      refine Spec.bind Keeps.refuse fun _ => ?_
      refine Spec.bind (newAccountToDbAndMdb_spec env id info isIpmiOrSnmp) fun _ => ?_
      exact Spec.pure fun _ h => h

/-- A new account has the passwords it was given. -/
theorem newAccount_historyInv {env : Env} {info : Account.Info} {isIpmiOrSnmp : Bool} {id : ℕ}
    {s s' : State} (hcrypt : Sha512Crypt env.crypt)
    (h : exec (newAccount env info isIpmiOrSnmp) s = (.ok id, s')) :
  HistoryInv env.crypt id ⟨s', [Entry.initial env info]⟩
  := by
  have hspec := newAccount_spec env info isIpmiOrSnmp s trivial
  rw [h] at hspec
  refine ⟨hspec, ?_⟩
  intro e he
  rw [List.mem_singleton.mp he]
  exact Entry.sound_initial hcrypt info

/-- The rows of the history are numbered `1`, …, `k` with `k` at most the number of passwords
to keep, the row `i` holds the hashes of the `i`-th most recent password, and none of these
passwords is accepted again. -/
structure HistoryLaw (crypt : String → String → String) (id : ℕ) (x : Traced) (a : Account)
    (k : ℕ) : Prop where
  count : k ≤ x.state.config.historyPasswordCount
  numbers : (a.history.map HistoryRow.sequenceNumber).Perm (List.range' 1 k)
  rows : ∀ r ∈ a.history, ∃ i e, r.sequenceNumber = i + 1 ∧ x.entries[i]? = some e ∧
    (r.password, r.kdfPassword) = e.hashes
  refused : ∀ i e password, i < k → x.entries[i]? = some e → e.secret.Is crypt password →
    ∀ env : Env, env.crypt = crypt → ∀ handler,
      ∃ err, exec (setAccountPassword env handler id password) x.state = (.error err, x.state)

theorem passwordValidator_of_check {env : Env} (cfg : Config) (userName : String)
    {password : String} (isConfigSelf : Bool) {a : Account} (hcls : a.cls = .localAccount ∨ a.cls = .oemAccount)
    (h : History.check env.crypt password a.history = false) :
  ∃ e, a.passwordValidator env cfg userName password false isConfigSelf = .error e
  := by
  unfold Account.passwordValidator
  obtain hcls | hcls := hcls
  all_goals
    simp only [hcls, h]
    cases a.checkPasswordRules env cfg userName password with
    | error e => exact ⟨e, rfl⟩
    | ok u => exact ⟨_, rfl⟩

theorem HistoryInv.law {crypt : String → String → String} {id : ℕ} {x : Traced}
    (h : HistoryInv crypt id x) :
  ∃ a k, x.state.accounts.lookup id = some a ∧ HistoryLaw crypt id x a k
  := by
  obtain ⟨v, hv, hcls, -, -, k, hk, hlen, hnum⟩ := h.follows
  obtain ⟨a, ha, rfl⟩ := Option.map_eq_some_iff.mp hv
  refine ⟨a, k, ha, hk, ?_, ?_, ?_⟩
  · have hperm := hnum.map HistoryRow.sequenceNumber
    rw [History.map_sequenceNumber_number, List.length_map, List.length_take,
      min_eq_left hlen] at hperm
    exact hperm
  · intro r hr
    obtain ⟨i, hi⟩ := List.getElem?_of_mem (hnum.mem_iff.mp hr)
    rw [History.getElem?_number, Option.map_eq_some_iff] at hi
    obtain ⟨c, hc, rfl⟩ := hi
    rw [List.getElem?_map, Option.map_eq_some_iff] at hc
    obtain ⟨e, he, rfl⟩ := hc
    refine ⟨i, e, Nat.add_comm 1 i, ?_, rfl⟩
    rw [List.getElem?_take] at he
    split_ifs at he
    exact he
  · rintro i e password hi he his env rfl handler
    have hrow : (⟨1 + i, e.hash, e.kdf⟩ : HistoryRow) ∈ a.history := by
      apply hnum.mem_iff.mpr
      apply List.mem_of_getElem? (i := i)
      rw [History.getElem?_number, List.getElem?_map, List.getElem?_take_of_lt hi, he]
      rfl
    have hcheck := History.check_eq_false hrow
      (h.sound e (List.mem_of_getElem? he) password his)
    obtain ⟨err, herr⟩ := passwordValidator_of_check x.state.config a.data.userName
      (handler = id) hcls hcheck
    exact ⟨err, exec_setAccountPassword_refused ha herr⟩

/-- From the creation of an account on, along every run of password changes of any account
and of changes to the number of passwords to keep, its history obeys the law. -/
theorem run_historyLaw (crypt : String → String → String) (hcrypt : Sha512Crypt crypt)
    (env : Env) (henv : env.crypt = crypt) (info : Account.Info) (isIpmiOrSnmp : Bool) (id : ℕ)
    (s s' : State) (hnew : exec (newAccount env info isIpmiOrSnmp) s = (.ok id, s'))
    (calls : List PasswordCall) (hcalls : ∀ c ∈ calls, c.env.crypt = crypt) :
  ∀ x ∈ Run.states (passwordStep id) ⟨s', [Entry.initial env info]⟩ calls,
    ∃ a k, x.state.accounts.lookup id = some a ∧ HistoryLaw crypt id x a k
  := by
  subst henv
  have halong : Run.Along (passwordStep id) (fun _ c => c.env.crypt = env.crypt)
      ⟨s', [Entry.initial env info]⟩ calls := Run.along_of_forall hcalls
  have hinv := Run.invariant (fun _ _ h hc => passwordStep_historyInv hcrypt h hc)
    (newAccount_historyInv hcrypt hnew) halong
  exact fun x hx => (hinv x hx).law

/-! ### Two passwords -/

/-- The hash function, with the true hashes of two passwords under the salt of sixteen dots. -/
def sampleCrypt (password salt : String) : String :=
  let salt' := if salt.toList.getLast? = some '$' then salt else salt ++ "$"
  salt' ++
    if salt' = "$6$................$" && password = "Admin@9000" then
      "CHStkWe467teWvvXwWWagwbEefVdIWDtlzlqpOYbUxSm2nyueHAXycdwWCZOLM8/FtwS4bpSHuScf1WilGR84/"
    else if salt' = "$6$................$" && password = "Huawei12#" then
      "ATZvCFkfAPIre1H4Eifyi9CRvhKoBfba3Z0CzY.FTvgRij.ZT/X.AdjSOIexrO7mIZyBmf9RTBOVgtAypapFZ."
    else password

theorem sha512Crypt_sampleCrypt :
  Sha512Crypt sampleCrypt
  := by
  constructor
  · intro password salt hsalt
    unfold sampleCrypt
    simp only [if_neg hsalt.getLast_ne]
    exact ⟨_, rfl⟩
  · intro password salt hsalt
    unfold sampleCrypt
    simp only [if_neg hsalt.getLast_ne, if_pos (getLast_terminated salt)]

/-- The plain system with that hash function. -/
def sampleEnv : Env := { plainEnv with crypt := sampleCrypt }

/-- A new user. -/
def sampleInfo : Account.Info := ⟨3, "user", "Admin@9000", 4, 1, none, false, false⟩

/-- The password of a new user is changed, and then only one password is kept. -/
theorem run_historyLaw_changed_once :
  (exec (newAccount sampleEnv sampleInfo false) (plainState [])).1 = .ok 3
    ∧ ∀ x ∈ Run.states (passwordStep 3)
        ⟨after (newAccount sampleEnv sampleInfo false) (plainState []),
          [Entry.initial sampleEnv sampleInfo]⟩
        [⟨sampleEnv, .change 3 3 "Huawei12#"⟩, ⟨sampleEnv, .setCount 1⟩],
      ∃ a k, x.state.accounts.lookup 3 = some a ∧ HistoryLaw sampleCrypt 3 x a k
  := by
  have hnew : (exec (newAccount sampleEnv sampleInfo false) (plainState [])).1 = .ok 3 := by
    rfl
  refine ⟨hnew, ?_⟩
  apply run_historyLaw sampleCrypt sha512Crypt_sampleCrypt sampleEnv rfl sampleInfo false 3
    (plainState []) _ (Prod.ext hnew rfl)
  intro c hc
  simp only [List.mem_cons, List.not_mem_nil, or_false] at hc
  obtain rfl | rfl := hc <;> rfl

end BmcAccount
