import BmcAccount.Account.Admin
import BmcAccount.Account.View

/-!
# The permanent backup of the local accounts

The service keeps a copy of five fields of every local account in a table that survives the
loss of the account table. At start it is written when there is an enabled administrator, and
read back when there is none. An account that is still there is given its fields in place; an
account that is gone is created anew by the constructor of accounts, which always makes an
enabled account and checks the form of the password.
-/

namespace BmcAccount

open Raise

/-! ## The table -/

/-- A row of the permanent backup. -/
structure PermanentRow where
  userName : String
  password : String
  roleId : ℕ
  enabled : Bool
  loginInterface : ℕ
deriving DecidableEq

/-- The identifiers that are backed up. -/
abbrev LocalId : Type := { id : ℕ // minUserNum ≤ id ∧ id ≤ maxUserNum }

/-- The rows of the permanent backup. -/
abbrev PermanentTable : Type := Table LocalId PermanentRow

/-- The row of an account. -/
def Account.permanentRow (a : Account) : PermanentRow where
  userName := a.data.userName
  password := a.data.password
  roleId := a.data.roleId
  enabled := a.data.enabled
  loginInterface := a.data.loginInterface

/-- `new_permanent_account`. -/
def newPermanentAccount (id : LocalId) (a : Account) (rows : PermanentTable) : PermanentTable :=
  rows.insert id a.permanentRow

/-- `flush_permantent_account` of all fields. -/
def flushPermanentAccount (id : LocalId) (a : Account) (rows : PermanentTable) : PermanentTable :=
  rows.modify id fun _ => a.permanentRow

/-- The row of an account is written if it is a local one. -/
def savePermanentAccount (id : ℕ) (a : Account) (rows : PermanentTable) : PermanentTable :=
  if h : minUserNum ≤ id ∧ id ≤ maxUserNum then
    if (rows.lookup ⟨id, h⟩).isNone then newPermanentAccount ⟨id, h⟩ a rows
    else flushPermanentAccount ⟨id, h⟩ a rows
  else rows

/-- `backup_permanent_account_info`: the old rows are removed first. -/
def backupPermanentAccountInfo (s : State) (rows : PermanentTable) : PermanentTable :=
  s.accounts.entries.foldl (fun t e => savePermanentAccount e.1 e.2 t)
    (rows.keys.foldl (fun t id => t.erase id) rows)

/-! ## Recovery -/

/-- The account with the fields of a row. -/
def PermanentRow.cover (r : PermanentRow) (a : Account) : Account :=
  { a with data := { a.data with
    userName := r.userName
    password := r.password
    roleId := r.roleId
    enabled := r.enabled
    loginInterface := r.loginInterface } }

/-- What the constructor is given for an account that is gone. -/
def PermanentRow.info (id : ℕ) (r : PermanentRow) : Account.Info where
  id := id
  name := r.userName
  password := r.password
  roleId := r.roleId
  interface := r.loginInterface
  firstLoginPolicy := some .forcePasswordReset
  oem := false
  isPwdEncrypted := true

/-- `recover_new_permanent_account`; the password is not validated. -/
def recoverNewPermanentAccount (env : Env) (id : ℕ) (r : PermanentRow) : M Unit :=
  newAccountToDbAndMdb env id (r.info id) true

/-- The recovery of one row. -/
def recoverPermanentRow (env : Env) (id : ℕ) (r : PermanentRow) : M Unit := do
  let s ← get
  if (s.accounts.lookup id).isSome then
    updateAccount id fun cfg a => (r.cover a).updatePrivileges env cfg none
  else recoverNewPermanentAccount env id r

/-- `recover_permanent_account_info`. -/
def recoverPermanentAccountInfo (env : Env) (rows : PermanentTable) : M Unit :=
  rows.entries.forM fun e => recoverPermanentRow env e.1 e.2

/-! ## What the backup holds -/

theorem lookup_savePermanentAccount (id : ℕ) (a : Account) (rows : PermanentTable) (j : LocalId) :
  (savePermanentAccount id a rows).lookup j
    = if j.1 = id then some a.permanentRow else rows.lookup j
  := by
  unfold savePermanentAccount
  by_cases hj : j.1 = id
  · subst hj
    rw [dif_pos j.2, if_pos rfl]
    split_ifs with hnone
    · exact AList.lookup_insert rows
    · rw [Option.isNone_iff_eq_none] at hnone
      obtain ⟨r, hr⟩ := Option.ne_none_iff_exists'.mp hnone
      simp only [flushPermanentAccount, Table.lookup_modify_self]
      exact congrArg _ hr
  · rw [if_neg hj]
    have hne : ∀ h, j ≠ (⟨id, h⟩ : LocalId) := fun h heq => hj (congrArg Subtype.val heq)
    split_ifs with h hnone
    · exact AList.lookup_insert_ne (hne h)
    · exact Table.lookup_modify_ne (hne h) _ _
    · rfl

theorem lookup_eraseAll (ids : List LocalId) (rows : PermanentTable) (j : LocalId) :
  (ids.foldl (fun t id => t.erase id) rows).lookup j = if j ∈ ids then none else rows.lookup j
  := by
  induction ids generalizing rows with
  | nil => simp
  | cons id ids ih =>
    rw [List.foldl_cons, ih]
    by_cases hj : j = id
    · subst hj
      simp [AList.lookup_erase]
    · simp [hj, AList.lookup_erase_ne hj]

theorem lookup_saveAll (l : List (Sigma fun _ : ℕ => Account)) (hl : l.NodupKeys)
    (rows : PermanentTable) (j : LocalId) :
  (l.foldl (fun t e => savePermanentAccount e.1 e.2 t) rows).lookup j
    = ((l.dlookup j.1).map Account.permanentRow).or (rows.lookup j)
  := by
  induction l generalizing rows with
  | nil => rfl
  | cons e l ih =>
    obtain ⟨id, a⟩ := e
    obtain ⟨hid, hl⟩ := List.nodupKeys_cons.mp hl
    rw [List.foldl_cons, ih hl, lookup_savePermanentAccount]
    by_cases hj : j.1 = id
    · subst hj
      simp [List.dlookup_eq_none.mpr hid]
    · simp [hj, List.dlookup_cons_ne]

/-- The backup holds the local accounts and nothing else. -/
theorem lookup_backupPermanentAccountInfo (s : State) (rows : PermanentTable) (id : LocalId) :
  (backupPermanentAccountInfo s rows).lookup id = s.view Account.permanentRow id
  := by
  unfold backupPermanentAccountInfo
  rw [lookup_saveAll _ s.accounts.nodupKeys, lookup_eraseAll]
  have hnone : (if id ∈ rows.keys then none else rows.lookup id) = none := by
    split_ifs with h
    · rfl
    · exact AList.lookup_eq_none.mpr fun hmem => h (AList.mem_keys.mp hmem)
  rw [hnone, Option.or_none]
  rfl

/-! ## The recovery of a row -/

theorem showsStored_permanentRow :
  ShowsStored Account.permanentRow
  where
  history _ _ := rfl
  inTable _ _ := rfl
  updatePrivileges env cfg given a := by
    unfold Account.updatePrivileges
    cases a.cls <;> rfl
  updateInactiveUserStartTime env cfg a := by
    unfold Account.updateInactiveUserStartTime
    cases a.cls <;> (dsimp only; try split_ifs) <;> rfl
  updateDeletable cfg only id a := by
    unfold Account.updateDeletable
    cases a.cls <;> rfl
  setWithinMinPasswordDaysStatus status a := by
    unfold Account.setWithinMinPasswordDaysStatus
    cases a.cls <;> rfl

/-- The constructor accepts the password of a row: it is empty or has the form of a hash, and
the SNMP key can be made of it. -/
def PermanentRow.Recreatable (env : Env) (r : PermanentRow) : Prop :=
  (r.password = "" ∨ (History.saltOf r.password).isSome)
    ∧ (env.generateKu .sha256 r.password).isSome

/-- The row of the account that the constructor makes. -/
def PermanentRow.recreated (r : PermanentRow) : PermanentRow :=
  { r with enabled := true }

theorem initPassword_permanent {env : Env} {r : PermanentRow}
    (h : r.password = "" ∨ (History.saltOf r.password).isSome) (id : ℕ) :
  ∃ kdf ipmi, Account.initPassword env (r.info id) = .ok (r.password, kdf, ipmi)
  := by
  by_cases hempty : r.password = ""
  · use some "", ""
    simp [Account.initPassword, PermanentRow.info, hempty]
  · obtain ⟨salt, hsalt⟩ := Option.isSome_iff_exists.mp (h.resolve_left hempty)
    use none, ""
    simp [Account.initPassword, PermanentRow.info, hempty, hsalt]

theorem init_permanent {env : Env} {r : PermanentRow} (h : r.Recreatable env) (id : ℕ) :
  ∃ a, Account.init env (r.info id) = .ok a ∧ a.permanentRow = r.recreated
  := by
  obtain ⟨hpwd, hku⟩ := h
  obtain ⟨kdf, ipmi, hinit⟩ := @initPassword_permanent env r hpwd id
  obtain ⟨ku, hku⟩ := Option.isSome_iff_exists.mp hku
  use Account.initial env (r.info id) r.password kdf ipmi ku
  constructor
  · have hku' : env.generateKu .sha256 (r.info id).password = some ku := hku
    simp [Account.init, hinit, hku']
  · rfl

theorem init_permanent_error {env : Env} {r : PermanentRow} (h : ¬ r.Recreatable env) (id : ℕ) :
  ∃ e, Account.init env (r.info id) = .error e
  := by
  by_cases hpwd : r.password = "" ∨ (History.saltOf r.password).isSome
  · obtain ⟨kdf, ipmi, hinit⟩ := @initPassword_permanent env r hpwd id
    have hku : env.generateKu .sha256 (r.info id).password = none :=
      Option.not_isSome_iff_eq_none.mp fun hku => h ⟨hpwd, hku⟩
    use .authAlgoNotSupport
    simp [Account.init, hinit, hku]
  · push Not at hpwd
    use .internalError
    have hsalt : History.saltOf r.password = none := by simpa using hpwd.2
    simp [Account.init, Account.initPassword, PermanentRow.info, hpwd.1, hsalt]

section Recovery

variable (env : Env) (id : ℕ) (r : PermanentRow) (s : State)

/-- The recovery of a row gives an account that is there the fields of the row. -/
theorem exec_recoverPermanentRow_present (h : s.accounts.lookup id ≠ none) :
  ∃ s', exec (recoverPermanentRow env id r) s = (.ok (), s')
    ∧ s'.view Account.permanentRow
      = Function.update (s.view Account.permanentRow) id (some r)
  := by
  obtain ⟨a, ha⟩ := Option.ne_none_iff_exists'.mp h
  refine ⟨s.modifyAccount id fun a => (r.cover a).updatePrivileges env s.config none, ?_, ?_⟩
  · unfold recoverPermanentRow
    rw [exec_bind_ok (exec_get s)]
    simp only [ha, Option.isSome_some, if_true]
    rfl
  · rw [State.view_modifyAccount, ha]
    congr 1
    exact congrArg some (showsStored_permanentRow.updatePrivileges ..)

/-- An account that is gone and that the constructor accepts is created, always enabled. -/
theorem exec_recoverPermanentRow_absent (h : s.accounts.lookup id = none)
    (hr : r.Recreatable env) :
  ∃ s', exec (recoverPermanentRow env id r) s = (.ok (), s')
    ∧ s'.view Account.permanentRow
      = Function.update (s.view Account.permanentRow) id (some r.recreated)
  := by
  obtain ⟨a, ha, hrow⟩ := init_permanent hr id
  obtain ⟨_, s', hexec, hview⟩ := Spec.returns
    (@newAccountToDbAndMdb_view _ _ _ _ showsStored_permanentRow _ id _ _ ha) (s := s) rfl
  refine ⟨s', ?_, ?_⟩
  · unfold recoverPermanentRow
    rw [exec_bind_ok (exec_get s)]
    simp only [h, Option.isSome_none, Bool.false_eq_true, if_false]
    exact hexec
  · rw [← hrow]
    exact hview

/-- An account that is gone and that the constructor does not accept ends the recovery. -/
theorem exec_recoverPermanentRow_error (h : s.accounts.lookup id = none)
    (hr : ¬ r.Recreatable env) :
  ∃ e, exec (recoverPermanentRow env id r) s = (.error e, s)
  := by
  obtain ⟨e, he⟩ := init_permanent_error hr id
  use e
  unfold recoverPermanentRow
  rw [exec_bind_ok (exec_get s)]
  simp only [h, Option.isSome_none, Bool.false_eq_true, if_false]
  unfold recoverNewPermanentAccount newAccountToDbAndMdb
  simp only [exec_bind_ok (exec_get s), Bool.not_true, he]
  rw [exec_bind_ok (exec_onlyIf_false _ s)]
  rfl

theorem recoverPermanentRow_frame {j : ℕ} (hj : j ≠ id) :
  (after (recoverPermanentRow env id r) s).view Account.permanentRow j
    = s.view Account.permanentRow j
  := by
  unfold after
  by_cases h : s.accounts.lookup id = none
  · by_cases hr : r.Recreatable env
    · obtain ⟨s', hexec, hview⟩ := exec_recoverPermanentRow_absent env id r s h hr
      rw [hexec, hview, Function.update_of_ne hj]
    · obtain ⟨e, he⟩ := exec_recoverPermanentRow_error env id r s h hr
      rw [he]
  · obtain ⟨s', hexec, hview⟩ := exec_recoverPermanentRow_present env id r s h
    rw [hexec, hview, Function.update_of_ne hj]

end Recovery

/-! ## The recovery of all rows -/

/-- The rows of `l` that name an account that is gone are of enabled accounts that the
constructor accepts. -/
def AbsentRestorable (env : Env) (l : List (Sigma fun _ : LocalId => PermanentRow)) (s : State) :
    Prop :=
  ∀ e ∈ l, s.accounts.lookup e.1.1 = none → e.2.enabled = true ∧ e.2.Recreatable env

/-- Every row of `l` is found in the collection. -/
def Restored (l : List (Sigma fun _ : LocalId => PermanentRow)) (s : State) : Prop :=
  ∀ e ∈ l, s.view Account.permanentRow e.1 = some e.2

theorem recreated_eq_iff (r : PermanentRow) :
  r.recreated = r ↔ r.enabled = true
  := by
  obtain ⟨_, _, _, _ | _, _⟩ := r <;> simp [PermanentRow.recreated]

theorem forM_recoverPermanentRow_frame (env : Env)
    (l : List (Sigma fun _ : LocalId => PermanentRow)) (s : State) {id : LocalId}
    (h : id ∉ l.keys) :
  (after (l.forM fun e => recoverPermanentRow env e.1 e.2) s).view Account.permanentRow id
    = s.view Account.permanentRow id
  := by
  induction l generalizing s with
  | nil => rfl
  | cons e l ih =>
    obtain ⟨hne, hl⟩ : id ≠ e.1 ∧ id ∉ l.keys := by simpa using h
    have hval : id.1 ≠ e.1.1 := fun heq => hne (Subtype.ext heq)
    have hstep := recoverPermanentRow_frame env e.1 e.2 s hval
    unfold after at hstep ih ⊢
    rw [exec_forM_cons, exec_bind]
    rcases hx : exec (recoverPermanentRow env e.1 e.2) s with ⟨err | _, s'⟩
    · simpa only [hx] using hstep
    · simp only [hx] at hstep
      exact (ih s' hl).trans hstep

/-- Recovering a row does not decide which of the other accounts are gone. -/
theorem absentRestorable_congr {env : Env} {l : List (Sigma fun _ : LocalId => PermanentRow)}
    {s s' : State} {id : LocalId} {r : Option PermanentRow} (hid : id ∉ l.keys)
    (hview : s'.view Account.permanentRow
      = Function.update (s.view Account.permanentRow) id.1 r) :
  AbsentRestorable env l s' ↔ AbsentRestorable env l s
  := by
  have hlookup : ∀ e ∈ l, (s'.accounts.lookup e.1.1 = none ↔ s.accounts.lookup e.1.1 = none) := by
    intro e he
    have hne : e.1.1 ≠ id.1 := by
      intro heq
      apply hid
      rw [← Subtype.ext heq]
      exact List.mem_keys_of_mem he
    rw [← State.view_eq_none_iff (v := Account.permanentRow), hview, Function.update_of_ne hne,
      State.view_eq_none_iff]
  constructor <;> intro h e he hnone
  · exact h e he ((hlookup e he).mpr hnone)
  · exact h e he ((hlookup e he).mp hnone)

/-- The rows that follow one whose recovery returns and leaves the account with the row `r'`. -/
theorem restored_cons_iff {env : Env} {l : List (Sigma fun _ : LocalId => PermanentRow)}
    {s s' : State} {id : LocalId} {r r' : PermanentRow} (hid : id ∉ l.keys)
    (ih : Restored l (after (l.forM fun e => recoverPermanentRow env e.1 e.2) s')
      ↔ AbsentRestorable env l s')
    (hexec : exec (recoverPermanentRow env id r) s = (.ok (), s'))
    (hview : s'.view Account.permanentRow
      = Function.update (s.view Account.permanentRow) id.1 (some r')) :
  Restored (⟨id, r⟩ :: l)
      (after ((⟨id, r⟩ :: l).forM fun e => recoverPermanentRow env e.1 e.2) s)
    ↔ r' = r ∧ AbsentRestorable env l s
  := by
  have hafter : after ((⟨id, r⟩ :: l).forM fun e => recoverPermanentRow env e.1 e.2) s
      = after (l.forM fun e => recoverPermanentRow env e.1 e.2) s' := by
    unfold after
    rw [exec_forM_cons, exec_bind_ok hexec]
  rw [hafter, ← absentRestorable_congr hid hview, ← ih]
  unfold Restored
  rw [List.forall_mem_cons, forM_recoverPermanentRow_frame env l s' hid, hview,
    Function.update_self, Option.some_inj]

theorem forM_recoverPermanentRow_restored_iff (env : Env)
    (l : List (Sigma fun _ : LocalId => PermanentRow)) (hl : l.NodupKeys) (s : State) :
  Restored l (after (l.forM fun e => recoverPermanentRow env e.1 e.2) s)
    ↔ AbsentRestorable env l s
  := by
  induction l generalizing s with
  | nil => simp [Restored, AbsentRestorable]
  | cons e l ih =>
    obtain ⟨id, r⟩ := e
    obtain ⟨hid, hl⟩ := List.nodupKeys_cons.mp hl
    have hcond : AbsentRestorable env (⟨id, r⟩ :: l) s
        ↔ (s.accounts.lookup id.1 = none → r.enabled = true ∧ r.Recreatable env)
          ∧ AbsentRestorable env l s := List.forall_mem_cons
    rw [hcond]
    by_cases h : s.accounts.lookup id.1 = none
    · by_cases hr : r.Recreatable env
      · obtain ⟨s', hexec, hview⟩ := exec_recoverPermanentRow_absent env id r s h hr
        rw [restored_cons_iff hid (ih hl s') hexec hview, recreated_eq_iff]
        simp [h, hr]
      · obtain ⟨err, herr⟩ := exec_recoverPermanentRow_error env id r s h hr
        have hafter : after ((⟨id, r⟩ :: l).forM fun e => recoverPermanentRow env e.1 e.2) s
            = s := by
          unfold after
          rw [exec_forM_cons, exec_bind_error herr]
        rw [hafter]
        apply iff_of_false
        · intro hres
          have hrow := hres ⟨id, r⟩ List.mem_cons_self
          rw [State.view_eq_none_iff.mpr h] at hrow
          cases hrow
        · intro hall
          exact hr (hall.1 h).2
    · obtain ⟨s', hexec, hview⟩ := exec_recoverPermanentRow_present env id r s h
      rw [restored_cons_iff hid (ih hl s') hexec hview]
      simp [h]

/-- The backup of `s₀` is restored in `s`: every local account of `s₀` is there with the name,
password, role, state and login interfaces it had in `s₀`. -/
def BackupRestored (env : Env) (s₀ : State) (rows : PermanentTable) (s : State) : Prop :=
  ∀ id : LocalId, ∀ a, s₀.accounts.lookup id.1 = some a →
    (after (recoverPermanentAccountInfo env (backupPermanentAccountInfo s₀ rows)) s).view
      Account.permanentRow id = some a.permanentRow

/-- The backup is restored exactly when the accounts that are gone were enabled when they were
backed up and have a password that the constructor accepts. -/
theorem backupRestored_iff (env : Env) (s₀ : State) (rows : PermanentTable) (s : State) :
  BackupRestored env s₀ rows s ↔
    ∀ id : LocalId, ∀ a, s₀.accounts.lookup id.1 = some a → s.accounts.lookup id.1 = none →
      a.data.enabled = true ∧ a.permanentRow.Recreatable env
  := by
  have hrows : ∀ e : Sigma fun _ : LocalId => PermanentRow,
      e ∈ (backupPermanentAccountInfo s₀ rows).entries
        ↔ ∃ a, s₀.accounts.lookup e.1.1 = some a ∧ a.permanentRow = e.2 := by
    rintro ⟨id, r⟩
    rw [Table.mem_entries_iff, lookup_backupPermanentAccountInfo]
    exact Option.map_eq_some_iff
  have hiff := forM_recoverPermanentRow_restored_iff env
    (backupPermanentAccountInfo s₀ rows).entries (backupPermanentAccountInfo s₀ rows).nodupKeys s
  constructor
  · intro h id a ha hnone
    exact hiff.mp (fun e he => by
      obtain ⟨a, ha, hrow⟩ := (hrows e).mp he
      rw [← hrow]
      exact h e.1 a ha) ⟨id, a.permanentRow⟩ ((hrows _).mpr ⟨a, ha, rfl⟩) hnone
  · intro h id a ha
    apply hiff.mpr _ ⟨id, a.permanentRow⟩ ((hrows _).mpr ⟨a, ha, rfl⟩)
    intro e he hnone
    obtain ⟨a, ha, hrow⟩ := (hrows e).mp he
    rw [← hrow]
    exact h e.1 a ha hnone

/-! ### A disabled account that was deleted -/

/-- An enabled administrator and a disabled operator. -/
def beforeLoss : State :=
  plainState [(2, plainAccount "Administrator" 4 223),
    (3, { plainAccount "user" 3 223 with
      data := { (plainAccount "user" 3 223).data with enabled := false } })]

/-- The operator has been deleted and the administrator demoted. -/
def afterLoss : State :=
  plainState [(2, plainAccount "Administrator" 2 223)]

theorem disabled_account_restored_enabled :
  ¬ ∀ (env : Env) (s₀ : State) (rows : PermanentTable) (s : State),
    s.enabledAdminNumber = 0 → BackupRestored env s₀ rows s
  := by
  intro h
  have hrow := h plainEnv beforeLoss ∅ afterLoss (by decide +kernel) ⟨3, by decide⟩ _ rfl
  revert hrow
  decide +kernel

end BmcAccount
