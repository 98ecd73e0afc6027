import BmcAccount.Account.Admin
import BmcAccount.Account.Recover

/-!
# What a recovery leaves of the administrators

A recovery compares the roles of the accounts involved, while the record also brings the
enabled flag and the login interfaces. `Account.core` is what the guards of a recovery and
the administrators depend on; each step of a recovery is described by the cores before and
after it, so that the outcome of the whole is read off the core it started from.
-/

namespace BmcAccount

open Raise

/-! ## Cores -/

/-- The standing of an account, and whether it has an SNMP row. -/
structure Core where
  standing : Standing
  hasSnmp : Bool

/-- The core of an account. -/
def Account.core (a : Account) : Core := ⟨a.standing, a.snmp.isSome⟩

namespace State

/-- The core of each account of the state. -/
def core (s : State) (id : ℕ) : Option Core := (s.accounts.lookup id).map Account.core

/-- The account `id` is an operable administrator. -/
def OperateAdminAt (s : State) (id : ℕ) : Prop :=
  ∃ a, s.accounts.lookup id = some a ∧ a.isOperateAdmin = true

/-- The account `id` is the last operable administrator. -/
def IsLastOperateAdmin (s : State) (id : ℕ) : Prop :=
  s.OperateAdminAt id ∧ ¬ s.OtherOperateAdmin id

theorem hasOperateAdmin_iff_exists (s : State) :
  s.HasOperateAdmin ↔ ∃ id, s.OperateAdminAt id
  := Iff.rfl

theorem operateAdminAt_congr {s s' : State} {id : ℕ} (h : s'.core id = s.core id) :
  s'.OperateAdminAt id ↔ s.OperateAdminAt id
  := by
  unfold core at h
  have key : ∀ t t' : State, (t.accounts.lookup id).map Account.core
      = (t'.accounts.lookup id).map Account.core → t.OperateAdminAt id → t'.OperateAdminAt id := by
    rintro t t' h ⟨a, ha, hop⟩
    rw [ha, Option.map_some, eq_comm, Option.map_eq_some_iff] at h
    obtain ⟨b, hb, hcore⟩ := h
    refine ⟨b, hb, ?_⟩
    rw [Account.isOperateAdmin_congr (congrArg Core.standing hcore)]
    exact hop
  exact ⟨key s' s h, key s s' h.symm⟩

theorem otherOperateAdmin_iff (s : State) (id : ℕ) :
  s.OtherOperateAdmin id ↔ ∃ j, j ≠ id ∧ s.OperateAdminAt j
  := by
  constructor
  · rintro ⟨j, a, ha, hj, hop⟩
    exact ⟨j, hj, a, ha, hop⟩
  · rintro ⟨j, hj, a, ha, hop⟩
    exact ⟨j, a, ha, hj, hop⟩

theorem isLastOperateAdmin_congr {s s' : State} (h : s'.core = s.core) (id : ℕ) :
  s'.IsLastOperateAdmin id ↔ s.IsLastOperateAdmin id
  := by
  unfold IsLastOperateAdmin
  simp only [otherOperateAdmin_iff, operateAdminAt_congr (congrFun h _)]

theorem core_modifyAccount (s : State) (id : ℕ) (f : Account → Account) :
  (s.modifyAccount id f).core
    = Function.update s.core id ((s.accounts.lookup id).map fun a => (f a).core)
  := by
  funext j
  by_cases hj : j = id
  · subst hj
    simp [core, modifyAccount, Function.comp_def]
  · simp [core, modifyAccount, Table.lookup_modify_ne hj, Function.update_of_ne hj]

/-- A change of one account that keeps its core keeps all cores. -/
theorem core_modifyAccount_same {s : State} {id : ℕ} {f : Account → Account}
    (h : ∀ a, s.accounts.lookup id = some a → (f a).core = a.core) :
  (s.modifyAccount id f).core = s.core
  := by
  rw [core_modifyAccount, Function.update_eq_self_iff]
  unfold core
  cases ha : s.accounts.lookup id with
  | none => rfl
  | some a => simp [h a ha]

theorem core_eraseAccount (s : State) (id : ℕ) :
  { s with accounts := s.accounts.erase id }.core = Function.update s.core id none
  := by
  funext j
  by_cases hj : j = id
  · subst hj
    simp [core]
  · simp [core, AList.lookup_erase_ne hj, Function.update_of_ne hj]

end State

/-! ## The steps of a recovery -/

@[simp]
theorem Account.core_updatePrivileges (env : Env) (cfg : Config)
    (given : Option (List PrivilegeType)) (a : Account) :
  (a.updatePrivileges env cfg given).core = a.core
  := by
  unfold Account.core
  rw [Account.standing_updatePrivileges]
  unfold Account.updatePrivileges
  simp only
  split <;> rfl

@[simp]
theorem Account.core_updateInactiveUserStartTime (env : Env) (cfg : Config) (a : Account) :
  (a.updateInactiveUserStartTime env cfg).core = a.core
  := by
  unfold Account.core
  rw [Account.standing_updateInactiveUserStartTime]
  unfold Account.updateInactiveUserStartTime
  split
  · split_ifs <;> rfl
  · rfl

@[simp]
theorem Account.core_updateDeletable (cfg : Config) (only : Bool) (id : ℕ) (a : Account) :
  (a.updateDeletable cfg only id).core = a.core
  := by
  unfold Account.core
  rw [Account.standing_updateDeletable]
  unfold Account.updateDeletable
  split <;> rfl

@[simp]
theorem Account.core_setWithinMinPasswordDaysStatus (status : Bool) (a : Account) :
  (a.setWithinMinPasswordDaysStatus status).core = a.core
  := by
  unfold Account.setWithinMinPasswordDaysStatus
  split <;> rfl

theorem Account.core_setUserName {name : String} {a a' : Account}
    (h : a.setUserName name = .ok a') :
  a'.core = a.core
  := by
  unfold Account.setUserName at h
  split at h
  all_goals first
    | split_ifs at h
    | skip
  all_goals
    cases h
    rfl

theorem Account.core_deleteSshPublicKey {env : Env} {a a' : Account}
    (h : a.deleteSshPublicKey env = .ok a') :
  a'.core = a.core
  := by
  unfold Account.deleteSshPublicKey at h
  split at h
  all_goals first
    | split_ifs at h
    | skip
  all_goals
    cases h
    rfl

/-- What `change_user_name` does to the account it renames. -/
def Account.rename (env : Env) (name : String) (a : Account) : Except Err Account :=
  (a.setUserName name).bind (Account.deleteSshPublicKey env)

/-- The account `id` can be given the name. -/
def Renamable (env : Env) (s : State) (id : ℕ) (name : String) : Prop :=
  ∃ a a', s.accounts.lookup id = some a ∧ env.checkUserName a.data.accountType name = some true ∧
    a.rename env name = .ok a'

/-- The state with the account `id` renamed. -/
def State.renamed (env : Env) (id : ℕ) (name : String) (s : State) : State :=
  s.modifyAccount id fun a =>
    ((a.rename env name).toOption.getD a).updateInactiveUserStartTime env s.config

theorem exec_changeUserName {env : Env} {s : State} {id : ℕ} {name : String}
    (h : Renamable env s id name) :
  exec (changeUserName env id name) s = (.ok (), s.renamed env id name)
  := by
  obtain ⟨a, a'', ha, hcheck, hrename⟩ := h
  have hren := hrename
  unfold Account.rename at hren
  cases hset : a.setUserName name with
  | error e =>
    rw [hset] at hren
    cases hren
  | ok a' =>
    rw [hset] at hren
    have hdel : a'.deleteSshPublicKey env = .ok a'' := hren
    have ha' : (s.modifyAccount id fun _ => a').accounts.lookup id = some a' := by
      simp [State.modifyAccount, ha]
    unfold changeUserName
    rw [exec_bind_ok (exec_getAccount ha)]
    simp only [hcheck, Bool.not_true]
    rw [exec_bind_ok (exec_refuse_false _ s), exec_bind, exec_callAccount ha]
    simp only [hset]
    rw [exec_bind, exec_callAccount ha']
    simp only [hdel]
    unfold updateAccount State.renamed
    rw [exec_modify]
    simp only [State.modifyAccount, Table.modify_modify]
    rw [Table.modify_congr ha]
    simp [hrename, Except.toOption]

/-- Renaming an account keeps the cores, whether it succeeds or not. -/
theorem changeUserName_core (env : Env) (id : ℕ) (name : String) (s : State) :
  (after (changeUserName env id name) s).core = s.core
  := by
  have hcall : ∀ f : Config → Account → Except Err Account,
      (∀ cfg a a', f cfg a = .ok a' → a'.core = a.core) →
      Keeps (fun s' => s'.core = s.core) (callAccount id f) := by
    intro f hf s' hs'
    cases ha : s'.accounts.lookup id with
    | none =>
      unfold callAccount
      rw [exec_bind_ok (exec_get s')]
      simp only [ha]
      exact hs'
    | some a =>
      rw [exec_callAccount ha]
      cases hfa : f s'.config a with
      | error e => exact hs'
      | ok a' =>
        change (s'.modifyAccount id fun _ => a').core = s.core
        rw [State.core_modifyAccount_same, hs']
        intro b hb
        rw [ha] at hb
        rw [← Option.some_inj.mp hb]
        exact hf _ a a' hfa
  have hkeeps : Keeps (fun s' => s'.core = s.core) (changeUserName env id name) := by
    unfold changeUserName
    refine Keeps.bind getAccount_keeps fun account => ?_
    cases env.checkUserName account.data.accountType name with
    | none => exact Keeps.throw
    | some allowed =>
      refine Keeps.bind Keeps.refuse fun _ => ?_
      refine Keeps.bind (hcall _ fun _ _ _ h => Account.core_setUserName h) fun _ => ?_
      refine Keeps.bind (hcall _ fun _ _ _ h => Account.core_deleteSshPublicKey h) fun _ => ?_
      apply Keeps.modify
      intro s' hs'
      rw [State.core_modifyAccount_same, hs']
      exact fun _ _ => Account.core_updateInactiveUserStartTime ..
  exact hkeeps.after rfl

theorem exec_changeUserName_error {env : Env} {s : State} {id : ℕ} {name : String} {a : Account}
    (ha : s.accounts.lookup id = some a) (h : ¬ Renamable env s id name) :
  ∃ e s', exec (changeUserName env id name) s = (.error e, s') ∧ s'.core = s.core
  := by
  have hcore := changeUserName_core env id name s
  suffices herr : ∃ e, (exec (changeUserName env id name) s).1 = .error e by
    obtain ⟨e, he⟩ := herr
    exact ⟨e, _, Prod.ext he rfl, hcore⟩
  unfold changeUserName
  rw [exec_bind_ok (exec_getAccount ha)]
  rcases hcheck : env.checkUserName a.data.accountType name with _ | _ | _
  · exact ⟨_, rfl⟩
  · exact ⟨_, rfl⟩
  · simp only [Bool.not_true]
    rw [exec_bind_ok (exec_refuse_false _ s), exec_bind, exec_callAccount ha]
    cases hset : a.setUserName name with
    | error e => exact ⟨e, rfl⟩
    | ok a' =>
      have ha' : (s.modifyAccount id fun _ => a').accounts.lookup id = some a' := by
        simp [State.modifyAccount, ha]
      simp only
      rw [exec_bind, exec_callAccount ha']
      cases hdel : a'.deleteSshPublicKey env with
      | error e => exact ⟨e, rfl⟩
      | ok a'' =>
        exfalso
        apply h
        refine ⟨a, a'', ha, hcheck, ?_⟩
        unfold Account.rename
        rw [hset]
        exact hdel

theorem operateAdminAt_iff {s : State} {id : ℕ} {a : Account}
    (ha : s.accounts.lookup id = some a) :
  s.OperateAdminAt id ↔ a.isOperateAdmin = true
  := by
  constructor
  · rintro ⟨b, hb, hop⟩
    rw [ha] at hb
    rw [Option.some_inj.mp hb]
    exact hop
  · exact fun h => ⟨a, ha, h⟩

/-- The last-administrator check answers whether the account is the last one. -/
theorem exec_checkIsLastOperateAdmin {s : State} {id : ℕ} {a : Account}
    (ha : s.accounts.lookup id = some a) :
  ∃ last, exec (checkIsLastOperateAdmin id) s = (.ok last, s) ∧
    (last = true ↔ s.IsLastOperateAdmin id)
  := by
  unfold checkIsLastOperateAdmin State.IsLastOperateAdmin
  rw [exec_bind_ok (exec_get s), operateAdminAt_iff ha]
  by_cases hle : s.operateAdminNumber ≤ 1
  · rw [if_pos hle, ha]
    refine ⟨a.isOperateAdmin, rfl, ⟨fun hop => ⟨hop, ?_⟩, fun h => h.1⟩⟩
    exact (State.operateAdminNumber_le_one_iff ha hop).mp hle
  · rw [if_neg hle]
    refine ⟨false, rfl, ⟨fun h => (Bool.false_ne_true h).elim, fun h => ?_⟩⟩
    exact absurd ((State.operateAdminNumber_le_one_iff ha h.1).mpr h.2) hle

/-- The guard lets pass whatever is not the last administrator. -/
theorem exec_refuseLastOperateAdmin_ok {s : State} {b : Bool} {id : ℕ} {e : Err} {a : Account}
    (ha : s.accounts.lookup id = some a) (h : ¬ (b = true ∧ s.IsLastOperateAdmin id)) :
  exec (refuseLastOperateAdmin b id e) s = (.ok (), s)
  := by
  cases b with
  | false => rfl
  | true =>
    obtain ⟨last, hexec, hiff⟩ := exec_checkIsLastOperateAdmin ha
    cases last with
    | false =>
      change exec (checkIsLastOperateAdmin id >>= _) s = _
      rw [exec_bind_ok hexec, exec_refuse_false]
    | true => exact absurd ⟨rfl, hiff.mp rfl⟩ h

theorem exec_refuseLastOperateAdmin_error {s : State} {b : Bool} {id : ℕ} {e : Err} {a : Account}
    (ha : s.accounts.lookup id = some a) (h : b = true ∧ s.IsLastOperateAdmin id) :
  exec (refuseLastOperateAdmin b id e) s = (.error e, s)
  := by
  obtain ⟨rfl, hlast⟩ := h
  obtain ⟨last, hexec, hiff⟩ := exec_checkIsLastOperateAdmin ha
  obtain rfl := hiff.mpr hlast
  change exec (checkIsLastOperateAdmin id >>= _) s = _
  rw [exec_bind_ok hexec, exec_refuse_true]

/-! ### Covering an account -/

/-- The record covers an account completely: no channel configuration is missing. -/
def BackupRecord.Complete (b : BackupRecord) : Prop :=
  ∀ l, b.ipmiChannelData = some l → none ∉ l

/-- The core of an account that has been given the data of a record. -/
def Core.covered (b : BackupRecord) (c : Core) : Core :=
  ⟨⟨c.standing.cls, b.ipmiData.privilege1, b.accountData.roleId, b.accountData.enabled,
    b.accountData.loginInterface⟩, c.hasSnmp⟩

/-- Recovering the channels keeps the cores, and succeeds on a complete record. -/
theorem exec_recoverIpmiChannelData (id : ℕ) (b : BackupRecord) (s : State) :
  ∃ r s', exec (recoverIpmiChannelData id b) s = (r, s') ∧ s'.core = s.core ∧
    s'.config = s.config ∧ ((∃ u, r = .ok u) ↔ b.Complete)
  := by
  unfold recoverIpmiChannelData BackupRecord.Complete
  cases b.ipmiChannelData with
  | none => exact ⟨.ok (), _, rfl, rfl, rfl, by simp⟩
  | some l =>
    simp only [Option.some.injEq, forall_eq']
    induction l generalizing s with
    | nil => exact ⟨.ok (), s, rfl, rfl, rfl, by simp⟩
    | cons c l ih =>
      cases c with
      | none => exact ⟨.error .indexNil, s, rfl, rfl, rfl, by simp⟩
      | some c =>
        obtain ⟨r, s', hexec, hcore, hcfg, hiff⟩ := ih (s.updateChannel id c 1)
        refine ⟨r, s', hexec, hcore, hcfg, ?_⟩
        rw [hiff]
        simp

theorem core_recoverSnmpData {b : BackupRecord} {a a' : Account}
    (h : a.recoverSnmpData b = .ok a') :
  a'.core = a.core
  := by
  unfold Account.recoverSnmpData at h
  split at h
  case h_1 r hr =>
    cases h
    simp [Account.core, Account.standing, hr]
  case h_2 => cases h

/-- Recovering an account gives it the data of the record, and succeeds if the account has
an SNMP row and the record is complete. -/
theorem exec_recover {id : ℕ} {b : BackupRecord} {s : State} {c : Core}
    (hc : s.core id = some c) :
  ∃ r s', exec (recover id b) s = (r, s') ∧
    s'.core = Function.update s.core id (some (c.covered b)) ∧ s'.config = s.config ∧
    ((∃ u, r = .ok u) ↔ c.hasSnmp = true ∧ b.Complete)
  := by
  obtain ⟨a, ha, rfl⟩ := Option.map_eq_some_iff.mp hc
  let s₁ := s.modifyAccount id (Account.recoverData b)
  have ha₁ : s₁.accounts.lookup id = some (a.recoverData b) := by
    simp [s₁, State.modifyAccount, ha]
  have hcore₁ : s₁.core = Function.update s.core id (some (a.core.covered b)) := by
    rw [State.core_modifyAccount, ha]
    rfl
  have hexec₁ : exec (recover id b) s = exec (callAccount id (fun _ => Account.recoverSnmpData b)
      >>= fun _ => recoverIpmiChannelData id b) s₁ := rfl
  rw [hexec₁]
  cases hsnmp : (a.recoverData b).recoverSnmpData b with
  | error e =>
    have hnone : a.core.hasSnmp = false := by
      unfold Account.recoverSnmpData at hsnmp
      split at hsnmp
      · cases hsnmp
      · rename_i hn
        change a.snmp = none at hn
        simp [Account.core, hn]
    refine ⟨.error e, s₁, ?_, hcore₁, rfl, by simp [hnone]⟩
    rw [exec_bind, exec_callAccount ha₁]
    simp only [hsnmp]
  | ok a' =>
    have hsome : a.core.hasSnmp = true := by
      unfold Account.recoverSnmpData at hsnmp
      split at hsnmp
      · rename_i r hr
        change a.snmp = some r at hr
        simp [Account.core, hr]
      · cases hsnmp
    let s₂ := s₁.modifyAccount id fun _ => a'
    have hcore₂ : s₂.core = s₁.core := by
      apply State.core_modifyAccount_same
      intro b' hb'
      rw [ha₁] at hb'
      rw [← Option.some_inj.mp hb']
      exact core_recoverSnmpData hsnmp
    obtain ⟨r, s', hexec, hcore, hcfg, hiff⟩ := exec_recoverIpmiChannelData id b s₂
    refine ⟨r, s', ?_, by rw [hcore, hcore₂, hcore₁], hcfg, by simp [hiff, hsome]⟩
    rw [exec_bind, exec_callAccount ha₁]
    simp only [hsnmp]
    exact hexec

/-- The guard of `cover_account_info` refuses the record. -/
def CoverRefused (s : State) (id : ℕ) (b : BackupRecord) : Prop :=
  (∃ c, s.core id = some c ∧ c.standing.roleId = RoleType.administrator.value) ∧
    b.accountData.roleId ≠ RoleType.administrator.value ∧ s.IsLastOperateAdmin id

theorem exec_coverAccountInfo_refused (env : Env) {s : State} {id : ℕ} {b : BackupRecord}
    (h : CoverRefused s id b) :
  ∃ e, exec (coverAccountInfo env id b) s = (.error e, s)
  := by
  obtain ⟨⟨c, hc, hrole⟩, hb, hlast⟩ := h
  obtain ⟨a, ha, rfl⟩ := Option.map_eq_some_iff.mp hc
  refine ⟨.actionNotSupported, ?_⟩
  unfold coverAccountInfo
  rw [exec_bind_ok (exec_getAccount ha), exec_bind,
    exec_refuseLastOperateAdmin_error ha ⟨?_, hlast⟩]
  have hrole : a.data.roleId = RoleType.administrator.value := hrole
  simp [hrole, hb]

/-- Covering an account that the guard does not refuse. -/
theorem exec_coverAccountInfo (env : Env) {s : State} {id : ℕ} {b : BackupRecord} {c : Core}
    (hc : s.core id = some c) (h : ¬ CoverRefused s id b) :
  ∃ r s', exec (coverAccountInfo env id b) s = (r, s') ∧
    s'.core = Function.update s.core id (some (c.covered b)) ∧ s'.config = s.config ∧
    ((∃ u, r = .ok u) ↔ c.hasSnmp = true ∧ b.Complete)
  := by
  obtain ⟨a, ha, rfl⟩ := Option.map_eq_some_iff.mp hc
  have hguard : ¬ ((decide (a.data.roleId = RoleType.administrator.value)
      && b.accountData.roleId != RoleType.administrator.value) = true ∧
      s.IsLastOperateAdmin id) := by
    rintro ⟨hb, hlast⟩
    apply h
    simp only [Bool.and_eq_true, decide_eq_true_eq, bne_iff_ne] at hb
    exact ⟨⟨a.core, hc, hb.1⟩, hb.2, hlast⟩
  obtain ⟨r, s', hexec, hcore, hcfg, hiff⟩ := exec_recover (b := b) hc
  unfold coverAccountInfo
  rw [exec_bind_ok (exec_getAccount ha), exec_bind_ok (exec_refuseLastOperateAdmin_ok ha hguard),
    exec_bind, hexec]
  cases r with
  | error e => exact ⟨.error e, s', rfl, hcore, hcfg, hiff⟩
  | ok u =>
    refine ⟨.ok (), _, rfl, ?_, hcfg, ?_⟩
    · rw [← hcore]
      apply State.core_modifyAccount_same
      exact fun _ _ => Account.core_updatePrivileges ..
    · rw [← hiff]

/-! ### Removing an account -/

theorem core_mapAccounts {s : State} {f : ℕ → Account → Account}
    (h : ∀ id a, (f id a).core = a.core) :
  { s with accounts := s.accounts.map f }.core = s.core
  := by
  funext id
  simp only [State.core, Table.lookup_map, Option.map_map]
  cases s.accounts.lookup id with
  | none => rfl
  | some a => simp [h]

/-- Removing an account succeeds if it has an SNMP row; otherwise it stays. -/
theorem exec_removeAccount {s : State} {id : ℕ} {c : Core} (hc : s.core id = some c) :
  ∃ r s', exec (removeAccount id) s = (r, s') ∧ s'.config = s.config ∧
    ((∃ u, r = .ok u) ↔ c.hasSnmp = true) ∧
    s'.core = if c.hasSnmp then Function.update s.core id none else s.core
  := by
  obtain ⟨a, ha, rfl⟩ := Option.map_eq_some_iff.mp hc
  let s₀ : State := { s.modifyAccount id fun a => { a with history := [] } with
    channels := s.channels.erase id }
  let s₁ : State := s₀.modifyAccount id fun a => { a with inTable := false }
  have ha₁ : s₁.accounts.lookup id = some { a with history := [], inTable := false } := by
    simp [s₁, s₀, State.modifyAccount, ha]
  have hcore₀ : s₀.core = s.core := by
    change (s.modifyAccount id fun a => { a with history := [] }).core = s.core
    exact State.core_modifyAccount_same fun _ _ => rfl
  have hcore₁ : s₁.core = s.core := by
    rw [← hcore₀]
    exact State.core_modifyAccount_same fun _ _ => rfl
  have hexec₁ : exec (removeAccount id) s = exec (getAccount id .indexNil >>= fun account =>
      refuse account.snmp.isNone .indexNil >>= fun _ =>
      modify (fun s => { s with accounts := s.accounts.erase id }) >>= fun _ =>
      updateDeletable) s₁ := rfl
  rw [hexec₁, exec_bind_ok (exec_getAccount ha₁)]
  cases hsnmp : a.snmp with
  | none =>
    refine ⟨.error .indexNil, s₁, ?_, rfl, by simp [Account.core, hsnmp], by
      simp [Account.core, hsnmp, hcore₁]⟩
    simp only [Option.isNone_none]
    rw [exec_bind_error (exec_refuse_true _ s₁)]
  | some r =>
    simp only [Option.isNone_some]
    rw [exec_bind_ok (exec_refuse_false _ s₁), exec_bind_ok (exec_modify _ s₁)]
    refine ⟨.ok (), _, rfl, rfl, by simp [Account.core, hsnmp], ?_⟩
    have hsome : a.core.hasSnmp = true := by simp [Account.core, hsnmp]
    rw [if_pos hsome]
    refine (core_mapAccounts fun _ _ => Account.core_updateDeletable ..).trans ?_
    rw [State.core_eraseAccount, hcore₁]

theorem exec_forceDeleteAccount {s : State} {id : ℕ} {c : Core} (hc : s.core id = some c) :
  exec (forceDeleteAccount id) s = exec (removeAccount id) s
  := by
  obtain ⟨a, ha, -⟩ := Option.map_eq_some_iff.mp hc
  unfold forceDeleteAccount
  rw [exec_bind_ok (exec_getAccount ha)]

theorem exec_deleteUser {s : State} {id : ℕ} {c : Core} (hc : s.core id = some c) :
  ∃ r s', exec (deleteUser id) s = (r, s') ∧ s'.config = s.config.forget id ∧
    s'.core = if c.hasSnmp then Function.update s.core id none else s.core
  := by
  let s₁ : State := { s with config := s.config.forget id }
  have hc₁ : s₁.core id = some c := hc
  obtain ⟨r, s', hexec, hcfg, -, hcore⟩ := exec_removeAccount hc₁
  refine ⟨r, s', ?_, hcfg, hcore⟩
  rw [← hexec, ← exec_forceDeleteAccount hc₁]
  rfl

/-! ### Making way for an account -/

/-- The account of the same name stops the recovery: it is the last operable administrator
and the record is none of an administrator, or it cannot be renamed. -/
def DupRefused (env : Env) (s : State) (b : BackupRecord) (dup : Option ℕ) : Prop :=
  ∃ d, dup = some d ∧
    ((b.accountData.roleId ≠ RoleType.administrator.value ∧ s.IsLastOperateAdmin d) ∨
      ¬ Renamable env s d deleteUserName)

/-- The state in which the account of the same name has made way. -/
def State.dupRenamed (env : Env) (dup : Option ℕ) (s : State) : State :=
  match dup with
  | none => s
  | some d => s.renamed env d deleteUserName

theorem exec_forDup_renameDup_refused {env : Env} {s : State} {b : BackupRecord} {dup : Option ℕ}
    (hdup : ∀ d, dup = some d → ∃ a, s.accounts.lookup d = some a)
    (h : DupRefused env s b dup) :
  ∃ e s', exec (forDup dup (renameDup env b)) s = (.error e, s') ∧ s'.core = s.core
  := by
  obtain ⟨d, rfl, h⟩ := h
  obtain ⟨a, ha⟩ := hdup d rfl
  change ∃ e s', exec (renameDup env b d) s = (.error e, s') ∧ s'.core = s.core
  unfold renameDup
  by_cases hlast : b.accountData.roleId ≠ RoleType.administrator.value ∧ s.IsLastOperateAdmin d
  · refine ⟨.actionNotSupported, s, ?_, rfl⟩
    rw [exec_bind_error (exec_refuseLastOperateAdmin_error ha ⟨by simpa using hlast.1, hlast.2⟩)]
  · have hok := exec_refuseLastOperateAdmin_ok (e := Err.actionNotSupported)
      (b := b.accountData.roleId != RoleType.administrator.value) ha (by simpa using hlast)
    rw [exec_bind_ok hok]
    exact exec_changeUserName_error ha (h.resolve_left hlast)

theorem exec_forDup_renameDup {env : Env} {s : State} {b : BackupRecord} {dup : Option ℕ}
    (h : ¬ DupRefused env s b dup) :
  exec (forDup dup (renameDup env b)) s = (.ok (), s.dupRenamed env dup)
  := by
  cases dup with
  | none => rfl
  | some d =>
    simp only [DupRefused, not_exists, not_and, not_or, not_not] at h
    obtain ⟨hlast, hren⟩ := h d rfl
    obtain ⟨a, a', ha, -⟩ := id hren
    change exec (renameDup env b d) s = _
    unfold renameDup
    have hok := exec_refuseLastOperateAdmin_ok (e := Err.actionNotSupported)
      (b := b.accountData.roleId != RoleType.administrator.value) ha (by simpa using hlast)
    rw [exec_bind_ok hok, exec_changeUserName hren]
    rfl

theorem core_dupRenamed (env : Env) (dup : Option ℕ) (s : State)
    (h : ∀ d, dup = some d → Renamable env s d deleteUserName) :
  (s.dupRenamed env dup).core = s.core
  := by
  cases dup with
  | none => rfl
  | some d =>
    have hcore := changeUserName_core env d deleteUserName s
    unfold after at hcore
    rw [exec_changeUserName (h d rfl)] at hcore
    exact hcore

theorem config_dupRenamed (env : Env) (dup : Option ℕ) (s : State) :
  (s.dupRenamed env dup).config = s.config
  := by
  cases dup <;> rfl

/-- Giving the account of the same name its name back and raising again. -/
theorem exec_forDup_changeUserName (env : Env) (dup : Option ℕ) (name : String) (e : Err)
    (s : State) :
  ∃ e' s', exec (do forDup dup (fun d => changeUserName env d name); throw e : M Unit) s
      = (.error e', s') ∧ s'.core = s.core
  := by
  cases dup with
  | none => exact ⟨e, s, rfl, rfl⟩
  | some d =>
    have hcore := changeUserName_core env d name s
    unfold after at hcore
    change ∃ e' s', exec (changeUserName env d name >>= fun _ => throw e) s = (.error e', s') ∧ _
    rw [exec_bind]
    rcases hx : exec (changeUserName env d name) s with ⟨e' | u, s'⟩
    · rw [hx] at hcore
      exact ⟨e', s', rfl, hcore⟩
    · rw [hx] at hcore
      exact ⟨e, s', rfl, hcore⟩

/-! ## Recovery of an account that is there -/

section Exist

variable {env : Env} {order : List ℕ} {s : State} {id : ℕ} {b : BackupRecord}

theorem exists_of_dupOf {d : ℕ} (h : s.dupOf order id b = some d) :
  d ≠ id ∧ ∃ c, s.core d = some c
  := by
  unfold State.dupOf at h
  rw [Option.filter_eq_some_iff] at h
  refine ⟨by simpa using h.2, ?_⟩
  have hname := List.find?_some h.1
  obtain ⟨a, ha, -⟩ := (Option.any_eq_true _ _).mp hname
  exact ⟨a.core, by simp [State.core, ha]⟩

/-- The recovery is stopped before it covers the account. -/
def ExistRefused (env : Env) (order : List ℕ) (s : State) (id : ℕ) (b : BackupRecord) : Prop :=
  DupRefused env s b (s.dupOf order id b) ∨ CoverRefused s id b

/-- The account `d` of the same name is deleted in the end of a recovery that is not
stopped: the account and the record are covered completely, and `d` has an SNMP row. -/
def DupRemoved (order : List ℕ) (s : State) (id : ℕ) (b : BackupRecord) (d : ℕ) : Prop :=
  s.dupOf order id b = some d ∧ (∀ c, s.core id = some c → c.hasSnmp = true) ∧ b.Complete ∧
    ∃ c, s.core d = some c ∧ c.hasSnmp = true

theorem coverRefused_congr {s' : State} (h : s'.core = s.core) :
  CoverRefused s' id b ↔ CoverRefused s id b
  := by
  unfold CoverRefused
  rw [h, State.isLastOperateAdmin_congr h]

theorem renamable_of_not_dupRefused {dup : Option ℕ} (h : ¬ DupRefused env s b dup) {d : ℕ}
    (hd : dup = some d) :
  Renamable env s d deleteUserName
  := by
  by_contra hren
  exact h ⟨d, hd, Or.inr hren⟩

theorem exists_lookup_of_dupOf {d : ℕ} (h : s.dupOf order id b = some d) :
  ∃ a, s.accounts.lookup d = some a
  := by
  obtain ⟨-, c, hc⟩ := exists_of_dupOf h
  obtain ⟨a, ha, -⟩ := Option.map_eq_some_iff.mp hc
  exact ⟨a, ha⟩

/-- A recovery that is stopped keeps the cores. -/
theorem recoverAccountWhileIdExist_refused (h : ExistRefused env order s id b) :
  (after (recoverAccountWhileIdExist env order id b) s).core = s.core
  := by
  unfold recoverAccountWhileIdExist after
  rw [exec_bind_ok (exec_get s)]
  simp only
  by_cases hdup : DupRefused env s b (s.dupOf order id b)
  · obtain ⟨e, s', hexec, hcore⟩ :=
      exec_forDup_renameDup_refused (fun _ => exists_lookup_of_dupOf) hdup
    rw [exec_bind_error hexec]
    exact hcore
  · have hcore := core_dupRenamed env (s.dupOf order id b) s
      fun _ => renamable_of_not_dupRefused hdup
    obtain ⟨e, hcover⟩ := exec_coverAccountInfo_refused env
      ((coverRefused_congr hcore).mpr (h.resolve_left hdup))
    rw [exec_bind_ok (exec_forDup_renameDup hdup), exec_bind, exec_protect, hcover]
    obtain ⟨e', s', hback, hcore'⟩ := exec_forDup_changeUserName env (s.dupOf order id b)
      b.accountData.userName e (s.dupRenamed env (s.dupOf order id b))
    simp only [hback]
    rw [hcore', hcore]

/-- The state `s'` after a recovery that is not stopped: the account has the core `c`, the
account of the same name may be gone, and the others are as before. -/
structure Recovered (order : List ℕ) (s : State) (id : ℕ) (b : BackupRecord) (c : Core)
    (s' : State) : Prop where
  self : s'.core id = some c
  removed : ∀ j, j ≠ id → DupRemoved order s id b j → s'.core j = none
  others : ∀ j, j ≠ id → ¬ DupRemoved order s id b j → s'.core j = s.core j
  config : ∀ j, DupRemoved order s id b j → s'.config = s.config.forget j

theorem recovered_update {s' : State} {c : Core}
    (hcore : s'.core = Function.update s.core id (some c))
    (h : ∀ j, ¬ DupRemoved order s id b j) :
  Recovered order s id b c s'
  := by
  constructor
  · rw [hcore, Function.update_self]
  · exact fun j _ hrem => absurd hrem (h j)
  · intro j hj _
    rw [hcore, Function.update_of_ne hj]
  · exact fun j hrem => absurd hrem (h j)

/-- The end of a recovery that has covered the account completely. -/
theorem forDup_deleteUser_recovered {s₂ : State} {c : Core}
    (hcore : s₂.core = Function.update s.core id (some c)) (hcfg : s₂.config = s.config)
    (hsnmp : ∀ c, s.core id = some c → c.hasSnmp = true) (hcompl : b.Complete) :
  Recovered order s id b c (after (forDup (s.dupOf order id b) deleteUser) s₂)
  := by
  cases hd : s.dupOf order id b with
  | none =>
    change Recovered order s id b c s₂
    apply recovered_update hcore
    rintro j ⟨hj, -⟩
    rw [hd] at hj
    cases hj
  | some d =>
    obtain ⟨hne, c', hc'⟩ := exists_of_dupOf hd
    have hc₂ : s₂.core d = some c' := by
      rw [hcore, Function.update_of_ne hne, hc']
    obtain ⟨r, s', hdel, hcfg', hcore'⟩ := exec_deleteUser hc₂
    have hafter : after (forDup (some d) deleteUser) s₂ = s' := by
      change (exec (deleteUser d) s₂).2 = s'
      rw [hdel]
    rw [hafter]
    rw [hcore] at hcore'
    cases hs : c'.hasSnmp with
    | false =>
      rw [hs, if_neg Bool.false_ne_true] at hcore'
      apply recovered_update hcore'
      rintro j ⟨hj, -, -, c'', hc'', hs'⟩
      obtain rfl := Option.some_inj.mp (hd.symm.trans hj)
      rw [hc', Option.some_inj] at hc''
      rw [← hc'', hs] at hs'
      cases hs'
    | true =>
      rw [if_pos hs] at hcore'
      constructor
      · rw [hcore', Function.update_of_ne hne.symm, Function.update_self]
      · rintro j - ⟨hj, -⟩
        obtain rfl := Option.some_inj.mp (hd.symm.trans hj)
        rw [hcore', Function.update_self]
      · intro j hj hrem
        have hjd : j ≠ d := by
          rintro rfl
          exact hrem ⟨hd, hsnmp, hcompl, c', hc', hs⟩
        rw [hcore', Function.update_of_ne hjd, Function.update_of_ne hj]
      · rintro j ⟨hj, -⟩
        obtain rfl := Option.some_inj.mp (hd.symm.trans hj)
        rw [hcfg', hcfg]

/-- A recovery that is not stopped gives the account the data of the record. -/
theorem recoverAccountWhileIdExist_recovered {c : Core} (hc : s.core id = some c)
    (h : ¬ ExistRefused env order s id b) :
  Recovered order s id b (c.covered b) (after (recoverAccountWhileIdExist env order id b) s)
  := by
  rw [ExistRefused, not_or] at h
  obtain ⟨hdup, hcover⟩ := h
  have hcore := core_dupRenamed env (s.dupOf order id b) s
    fun _ => renamable_of_not_dupRefused hdup
  have hc₁ : (s.dupRenamed env (s.dupOf order id b)).core id = some c := by rw [hcore, hc]
  obtain ⟨r, s₂, hexec, hcore₂, hcfg₂, hiff⟩ :=
    exec_coverAccountInfo env hc₁ ((coverRefused_congr hcore).not.mpr hcover)
  rw [hcore] at hcore₂
  rw [config_dupRenamed] at hcfg₂
  unfold recoverAccountWhileIdExist after
  rw [exec_bind_ok (exec_get s)]
  simp only
  rw [exec_bind_ok (exec_forDup_renameDup hdup), exec_bind, exec_protect, hexec]
  cases r with
  | error e =>
    obtain ⟨e', s', hback, hcore'⟩ := exec_forDup_changeUserName env (s.dupOf order id b)
      b.accountData.userName e s₂
    simp only [hback]
    apply recovered_update (hcore'.trans hcore₂)
    rintro j ⟨-, hsnmp, hcompl, -⟩
    obtain ⟨u, hu⟩ := hiff.mpr ⟨hsnmp c hc, hcompl⟩
    cases hu
  | ok u =>
    obtain ⟨hsnmp, hcompl⟩ := hiff.mp ⟨u, rfl⟩
    apply forDup_deleteUser_recovered hcore₂ hcfg₂ _ hcompl
    intro c₀ hc₀
    rw [hc, Option.some_inj] at hc₀
    rw [← hc₀, hsnmp]

end Exist

/-! ## Recovery of an account that is not there -/

section NotExist

variable {env : Env} {order : List ℕ} {s : State} {id : ℕ} {b : BackupRecord}

/-- An account with the name and role of the record can be created. -/
structure Creatable (env : Env) (s : State) (b : BackupRecord) : Prop where
  name : env.checkUserName .localUser b.accountData.userName = some true
  role : (env.roles b.accountData.roleId).isSome = true
  fresh : s.checkUsernameExist b.accountData.userName = false
  key : (env.generateKu .sha256 "").isSome = true

/-- The core of an account that has been created for the record. -/
def Core.created (b : BackupRecord) : Core :=
  ⟨⟨.localAccount, Account.privilegeOfRole b.accountData.roleId, b.accountData.roleId, true,
    b.accountData.loginInterface⟩, true⟩

theorem core_entered (env : Env) (cfg : Config) (a : Account) :
  (a.entered env cfg).core = a.core
  := Account.core_updatePrivileges ..

theorem core_insertAccount (s : State) (id : ℕ) (a : Account) :
  { s with accounts := s.accounts.insert id a }.core = Function.update s.core id (some a.core)
  := by
  funext j
  by_cases hj : j = id
  · subst hj
    simp [State.core]
  · simp [State.core, AList.lookup_insert_ne hj, Function.update_of_ne hj]

theorem core_newAccountChannels (id roleId : ℕ) (s : State) :
  (s.newAccountChannels id roleId).core = s.core
  := by
  unfold State.newAccountChannels
  split_ifs <;> rfl

theorem config_newAccountChannels (id roleId : ℕ) (s : State) :
  (s.newAccountChannels id roleId).config = s.config
  := by
  unfold State.newAccountChannels
  split_ifs <;> rfl

theorem getValidAccountId_eq (hid : 2 ≤ id ∧ id ≤ 17) (hnone : s.core id = none) :
  getValidAccountId s id false = .ok id
  := by
  have hlook : s.accounts.lookup id = none := Option.map_eq_none_iff.mp hnone
  have hzero : id ≠ 0 := by omega
  unfold getValidAccountId
  simp [hlook, hzero, minUserNum, maxUserNum, Nat.not_lt.mpr hid.1, Nat.not_lt.mpr hid.2]

theorem initPassword_info (env : Env) (id : ℕ) (b : BackupRecord) :
  Account.initPassword env (b.info id) = .ok ("", some "", "")
  := rfl

theorem exec_newAccountToDbAndMdb_error {info : Account.Info} {e : Err}
    (h : Account.init env info = .error e) :
  exec (newAccountToDbAndMdb env id info true) s = (.error e, s)
  := by
  unfold newAccountToDbAndMdb
  rw [exec_bind_ok (exec_get s)]
  simp only [h]
  rfl

/-- Creating an account for a record succeeds, or changes nothing. -/
theorem exec_newAccount (hid : 2 ≤ id ∧ id ≤ 17) (hnone : s.core id = none)
    (h : Creatable env s b) :
  ∃ s', exec (newAccount env (b.info id) true) s = (.ok id, s') ∧
    s'.core = Function.update s.core id (some (Core.created b)) ∧ s'.config = s.config
  := by
  obtain ⟨hname, hrole, hfresh, hkey⟩ := h
  obtain ⟨ku, hku⟩ := Option.isSome_iff_exists.mp hkey
  obtain ⟨a, ha, hacore⟩ : ∃ a, Account.init env (b.info id) = .ok a ∧ a.core = Core.created b := by
    refine ⟨Account.initial env (b.info id) "" (some "") "" ku, ?_, rfl⟩
    unfold Account.init
    rw [initPassword_info]
    simp only [BackupRecord.info, hku]
  let s₁ : State := { s with accounts := s.accounts.insert id (a.entered env s.config) }
  let s₂ := s₁.newAccountChannels id b.accountData.roleId
  let s₃ := s₂.modifyAccount id (Account.updateInactiveUserStartTime env s₂.config)
  have hcore₃ : s₃.core = Function.update s.core id (some (Core.created b)) := by
    rw [State.core_modifyAccount_same fun _ _ => Account.core_updateInactiveUserStartTime ..,
      core_newAccountChannels, core_insertAccount, core_entered, hacore]
  have hcfg₃ : s₃.config = s.config := config_newAccountChannels ..
  refine ⟨after (do updateDeletable; updateWithinMinPasswordDaysStatus env) s₃, ?_, ?_, hcfg₃⟩
  · have hdb : exec (newAccountToDbAndMdb env id (b.info id) true) s
        = (.ok (), after (do updateDeletable; updateWithinMinPasswordDaysStatus env) s₃) := by
      unfold newAccountToDbAndMdb
      rw [exec_bind_ok (exec_get s)]
      simp only [ha]
      rfl
    unfold newAccount
    simp only [BackupRecord.info, Bool.false_eq_true, if_false, hname, Bool.not_true]
    rw [exec_bind_ok (exec_refuse_false _ s)]
    rw [Option.isNone_eq_false_iff.mpr hrole, exec_bind_ok (exec_refuse_false _ s),
      exec_bind_ok (exec_get s)]
    simp only [getValidAccountId_eq hid hnone, hfresh]
    rw [exec_bind_ok (exec_refuse_false _ s)]
    exact exec_bind_ok hdb
  · refine Eq.trans ?_ hcore₃
    refine (core_mapAccounts fun _ _ => Account.core_setWithinMinPasswordDaysStatus ..).trans ?_
    exact core_mapAccounts fun _ _ => Account.core_updateDeletable ..

theorem exec_newAccount_error (hid : 2 ≤ id ∧ id ≤ 17) (hnone : s.core id = none)
    (h : ¬ Creatable env s b) :
  ∃ e, exec (newAccount env (b.info id) true) s = (.error e, s)
  := by
  unfold newAccount
  simp only [BackupRecord.info, Bool.false_eq_true, if_false]
  rcases hname : env.checkUserName .localUser b.accountData.userName with _ | _ | _
  · exact ⟨_, rfl⟩
  · exact ⟨_, rfl⟩
  cases hrole : env.roles b.accountData.roleId with
  | none => exact ⟨_, rfl⟩
  | some l =>
    simp only [Bool.not_true, Option.isNone_some]
    rw [exec_bind_ok (exec_refuse_false _ s), exec_bind_ok (exec_refuse_false _ s),
      exec_bind_ok (exec_get s)]
    simp only [getValidAccountId_eq hid hnone]
    cases hfresh : s.checkUsernameExist b.accountData.userName with
    | true => exact ⟨_, rfl⟩
    | false =>
      rw [exec_bind_ok (exec_refuse_false _ s)]
      cases hku : env.generateKu .sha256 "" with
      | some ku => exact absurd ⟨hname, by simp [hrole], hfresh, by simp [hku]⟩ h
      | none =>
        refine ⟨.authAlgoNotSupport, exec_bind_error ?_⟩
        have hinit : Account.init env (b.info id) = .error .authAlgoNotSupport := by
          unfold Account.init
          rw [initPassword_info]
          simp only [BackupRecord.info, hku]
        exact exec_newAccountToDbAndMdb_error hinit

/-- The recovery is stopped, or undone because the record is not complete. -/
def NotExistRefused (env : Env) (order : List ℕ) (s : State) (id : ℕ) (b : BackupRecord) :
    Prop :=
  DupRefused env s b (s.dupOf order id b) ∨
    ¬ Creatable env (s.dupRenamed env (s.dupOf order id b)) b ∨ ¬ b.Complete

/-- Where the account is not there, every account of the same name is another one. -/
theorem dupOf_eq_getAccountByName (order : List ℕ) (b : BackupRecord) (hnone : s.core id = none) :
  s.dupOf order id b = s.getAccountByName order b.accountData.userName
  := by
  have hlook : s.accounts.lookup id = none := Option.map_eq_none_iff.mp hnone
  unfold State.dupOf
  cases hd : s.getAccountByName order b.accountData.userName with
  | none => rfl
  | some d =>
    have hname := List.find?_some hd
    obtain ⟨a, ha, -⟩ := (Option.any_eq_true _ _).mp hname
    apply Option.filter_some_pos
    simp only [decide_eq_true_eq]
    rintro rfl
    rw [hlook] at ha
    cases ha

theorem core_created_covered (b : BackupRecord) :
  (Core.created b).covered b
    = ⟨⟨.localAccount, b.ipmiData.privilege1, b.accountData.roleId, b.accountData.enabled,
      b.accountData.loginInterface⟩, true⟩
  := rfl

/-- The created account is not refused by the guard: its role is that of the record. -/
theorem not_coverRefused_created {s' : State} (h : s'.core id = some (Core.created b)) :
  ¬ CoverRefused s' id b
  := by
  rintro ⟨⟨c, hc, hrole⟩, hb, -⟩
  rw [h, Option.some_inj] at hc
  rw [← hc] at hrole
  exact hb hrole

theorem recoverAccountWhileIdNotExist_refused (hid : 2 ≤ id ∧ id ≤ 17) (hnone : s.core id = none)
    (h : NotExistRefused env order s id b) :
  (after (recoverAccountWhileIdNotExist env order id b) s).core = s.core
  := by
  unfold recoverAccountWhileIdNotExist after
  rw [exec_bind_ok (exec_get s)]
  simp only
  rw [← dupOf_eq_getAccountByName order b hnone]
  by_cases hdup : DupRefused env s b (s.dupOf order id b)
  · obtain ⟨e, s', hexec, hcore⟩ :=
      exec_forDup_renameDup_refused (fun _ => exists_lookup_of_dupOf) hdup
    rw [exec_bind_error hexec]
    exact hcore
  have hcore := core_dupRenamed env (s.dupOf order id b) s
    fun _ => renamable_of_not_dupRefused hdup
  rw [exec_bind_ok (exec_forDup_renameDup hdup)]
  have hnone₁ : (s.dupRenamed env (s.dupOf order id b)).core id = none := by rw [hcore, hnone]
  by_cases hcreate : Creatable env (s.dupRenamed env (s.dupOf order id b)) b
  · obtain ⟨s₂, hnew, hcore₂, -⟩ := exec_newAccount hid hnone₁ hcreate
    have hc₂ : s₂.core id = some (Core.created b) := by
      rw [hcore₂, Function.update_self]
    obtain ⟨r, s₃, hexec, hcore₃, -, hiff⟩ :=
      exec_coverAccountInfo env hc₂ (not_coverRefused_created hc₂)
    have hcompl : ¬ b.Complete := (h.resolve_left hdup).resolve_left (not_not.mpr hcreate)
    rw [exec_bind, exec_protect, exec_bind_ok hnew]
    change (exec (protect (coverAccountInfo env id b) _ >>= _) s₂).2.core = s.core
    rw [exec_bind, exec_protect, hexec]
    cases r with
    | ok u => exact absurd (hiff.mp ⟨u, rfl⟩).2 hcompl
    | error e =>
      have hc₃ : s₃.core id = some ((Core.created b).covered b) := by
        rw [hcore₃, Function.update_self]
      obtain ⟨r, s₄, hremove, -, hok, hcore₄⟩ := exec_removeAccount hc₃
      rw [core_created_covered, if_pos rfl, hcore₃, Function.update_idem, hcore₂,
        Function.update_idem] at hcore₄
      obtain ⟨u, rfl⟩ := hok.mpr rfl
      obtain ⟨e', s', hback, hcore'⟩ := exec_forDup_changeUserName env (s.dupOf order id b)
        b.accountData.userName e s₄
      simp only
      rw [exec_bind_ok ((exec_forceDeleteAccount hc₃).trans hremove), hback, hcore', hcore₄,
        ← hnone₁, Function.update_eq_self, hcore]
  · obtain ⟨e, hnew⟩ := exec_newAccount_error hid hnone₁ hcreate
    obtain ⟨e', s', hback, hcore'⟩ := exec_forDup_changeUserName env (s.dupOf order id b)
      b.accountData.userName e (s.dupRenamed env (s.dupOf order id b))
    rw [exec_bind, exec_protect, exec_bind_error hnew]
    simp only [hback]
    rw [hcore', hcore]

/-- A recovery that is not stopped creates the account with the data of the record. -/
theorem recoverAccountWhileIdNotExist_recovered (hid : 2 ≤ id ∧ id ≤ 17)
    (hnone : s.core id = none) (h : ¬ NotExistRefused env order s id b) :
  Recovered order s id b ((Core.created b).covered b)
    (after (recoverAccountWhileIdNotExist env order id b) s)
  := by
  rw [NotExistRefused, not_or, not_or, not_not, not_not] at h
  obtain ⟨hdup, hcreate, hcompl⟩ := h
  have hcore := core_dupRenamed env (s.dupOf order id b) s
    fun _ => renamable_of_not_dupRefused hdup
  have hnone₁ : (s.dupRenamed env (s.dupOf order id b)).core id = none := by rw [hcore, hnone]
  obtain ⟨s₂, hnew, hcore₂, hcfg₂⟩ := exec_newAccount hid hnone₁ hcreate
  have hc₂ : s₂.core id = some (Core.created b) := by
    rw [hcore₂, Function.update_self]
  obtain ⟨r, s₃, hexec, hcore₃, hcfg₃, hiff⟩ :=
    exec_coverAccountInfo env hc₂ (not_coverRefused_created hc₂)
  obtain ⟨u, rfl⟩ := hiff.mpr ⟨rfl, hcompl⟩
  rw [hcore₂, Function.update_idem, hcore] at hcore₃
  rw [hcfg₂, config_dupRenamed] at hcfg₃
  have hend : after (recoverAccountWhileIdNotExist env order id b) s
      = after (forDup (s.dupOf order id b) deleteUser) s₃ := by
    unfold recoverAccountWhileIdNotExist after
    rw [exec_bind_ok (exec_get s)]
    simp only
    rw [← dupOf_eq_getAccountByName order b hnone,
      exec_bind_ok (exec_forDup_renameDup hdup), exec_bind, exec_protect, exec_bind_ok hnew]
    change (exec (protect (coverAccountInfo env id b) _ >>= _) s₂).2 = _
    rw [exec_bind, exec_protect, hexec]
  rw [hend]
  apply forDup_deleteUser_recovered hcore₃ hcfg₃ _ hcompl
  intro c hc
  rw [hnone] at hc
  cases hc

end NotExist

/-! ## The administrators after a recovery -/

/-- The core is that of an operable administrator. -/
def Core.Operable (c : Core) : Prop :=
  c.standing.cls = .localAccount ∧
  (c.standing.privilege1 = .admin ∨ c.standing.roleId = RoleType.administrator.value) ∧
  c.standing.enabled = true ∧
  c.standing.loginInterface ≠ LoginInterface.invalid.value ∧
  c.standing.loginInterface ≠ LoginInterface.sftp.value

theorem operable_core_iff (a : Account) :
  a.core.Operable ↔ a.isOperateAdmin = true
  := by
  rw [Account.isOperateAdmin_iff, Account.checkIsEnabledAdmin_iff, and_assoc, and_assoc]
  rfl

theorem operateAdminAt_iff_core (s : State) (id : ℕ) :
  s.OperateAdminAt id ↔ ∃ c, s.core id = some c ∧ c.Operable
  := by
  constructor
  · rintro ⟨a, ha, hop⟩
    exact ⟨a.core, by simp [State.core, ha], (operable_core_iff a).mpr hop⟩
  · rintro ⟨c, hc, hop⟩
    obtain ⟨a, ha, rfl⟩ := Option.map_eq_some_iff.mp hc
    exact ⟨a, ha, (operable_core_iff a).mp hop⟩

/-- After a recovery that is not stopped the administrators are the account itself, if the
record makes it one, and the others that have not been removed. -/
theorem Recovered.hasOperateAdmin_iff {order : List ℕ} {s s' : State} {id : ℕ} {b : BackupRecord}
    {c : Core} (h : Recovered order s id b c s') :
  s'.HasOperateAdmin ↔
    c.Operable ∨ ∃ j, j ≠ id ∧ s.OperateAdminAt j ∧ ¬ DupRemoved order s id b j
  := by
  rw [State.hasOperateAdmin_iff_exists]
  constructor
  · rintro ⟨j, hj⟩
    by_cases hjd : j = id
    · subst hjd
      obtain ⟨c', hc', hop⟩ := (operateAdminAt_iff_core _ _).mp hj
      rw [h.self, Option.some_inj] at hc'
      rw [← hc'] at hop
      exact Or.inl hop
    · refine Or.inr ⟨j, hjd, ?_⟩
      have hrem : ¬ DupRemoved order s id b j := by
        intro hrem
        obtain ⟨c', hc', -⟩ := (operateAdminAt_iff_core _ _).mp hj
        rw [h.removed j hjd hrem] at hc'
        cases hc'
      exact ⟨(State.operateAdminAt_congr (h.others j hjd hrem)).mp hj, hrem⟩
  · rintro (hop | ⟨j, hjd, hj, hrem⟩)
    · exact ⟨id, (operateAdminAt_iff_core _ _).mpr ⟨c, h.self, hop⟩⟩
    · exact ⟨j, (State.operateAdminAt_congr (h.others j hjd hrem)).mpr hj⟩

/-- The record is one of an operable administrator. -/
def BackupRecord.Operable (b : BackupRecord) : Prop :=
  (b.ipmiData.privilege1 = .admin ∨ b.accountData.roleId = RoleType.administrator.value) ∧
  b.accountData.enabled = true ∧
  b.accountData.loginInterface ≠ LoginInterface.invalid.value ∧
  b.accountData.loginInterface ≠ LoginInterface.sftp.value

theorem operable_covered_iff (b : BackupRecord) (c : Core) :
  (c.covered b).Operable ↔ c.standing.cls = .localAccount ∧ b.Operable
  := Iff.rfl

/-- The recovery of the account is stopped or undone. -/
def RecoverRefused (env : Env) (order : List ℕ) (s : State) (id : ℕ) (b : BackupRecord) : Prop :=
  (s.accounts.lookup id = none ∧ NotExistRefused env order s id b) ∨
    (s.accounts.lookup id ≠ none ∧ ExistRefused env order s id b)

/-- The account is not there, or it is one of those that administrators can be. -/
def LocalOrAbsent (s : State) (id : ℕ) : Prop :=
  ∀ a, s.accounts.lookup id = some a → a.cls = .localAccount

theorem exec_recoverAccount {env : Env} {order : List ℕ} {s : State} {id : ℕ} {b : BackupRecord}
    (hid : 2 ≤ id ∧ id ≤ 17) (hb : s.backup.lookup id = some b) :
  exec (recoverAccount env order id) s =
    if (s.accounts.lookup id).isNone then exec (recoverAccountWhileIdNotExist env order id b) s
    else exec (recoverAccountWhileIdExist env order id b) s
  := by
  have hrange : (decide (id < 2) || decide (17 < id)) = false := by
    simp only [Bool.or_eq_false_iff, decide_eq_false_iff_not]
    omega
  unfold recoverAccount
  rw [hrange, exec_bind_ok (exec_refuse_false _ s), exec_bind_ok (exec_get s)]
  simp only [hb]
  split_ifs <;> rfl

/-- A recovery leaves an operable administrator exactly if it is stopped, or the record makes
the account one, or there is another one that is not removed for its name. -/
theorem recoverAccount_hasOperateAdmin_iff (env : Env) (order : List ℕ) (s : State) (id : ℕ)
    (b : BackupRecord) (hid : 2 ≤ id ∧ id ≤ 17) (hb : s.backup.lookup id = some b)
    (hs : s.HasOperateAdmin) :
  (after (recoverAccount env order id) s).HasOperateAdmin ↔
    RecoverRefused env order s id b ∨ (LocalOrAbsent s id ∧ b.Operable) ∨
      ∃ j, j ≠ id ∧ s.OperateAdminAt j ∧ ¬ DupRemoved order s id b j
  := by
  unfold after
  rw [exec_recoverAccount hid hb]
  cases hlook : s.accounts.lookup id with
  | none =>
    have hnone : s.core id = none := by simp [State.core, hlook]
    have hlocal : LocalOrAbsent s id := by
      intro a ha
      rw [hlook] at ha
      cases ha
    rw [if_pos Option.isNone_none]
    by_cases href : NotExistRefused env order s id b
    · have hkeep : (after (recoverAccountWhileIdNotExist env order id b) s).HasOperateAdmin := by
        rw [State.hasOperateAdmin_iff_exists] at hs ⊢
        obtain ⟨j, hj⟩ := hs
        have hcore := recoverAccountWhileIdNotExist_refused hid hnone href
        exact ⟨j, (State.operateAdminAt_congr (congrFun hcore j)).mpr hj⟩
      exact iff_of_true hkeep (Or.inl (Or.inl ⟨hlook, href⟩))
    · have hrefused : ¬ RecoverRefused env order s id b := by
        rintro (⟨-, h⟩ | ⟨h, -⟩)
        · exact href h
        · exact h hlook
      rw [or_iff_right hrefused]
      refine (recoverAccountWhileIdNotExist_recovered hid hnone href).hasOperateAdmin_iff.trans ?_
      have hcls : (Core.created b).standing.cls = .localAccount := rfl
      rw [operable_covered_iff, and_iff_right hcls, and_iff_right hlocal]
  | some a =>
    have hc : s.core id = some a.core := by simp [State.core, hlook]
    have hlocal : LocalOrAbsent s id ↔ a.cls = .localAccount := by
      unfold LocalOrAbsent
      rw [hlook]
      simp
    rw [if_neg (by simp)]
    by_cases href : ExistRefused env order s id b
    · have hkeep : (after (recoverAccountWhileIdExist env order id b) s).HasOperateAdmin := by
        rw [State.hasOperateAdmin_iff_exists] at hs ⊢
        obtain ⟨j, hj⟩ := hs
        have hcore := recoverAccountWhileIdExist_refused href
        exact ⟨j, (State.operateAdminAt_congr (congrFun hcore j)).mpr hj⟩
      exact iff_of_true hkeep (Or.inl (Or.inr ⟨by simp [hlook], href⟩))
    · have hrefused : ¬ RecoverRefused env order s id b := by
        rintro (⟨h, -⟩ | ⟨-, h⟩)
        · rw [hlook] at h
          cases h
        · exact href h
      rw [or_iff_right hrefused]
      refine (recoverAccountWhileIdExist_recovered hc href).hasOperateAdmin_iff.trans ?_
      rw [operable_covered_iff, hlocal]
      rfl

/-! ### A record of a disabled administrator -/

/-- The end of a run of calls. -/
def runCalls (s : State) (calls : List AdminCall) : State := calls.foldl adminStep s

/-- Two administrators, of which the second logs in by the web alone. -/
def twoAdmins : State :=
  plainState [(2, plainAccount "Administrator" 4 223), (3, plainAccount "root" 4 1)]

/-- The record of the second administrator is written while it is disabled; then it is
enabled again. -/
def enabledAgain : State :=
  runCalls
    (after (backupAccountInfo plainEnv) (runCalls twoAdmins [⟨plainEnv, .setEnabled 3 false⟩]))
    [⟨plainEnv, .setEnabled 3 true⟩]

/-- Recovering the last administrator from a record of before disables it. -/
theorem recovery_leaves_no_admin :
  ¬ ∀ (s : State) (before later : List AdminCall) (env : Env) (order : List ℕ) (id : ℕ),
    2 ≤ id ∧ id ≤ 17 → s.HasOperateAdmin →
    (runCalls (after (backupAccountInfo env) (runCalls s before)) later).HasOperateAdmin →
    (after (recoverAccount env order id)
      (runCalls (after (backupAccountInfo env) (runCalls s before)) later)).HasOperateAdmin
  := by
  intro h
  have hlast := h twoAdmins [⟨plainEnv, .setEnabled 3 false⟩]
    [⟨plainEnv, .setEnabled 3 true⟩, ⟨plainEnv, .setEnabled 2 false⟩] plainEnv [2, 3] 3
    (by decide) ((State.hasOperateAdmin_iff _).mpr (by decide +kernel))
    ((State.hasOperateAdmin_iff _).mpr (by decide +kernel))
  rw [State.hasOperateAdmin_iff] at hlast
  revert hlast
  decide +kernel

/-- While the first administrator is there, the second one can be recovered. -/
theorem recoverAccount_two_admins :
  (after (recoverAccount plainEnv [2, 3] 3) enabledAgain).HasOperateAdmin
  := by
  have hdup : (enabledAgain.backup.lookup 3).map (enabledAgain.dupOf [2, 3] 3) = some none := by
    decide +kernel
  obtain ⟨b, hb, hdup⟩ := Option.map_eq_some_iff.mp hdup
  have hadmin : (enabledAgain.accounts.lookup 2).any Account.isOperateAdmin = true := by
    decide +kernel
  apply (recoverAccount_hasOperateAdmin_iff plainEnv [2, 3] enabledAgain 3 b (by decide) hb
    ((State.hasOperateAdmin_iff _).mpr (by decide +kernel))).mpr
  refine Or.inr (Or.inr ⟨2, by decide, (Option.any_eq_true _ _).mp hadmin, ?_⟩)
  rintro ⟨h, -⟩
  rw [hdup] at h
  cases h

end BmcAccount
