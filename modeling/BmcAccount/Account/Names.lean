import BmcAccount.Account.RecoverAdmin
import BmcAccount.Account.View

/-!
# User names

No two accounts have the same non-empty name. Creating an account and renaming one by
`set_user_name` check that the name is free. A recovery instead renames the account that has
the name in the record to a placeholder, and renames it back when the recovery raises: the
placeholder is not checked to be free, and the account that is recovered may have been given
the name by then.

The proofs follow what the operations do to the names, as a function of identifiers.
-/

namespace BmcAccount

open Raise

/-! ## Setting a user name -/

/-- `is_other_user_has_the_same_name`. -/
def State.isOtherUserHasTheSameName (s : State) (id : ℕ) (name : String) : Bool :=
  name != "" && s.accounts.entries.any fun e => e.1 != id && e.2.data.userName = name

/-- What `set_user_name` also reads: whether the device is being manufactured, and
`AllowedLoginInterfaces` of the policy of local accounts. -/
structure NamingEnv where
  isManufactureMode : Bool
  allowedLoginInterfaces : ℕ

/-- `DEFAULT_INTERFACES`. -/
def defaultInterfaces : ℕ := 223

/-- What `ipmi_and_snmp_new_account` gives `new_account`. -/
def NamingEnv.info (naming : NamingEnv) (id : ℕ) (name : String) : Account.Info where
  id := id
  name := name
  password := ""
  roleId := RoleType.noAccess.value
  interface :=
    if naming.allowedLoginInterfaces < defaultInterfaces then
      naming.allowedLoginInterfaces &&& defaultInterfaces
    else defaultInterfaces
  firstLoginPolicy := some .forcePasswordReset
  oem := false
  isPwdEncrypted := false

/-- `ipmi_and_snmp_new_account`. -/
def ipmiAndSnmpNewAccount (env : Env) (naming : NamingEnv) (id : ℕ) (name : String) :
    M Unit := do
  match env.checkUserName .localUser name with
  | none => throw .indexNil
  | some allowed => do
    refuse (!allowed) .ipmiInvalidFieldRequest
    let s ← get
    refuse (s.isOtherUserHasTheSameName id name) .resourceAlreadyExists
    let _ ← newAccount env (naming.info id name) true
    setEnabled env id false

/-- The renaming of an account by `set_user_name`. -/
def renameAccount (env : Env) (naming : NamingEnv) (id : ℕ) (name : String) : M Unit := do
  match env.checkUserName .localUser name with
  | none => throw .indexNil
  | some allowed => do
    refuse (!allowed) .invalidUserName
    let s ← get
    refuse (s.isOtherUserHasTheSameName id name) .resourceAlreadyExists
    refuse (s.config.snmpV3TrapAccountChangePolicy = 0 && !naming.isManufactureMode
      && id = s.config.snmpV3TrapAccountId
      && s.config.snmpV3TrapAccountLimitPolicy = .notModifiable) .snmpV3TrapUserNameCannotBeChanged
    changeUserName env id name

/-- `set_user_name`, which creates, renames or deletes the account. -/
def setUserName (env : Env) (naming : NamingEnv) (id : ℕ) (name : String) : M Unit := do
  refuse (id < minUserNum || maxUserNum < id) .ipmiInvalidFieldRequest
  let s ← get
  if ((s.accounts.lookup id).map fun a => a.data.userName).getD "" = "" then
    if name = "" then pure () else ipmiAndSnmpNewAccount env naming id name
  else if name = "" then deleteAccount env id false
  else renameAccount env naming id name

/-! ## Names -/

/-- What is followed of an account: its name, whether it can be removed, and whether its class
lets it be renamed. -/
structure NameRow where
  name : String
  hasSnmp : Bool
  renamable : Bool
deriving DecidableEq

/-- The name row of an account. -/
def Account.nameRow (a : Account) : NameRow where
  name := a.data.userName
  hasSnmp := a.snmp.isSome
  renamable := a.cls = .localAccount || a.cls = .oemAccount

/-- The row after a renaming. -/
def NameRow.rename (name : String) (r : NameRow) : NameRow :=
  if r.renamable then { r with name := name } else r

/-- The row with another name, whatever the class. -/
def NameRow.cover (name : String) (r : NameRow) : NameRow := { r with name := name }

/-- The names of the accounts. -/
abbrev Names : Type := ℕ → Option NameRow

/-- No two accounts have the same non-empty name. -/
def UniqueNames (T : Names) : Prop :=
  ∀ i j r r', T i = some r → T j = some r' → r.name = r'.name → r.name ≠ "" → i = j

/-- The name is free, except perhaps for the account `id`. -/
def FreeName (T : Names) (id : ℕ) (name : String) : Prop :=
  ∀ j r, j ≠ id → T j = some r → r.name ≠ name

section Names

variable {T : Names} {id : ℕ} {name : String}

theorem UniqueNames.erase (h : UniqueNames T) :
  UniqueNames (Function.update T id none)
  := by
  intro i j r r' hi hj hname hne
  rcases eq_or_ne i id with rfl | hi'
  · rw [Function.update_self] at hi
    cases hi
  · rcases eq_or_ne j id with rfl | hj'
    · rw [Function.update_self] at hj
      cases hj
    · rw [Function.update_of_ne hi'] at hi
      rw [Function.update_of_ne hj'] at hj
      exact h i j r r' hi hj hname hne

/-- An account may be given a name that no other account has. -/
theorem UniqueNames.update (h : UniqueNames T) {r : NameRow}
    (hfree : r.name ≠ "" → FreeName T id r.name) :
  UniqueNames (Function.update T id (some r))
  := by
  intro i j r₁ r₂ hi hj hname hne
  by_cases hi' : i = id <;> by_cases hj' : j = id
  · rw [hi', hj']
  · rw [hi', Function.update_self] at hi
    rw [Function.update_of_ne hj'] at hj
    obtain rfl := Option.some_inj.mp hi
    exact absurd hname.symm (hfree hne j r₂ hj' hj)
  · rw [Function.update_of_ne hi'] at hi
    rw [hj', Function.update_self] at hj
    obtain rfl := Option.some_inj.mp hj
    rw [hname] at hne
    exact absurd hname (hfree hne i r₁ hi' hi)
  · rw [Function.update_of_ne hi'] at hi
    rw [Function.update_of_ne hj'] at hj
    exact h i j r₁ r₂ hi hj hname hne

end Names

/-! ## What the operations do to the names -/

theorem showsStored_nameRow :
  ShowsStored Account.nameRow
  where
  history _ _ := rfl
  inTable _ _ := rfl
  updatePrivileges env cfg given a := by
    unfold Account.updatePrivileges
    simp only
    split <;> rfl
  updateInactiveUserStartTime env cfg a := by
    unfold Account.updateInactiveUserStartTime
    split
    · split_ifs <;> rfl
    · rfl
  updateDeletable cfg only id a := by
    unfold Account.updateDeletable
    split <;> rfl
  setWithinMinPasswordDaysStatus status a := by
    unfold Account.setWithinMinPasswordDaysStatus
    split <;> rfl

theorem nameRow_setUserName {name : String} {a a' : Account} (h : a.setUserName name = .ok a') :
  a'.nameRow = a.nameRow.rename name
  := by
  unfold Account.setUserName at h
  split at h
  case h_1 hcls | h_2 hcls =>
    split_ifs at h
    cases h
    simp [Account.nameRow, NameRow.rename, hcls]
  case h_3 hlocal hoem =>
    cases h
    have hrenamable : a.nameRow.renamable = false := by
      simp only [Account.nameRow, Bool.or_eq_false_iff, decide_eq_false_iff_not]
      exact ⟨hlocal, hoem⟩
    simp [NameRow.rename, hrenamable]

theorem nameRow_deleteSshPublicKey {env : Env} {a a' : Account}
    (h : a.deleteSshPublicKey env = .ok a') :
  a'.nameRow = a.nameRow
  := by
  unfold Account.deleteSshPublicKey at h
  split at h
  all_goals first
    | split_ifs at h
    | skip
  all_goals
    cases h
    rfl

theorem nameRow_recoverDefault {env : Env} {cfg : Config} {a a' : Account}
    (h : a.recoverDefault env cfg = .ok a') :
  a'.nameRow = a.nameRow
  := by
  unfold Account.recoverDefault at h
  split at h
  · cases h
    rw [showsStored_nameRow.updatePrivileges]
    rfl
  · cases h

theorem nameRow_setEnabled {env : Env} {enabled : Bool} {a a' : Account}
    (h : a.setEnabled env enabled = .ok a') :
  a'.nameRow = a.nameRow
  := by
  unfold Account.setEnabled at h
  split at h
  · split_ifs at h
    · cases hc : a.checkIpmiPassword env with
      | error e =>
        rw [hc] at h
        cases h
      | ok u =>
        rw [hc] at h
        cases h
        rfl
    · cases h
      rfl
  · split_ifs at h
    cases h
    rfl
  · cases h
    rfl

section Operations

variable {T : Names} {id : ℕ} {name : String}

/-- The names after a renaming. -/
def renamed (T : Names) (id : ℕ) (name : String) : Names :=
  Function.update T id ((T id).map (NameRow.rename name))

/-- A renaming that raises may have changed the name before. -/
theorem changeUserName_names (env : Env) :
  Spec (ViewIs Account.nameRow T) (changeUserName env id name)
    (fun _ => ViewIs Account.nameRow (renamed T id name))
    (fun s => ViewIs Account.nameRow T s ∨ ViewIs Account.nameRow (renamed T id name) s)
  := by
  unfold changeUserName
  have hget : Keeps (ViewIs Account.nameRow T) (getAccount id .invalidAccountId) :=
    getAccount_keeps
  apply Spec.bind (hget.weaken (fun _ h => h) (fun _ _ h => h) fun _ h => Or.inl h)
  intro a
  cases env.checkUserName a.data.accountType name with
  | none => exact Spec.throw fun _ h => Or.inl h
  | some allowed =>
    apply Spec.bind (Spec.refuse (fun _ h => Or.inl h) fun _ h _ => h)
    intro _
    have hset := @callAccount_view _ Account.nameRow T id (fun _ => Account.setUserName name)
      (NameRow.rename name) fun _ _ _ h => nameRow_setUserName h
    apply Spec.bind (hset.weaken (fun _ h => h) (fun _ _ h => h) fun _ h => Or.inl h)
    intro _
    have hkey : Keeps (ViewIs Account.nameRow (renamed T id name))
        (callAccount id fun _ => Account.deleteSshPublicKey env) :=
      callAccount_keeps_view fun _ _ _ h => nameRow_deleteSshPublicKey h
    apply Spec.bind (hkey.weaken (fun _ h => h) (fun _ _ h => h) fun _ h => Or.inr h)
    intro _
    exact updateAccount_keeps_view fun _ _ => showsStored_nameRow.updateInactiveUserStartTime ..

theorem setEnabled_names (env : Env) (status : Bool) :
  Keeps (ViewIs Account.nameRow T) (setEnabled env id status)
  := by
  unfold setEnabled
  apply Keeps.bind refuseLastOperateAdmin_keeps
  intro _
  apply Keeps.bind refuseEmergencyUser_keeps
  intro _
  apply Keeps.bind (callAccount_keeps_view fun _ _ _ h => nameRow_setEnabled h)
  intro _
  apply Keeps.onlyIf
  exact updateAccount_keeps_view fun _ _ => showsStored_nameRow.updateInactiveUserStartTime ..

theorem recoverInterChassisAccountToDefault_names (env : Env) :
  Keeps (ViewIs Account.nameRow T) (recoverInterChassisAccountToDefault env)
  := by
  unfold recoverInterChassisAccountToDefault
  apply Keeps.bind (callAccount_keeps_view fun _ _ _ h => nameRow_recoverDefault h)
  intro _
  apply Keeps.bind getAccount_keeps
  intro _
  apply Keeps.onlyIf
  apply Keeps.bind Keeps.refuse
  intro _
  exact callAccount_keeps_view fun _ _ _ h => nameRow_deleteSshPublicKey h

/-- A deletion removes the account or leaves the names as they are. -/
theorem deleteAccount_names (env : Env) (skipped : Bool) :
  Spec (ViewIs Account.nameRow T) (deleteAccount env id skipped)
    (fun _ s => ViewIs Account.nameRow T s
      ∨ ViewIs Account.nameRow (Function.update T id none) s)
    (ViewIs Account.nameRow T)
  := by
  unfold deleteAccount
  apply Spec.ite
  · intro _
    have hdefault := recoverInterChassisAccountToDefault_names (T := T) env
    exact hdefault.weaken (fun _ h => h) (fun _ _ h => Or.inl h) fun _ h => h
  · intro _
    apply Spec.bind getAccount_keeps
    intro _
    apply Spec.bind Keeps.refuse
    intro _
    apply Spec.bind Keeps.refuse
    intro _
    apply Spec.bind refuseEmergencyUser_keeps
    intro _
    apply Spec.bind refuseLastOperateAdmin_keeps
    intro _
    apply Spec.bind leaveTrapAccount_view
    intro _
    apply Spec.bind Keeps.refuse
    intro _
    apply Spec.bind Keeps.refuse
    intro _
    exact (removeAccount_view showsStored_nameRow).weaken (fun _ h => h) (fun _ _ h => Or.inr h)
      fun _ h => h.1

/-- What `init` makes of the name. -/
theorem nameRow_init {env : Env} {info : Account.Info} {a : Account}
    (h : Account.init env info = .ok a) :
  a.nameRow = ⟨info.name, true, true⟩
  := by
  unfold Account.init at h
  split at h
  · cases h
  · split at h
    · cases h
    · cases h
      cases hoem : info.oem <;>
        simp [Account.nameRow, Account.initial, Account.blank, hoem]

theorem freeName_of_checkUsernameExist {s : State} (h : s.checkUsernameExist name = false) :
  FreeName (s.view Account.nameRow) id name
  := by
  intro j r _ hj hname
  obtain ⟨a, ha, rfl⟩ := Option.map_eq_some_iff.mp hj
  have hmem := Table.mem_entries_iff.mpr ha
  have hne := List.any_eq_false.mp h _ hmem
  exact hne (decide_eq_true hname)

theorem freeName_of_isOtherUserHasTheSameName {s : State} (hname : name ≠ "")
    (h : s.isOtherUserHasTheSameName id name = false) :
  FreeName (s.view Account.nameRow) id name
  := by
  intro j r hj hrow hr
  obtain ⟨a, ha, rfl⟩ := Option.map_eq_some_iff.mp hrow
  have hmem := Table.mem_entries_iff.mpr ha
  have hany : (s.accounts.entries.any fun e => e.1 != id && e.2.data.userName = name) = false := by
    simpa [State.isOtherUserHasTheSameName, hname] using h
  have hne := List.any_eq_false.mp hany _ hmem
  have hr' : a.data.userName = name := hr
  apply hne
  simp [hj, hr']

/-- A new account has a free identifier and a name that no account has. -/
theorem newAccount_names (env : Env) (info : Account.Info) (isIpmiOrSnmp : Bool) :
  Spec (ViewIs Account.nameRow T) (newAccount env info isIpmiOrSnmp)
    (fun i s => T i = none ∧ FreeName T i info.name ∧ (info.id ≠ 0 → i = info.id)
      ∧ ViewIs Account.nameRow (Function.update T i (some ⟨info.name, true, true⟩)) s)
    (ViewIs Account.nameRow T)
  := by
  unfold newAccount
  cases env.checkUserName (if info.oem then .oem else .localUser) info.name with
  | none => exact Spec.throw fun _ h => h
  | some allowed =>
    apply Spec.bind Keeps.refuse
    intro _
    apply Spec.bind Keeps.refuse
    intro _
    apply Spec.bind Spec.get
    intro s
    cases hid : getValidAccountId s info.id info.oem with
    | error e => exact Spec.throw fun _ h => h.2
    | ok i =>
      apply Spec.bind (Q := fun _ s' => s' = s ∧ ViewIs Account.nameRow T s'
        ∧ FreeName T i info.name)
      · apply Spec.refuse
        · exact fun _ h => h.2
        · rintro s' ⟨rfl, hs⟩ hexist
          refine ⟨rfl, hs, ?_⟩
          rw [← hs]
          exact freeName_of_checkUsernameExist hexist
      · intro _
        rintro s' ⟨rfl, hs, hfree⟩
        have hnone : T i = none := by
          rw [← hs]
          exact State.view_eq_none_iff.mpr (lookup_of_getValidAccountId hid)
        have hnew := @newAccountToDbAndMdb_view_or _ _ T showsStored_nameRow env i info _
          (fun _ ha => nameRow_init ha) isIpmiOrSnmp
        have hspec : Spec (ViewIs Account.nameRow T)
            (do newAccountToDbAndMdb env i info isIpmiOrSnmp; pure i)
            (fun i s => T i = none ∧ FreeName T i info.name ∧ (info.id ≠ 0 → i = info.id)
              ∧ ViewIs Account.nameRow (Function.update T i (some ⟨info.name, true, true⟩)) s)
            (ViewIs Account.nameRow T) := by
          apply Spec.bind hnew
          intro _
          apply Spec.pure
          intro s hs
          exact ⟨hnone, hfree, fun hzero => getValidAccountId_eq_of_ne hzero hid, hs⟩
        exact hspec s' hs

/-! ### Recovery -/

/-- The names after an account has been covered. -/
def covered (T : Names) (id : ℕ) (name : String) : Names :=
  Function.update T id ((T id).map (NameRow.cover name))

/-- The channels are recovered unless the record is incomplete. -/
theorem recoverIpmiChannelData_spec {I : State → Prop}
    (hI : ∀ s s' : State, s'.accounts = s.accounts → I s → I s') (b : BackupRecord) :
  Spec I (recoverIpmiChannelData id b) (fun _ => I) (fun s => I s ∧ ¬ b.Complete)
  := by
  unfold recoverIpmiChannelData BackupRecord.Complete
  cases b.ipmiChannelData with
  | none =>
    intro s hs
    exact hI s _ rfl hs
  | some l =>
    simp only [Option.some.injEq, forall_eq']
    induction l with
    | nil =>
      apply Spec.pure
      exact fun _ hs => hs
    | cons c l ih =>
      cases c with
      | none =>
        apply Spec.bind (Q := fun _ => I)
        · apply Spec.throw
          intro s hs
          exact ⟨hs, by simp⟩
        · exact fun _ => ih.weaken (fun _ h => h) (fun _ _ h => h) fun _ h => ⟨h.1, by simp⟩
      | some c =>
        apply Spec.bind (Q := fun _ => I)
        · exact Spec.modify fun s hs => hI s _ rfl hs
        · intro _
          apply ih.weaken (fun _ h => h) (fun _ _ h => h)
          intro s h
          exact ⟨h.1, by simpa using h.2⟩

theorem recoverSnmpData_names (b : BackupRecord) :
  Spec (ViewIs Account.nameRow T) (callAccount id fun _ => Account.recoverSnmpData b)
    (fun _ => ViewIs Account.nameRow T)
    (fun s => ViewIs Account.nameRow T s ∧ ∀ r, T id = some r → r.hasSnmp = false)
  := by
  intro s hs
  cases ha : s.accounts.lookup id with
  | none =>
    have hnone : T id = none := by
      rw [← hs]
      exact State.view_eq_none_iff.mpr ha
    unfold callAccount
    rw [exec_bind_ok (exec_get s)]
    simp only [ha]
    exact ⟨hs, by simp [hnone]⟩
  | some a =>
    have hrow : T id = some a.nameRow := by
      rw [← hs, State.view, ha, Option.map_some]
    rw [exec_callAccount ha]
    cases hsnmp : a.snmp with
    | none =>
      simp only [Account.recoverSnmpData, hsnmp]
      refine ⟨hs, ?_⟩
      intro r hr
      rw [hrow] at hr
      rw [← Option.some_inj.mp hr]
      simp [Account.nameRow, hsnmp]
    | some r =>
      simp only [Account.recoverSnmpData, hsnmp]
      apply (State.view_modifyAccount_same _).trans hs
      intro a' ha'
      rw [ha] at ha'
      rw [← Option.some_inj.mp ha']
      simp [Account.nameRow, hsnmp]

/-- The guard that refuses a record leaves the names as they are; what raises after it does so
because the account has no SNMP row or the record is incomplete. -/
theorem coverAccountInfo_names (env : Env) (b : BackupRecord) :
  Spec (ViewIs Account.nameRow T) (coverAccountInfo env id b)
    (fun _ => ViewIs Account.nameRow (covered T id b.accountData.userName))
    (fun s => ViewIs Account.nameRow T s
      ∨ (ViewIs Account.nameRow (covered T id b.accountData.userName) s
        ∧ ((∀ r, T id = some r → r.hasSnmp = false) ∨ ¬ b.Complete)))
  := by
  have hsnmp : ∀ r, T id = some r →
      covered T id b.accountData.userName id = some (r.cover b.accountData.userName) := by
    intro r hr
    simp [covered, hr]
  unfold coverAccountInfo
  have hget : Keeps (ViewIs Account.nameRow T) (getAccount id .invalidAccountId) :=
    getAccount_keeps
  apply Spec.bind (hget.weaken (fun _ h => h) (fun _ _ h => h) fun _ h => Or.inl h)
  intro a
  have hguard : Keeps (ViewIs Account.nameRow T) (refuseLastOperateAdmin
      (a.data.roleId = RoleType.administrator.value
        && b.accountData.roleId != RoleType.administrator.value) id .actionNotSupported) :=
    refuseLastOperateAdmin_keeps
  apply Spec.bind (hguard.weaken (fun _ h => h) (fun _ _ h => h) fun _ h => Or.inl h)
  intro _
  apply Spec.bind (Q := fun _ => ViewIs Account.nameRow (covered T id b.accountData.userName))
  · unfold recover
    apply Spec.bind (updateAccount_view (g := NameRow.cover b.accountData.userName)
      fun _ _ => rfl)
    intro _
    have hrow := @recoverSnmpData_names (covered T id b.accountData.userName) id b
    apply Spec.bind (hrow.weaken (fun _ h => h) (fun _ _ h => h) ?_)
    · intro _
      apply (recoverIpmiChannelData_spec _ b).weaken (fun _ h => h) (fun _ _ h => h)
      · exact fun _ h => Or.inr ⟨h.1, Or.inr h.2⟩
      · intro s s' h hs
        unfold ViewIs State.view at *
        rw [h, hs]
    · intro s h
      refine Or.inr ⟨h.1, Or.inl ?_⟩
      intro r hr
      have hfalse := h.2 (r.cover b.accountData.userName) (hsnmp r hr)
      exact hfalse
  · intro _
    exact updateAccount_keeps_view fun _ _ => showsStored_nameRow.updatePrivileges ..

theorem forceDeleteAccount_names :
  Spec (ViewIs Account.nameRow T) (forceDeleteAccount id)
    (fun _ => ViewIs Account.nameRow (Function.update T id none))
    (fun s => ViewIs Account.nameRow T s ∧ ∀ r, T id = some r → r.hasSnmp = false)
  := by
  have hraised : ∀ s : State, ViewIs Account.nameRow T s →
      (∀ a, s.accounts.lookup id = some a → a.snmp = none) →
      ∀ r, T id = some r → r.hasSnmp = false := by
    intro s hs h r hr
    rw [← hs] at hr
    obtain ⟨a, ha, rfl⟩ := Option.map_eq_some_iff.mp hr
    simp [Account.nameRow, h a ha]
  unfold forceDeleteAccount
  apply Spec.bind (Q := fun _ => ViewIs Account.nameRow T)
  · intro s hs
    cases ha : s.accounts.lookup id with
    | none =>
      unfold getAccount
      rw [exec_bind_ok (exec_get s)]
      simp only [ha]
      exact ⟨hs, hraised s hs (by simp [ha])⟩
    | some a =>
      rw [exec_getAccount ha]
      exact hs
  · intro _
    exact (removeAccount_view showsStored_nameRow).weaken (fun _ h => h) (fun _ _ h => h)
      fun s h => ⟨h.1, hraised s h.1 h.2⟩

theorem deleteUser_names :
  Spec (ViewIs Account.nameRow T) (deleteUser id)
    (fun _ => ViewIs Account.nameRow (Function.update T id none))
    (fun s => ViewIs Account.nameRow T s ∧ ∀ r, T id = some r → r.hasSnmp = false)
  := by
  unfold deleteUser
  apply Spec.bind (Q := fun _ => ViewIs Account.nameRow T)
  · exact modify_view fun _ => rfl
  · exact fun _ => forceDeleteAccount_names

theorem renameDup_names (env : Env) (b : BackupRecord) :
  Spec (ViewIs Account.nameRow T) (renameDup env b id)
    (fun _ => ViewIs Account.nameRow (renamed T id deleteUserName))
    (fun s => ViewIs Account.nameRow T s
      ∨ ViewIs Account.nameRow (renamed T id deleteUserName) s)
  := by
  unfold renameDup
  have hguard : Keeps (ViewIs Account.nameRow T) (refuseLastOperateAdmin
      (b.accountData.roleId != RoleType.administrator.value) id .actionNotSupported) :=
    refuseLastOperateAdmin_keeps
  apply Spec.bind (hguard.weaken (fun _ h => h) (fun _ _ h => h) fun _ h => Or.inl h)
  intro _
  exact changeUserName_names env

/-! ### The two kinds of recovery -/

/-- The state has unique names. -/
abbrev Unique (s : State) : Prop := UniqueNames (s.view Account.nameRow)

theorem ViewIs.unique {s : State} (h : ViewIs Account.nameRow T s) (hT : UniqueNames T) :
  Unique s
  := by
  unfold Unique
  rwa [h]

/-- The account `id` that another account is to be given the name of. -/
structure Clash (T : Names) (id : ℕ) (name : String) (r : NameRow) : Prop where
  row : T id = some r
  name_eq : r.name = name

theorem Clash.renamed_back {r : NameRow} (h : Clash T id name r) :
  renamed (renamed T id deleteUserName) id name = T
  := by
  have hback : (r.rename deleteUserName).rename name = r := by
    have hname := h.name_eq
    cases hr : r.renamable
    · simp [NameRow.rename, hr]
    · obtain ⟨_, _, _⟩ := r
      simp_all [NameRow.rename]
  unfold renamed
  rw [Function.update_self, Function.update_idem, h.row]
  simp only [Option.map_some, hback]
  rw [← h.row, Function.update_eq_self]

/-- An account may be renamed to a name that no other account has. -/
theorem UniqueNames.renamed (hT : UniqueNames T) (hfree : FreeName T id name) :
  UniqueNames (renamed T id name)
  := by
  unfold BmcAccount.renamed
  cases hrow : T id with
  | none => exact hT.erase
  | some r =>
    rw [Option.map_some]
    cases hr : r.renamable with
    | true =>
      apply hT.update
      simpa [NameRow.rename, hr] using fun _ => hfree
    | false =>
      have hsame : r.rename name = r := by simp [NameRow.rename, hr]
      rw [hsame, ← hrow, Function.update_eq_self]
      exact hT

/-- The name that is handed over is free once its owner has given it up. -/
theorem Clash.freeName {r : NameRow} {d : ℕ} (h : Clash T d name r) (hT : UniqueNames T)
    (hname : name ≠ "") {i : ℕ} {U : Names} (hU : ∀ j, j ≠ d → j ≠ i → U j = T j)
    (hd : ∀ r', U d = some r' → r'.name ≠ name) :
  FreeName U i name
  := by
  intro j r' hj hrow hr'
  by_cases hjd : j = d
  · subst hjd
    exact hd r' hrow hr'
  · rw [hU j hjd hj] at hrow
    apply hjd
    refine hT j d r' r hrow h.row (hr'.trans h.name_eq.symm) ?_
    rwa [hr']

/-- The account of the same name gets its name back, and the error is raised again. -/
theorem rollback_names (env : Env) {r : NameRow} (h : Clash T id name r) (hT : UniqueNames T)
    (hfree : FreeName T id deleteUserName) {Q : Unit → State → Prop} (e : Err) :
  Spec (ViewIs Account.nameRow (renamed T id deleteUserName))
    (do forDup (some id) (fun d => changeUserName env d name); throw e : M Unit) Q Unique
  := by
  have hback := @changeUserName_names (renamed T id deleteUserName) id name env
  rw [h.renamed_back] at hback
  apply Spec.bind (Q := fun _ => Unique)
  · apply hback.weaken (fun _ h => h)
    · exact fun _ _ h => h.unique hT
    · rintro s (hs | hs)
      · exact hs.unique (hT.renamed hfree)
      · exact hs.unique hT
  · exact fun _ => Spec.throw fun _ h => h

end Operations

/-- Every account is visited: the order is one in which the source may list the accounts. -/
def Visits (order : List ℕ) (s : State) : Prop :=
  ∀ id, s.accounts.lookup id ≠ none → id ∈ order

section Recovery

variable {env : Env} {order : List ℕ} {s : State} {id d : ℕ} {b : BackupRecord}

theorem clash_of_dupOf (h : s.dupOf order id b = some d) :
  d ≠ id ∧ ∃ r, Clash (s.view Account.nameRow) d b.accountData.userName r
  := by
  unfold State.dupOf at h
  rw [Option.filter_eq_some_iff] at h
  refine ⟨by simpa using h.2, ?_⟩
  obtain ⟨a, ha, hname⟩ := userName_of_getAccountByName h.1
  exact ⟨a.nameRow, by rw [State.view, ha, Option.map_some], hname⟩

theorem freeName_of_dupOf_eq_none (hs : Unique s) (hvisits : Visits order s)
    (h : s.dupOf order id b = none) (hname : b.accountData.userName ≠ "") :
  FreeName (s.view Account.nameRow) id b.accountData.userName
  := by
  intro j r hj hrow hr
  obtain ⟨a, ha, rfl⟩ := Option.map_eq_some_iff.mp hrow
  unfold State.dupOf at h
  cases hfind : s.getAccountByName order b.accountData.userName with
  | none =>
    have hnone := List.find?_eq_none.mp hfind j (hvisits j (by simp [ha]))
    apply hnone
    rw [ha]
    exact decide_eq_true hr
  | some k =>
    rw [hfind, Option.filter_eq_none_iff] at h
    have hk : k = id := by simpa using h
    subst hk
    obtain ⟨a', ha', hname'⟩ := userName_of_getAccountByName hfind
    apply hj
    refine hs j k a.nameRow a'.nameRow hrow (by rw [State.view, ha', Option.map_some])
      (hr.trans hname'.symm) ?_
    rwa [hr]

/-- The name of `d` can be handed over to the account `id`: no other account is called like the
placeholder, and if `id` is there it is covered without raising, `d` can be renamed, and `d`
can be removed if its own name is the placeholder. -/
structure HandoverSafe (s : State) (id : ℕ) (b : BackupRecord) (d : ℕ) : Prop where
  placeholder : FreeName (s.view Account.nameRow) d deleteUserName
  covers : ∀ r, s.view Account.nameRow id = some r → r.hasSnmp = true ∧ b.Complete
  renames : ∀ r, s.view Account.nameRow id ≠ none → s.view Account.nameRow d = some r →
    r.renamable = true ∧ (b.accountData.userName = deleteUserName → r.hasSnmp = true)

theorem recoverAccountWhileIdExist_unique (hs : Unique s) (hvisits : Visits order s)
    {r₀ : NameRow} (hid : s.view Account.nameRow id = some r₀)
    (hsafe : ∀ d, s.dupOf order id b = some d → HandoverSafe s id b d) :
  Unique (after (recoverAccountWhileIdExist env order id b) s)
  := by
  have hcovered : ∀ T : Names, T id = some r₀ → covered T id b.accountData.userName
      = Function.update T id (some (r₀.cover b.accountData.userName)) := by
    intro T hT
    unfold covered
    rw [hT, Option.map_some]
  unfold after recoverAccountWhileIdExist
  rw [exec_bind_ok (exec_get s)]
  cases hdup : s.dupOf order id b with
  | none =>
    have hC : UniqueNames (covered (s.view Account.nameRow) id b.accountData.userName) := by
      rw [hcovered _ hid]
      exact hs.update fun hname => freeName_of_dupOf_eq_none hs hvisits hdup hname
    apply Spec.after (P := ViewIs Account.nameRow (s.view Account.nameRow)) _ rfl
    apply Spec.bind (Q := fun _ => ViewIs Account.nameRow (s.view Account.nameRow))
    · apply Spec.pure
      exact fun _ h => h
    intro _
    apply Spec.bind (Q := fun _ => Unique)
    · have hcover := @coverAccountInfo_names (s.view Account.nameRow) id env b
      apply Spec.protect (F := Unique)
      · apply hcover.weaken (fun _ h => h)
        · exact fun _ _ h => h.unique hC
        · rintro s' (h | ⟨h, -⟩)
          · exact h.unique hs
          · exact h.unique hC
      · intro e
        apply Keeps.bind Keeps.pure
        exact fun _ => Keeps.throw
    · exact fun _ => Keeps.pure
  | some d =>
    obtain ⟨hne, r, hclash⟩ := clash_of_dupOf hdup
    obtain ⟨hfree, hcovers, hrenames⟩ := hsafe d hdup
    obtain ⟨hrenamable, hplaceholder⟩ := hrenames r (by simp [hid]) hclash.row
    have hT₁ := UniqueNames.renamed hs hfree
    have hid₁ : renamed (s.view Account.nameRow) d deleteUserName id = some r₀ := by
      rw [renamed, Function.update_of_ne hne.symm, hid]
    have hd₁ : covered (renamed (s.view Account.nameRow) d deleteUserName) id
        b.accountData.userName d = some (r.rename deleteUserName) := by
      rw [hcovered _ hid₁, Function.update_of_ne hne, renamed, Function.update_self, hclash.row,
        Option.map_some]
    have hothers : ∀ j, j ≠ d → j ≠ id →
        renamed (s.view Account.nameRow) d deleteUserName j = s.view Account.nameRow j := by
      intro j hj _
      rw [renamed, Function.update_of_ne hj]
    have hkept : b.accountData.userName ≠ deleteUserName →
        UniqueNames (covered (renamed (s.view Account.nameRow) d deleteUserName) id
          b.accountData.userName) := by
      intro hname
      rw [hcovered _ hid₁]
      apply hT₁.update
      intro hempty
      apply hclash.freeName hs hempty hothers
      intro r' hr'
      rw [renamed, Function.update_self, hclash.row, Option.map_some, Option.some_inj] at hr'
      rw [← hr', NameRow.rename, if_pos hrenamable]
      exact hname.symm
    have hremoved : UniqueNames (Function.update (covered
        (renamed (s.view Account.nameRow) d deleteUserName) id b.accountData.userName) d none) := by
      rw [hcovered _ hid₁, Function.update_comm hne.symm]
      apply (hT₁.erase).update
      intro hempty
      apply hclash.freeName hs hempty
      · intro j hj hj'
        rw [Function.update_of_ne hj, hothers j hj hj']
      · intro r' hr'
        rw [Function.update_self] at hr'
        cases hr'
    apply Spec.after (P := ViewIs Account.nameRow (s.view Account.nameRow)) _ rfl
    have hrename := @renameDup_names (s.view Account.nameRow) d env b
    apply Spec.bind (hrename.weaken (fun _ h => h) (fun _ _ h => h) ?_)
    · intro _
      have hcover := @coverAccountInfo_names
        (renamed (s.view Account.nameRow) d deleteUserName) id env b
      apply Spec.bind (Q := fun _ => ViewIs Account.nameRow (covered
        (renamed (s.view Account.nameRow) d deleteUserName) id b.accountData.userName))
      · apply Spec.protect (F := ViewIs Account.nameRow
          (renamed (s.view Account.nameRow) d deleteUserName))
        · apply hcover.weaken (fun _ h => h) (fun _ _ h => h)
          rintro s' (h | ⟨-, hsnmp | hcomplete⟩)
          · exact h
          · have hfalse := hsnmp r₀ hid₁
            rw [(hcovers r₀ hid).1] at hfalse
            cases hfalse
          · exact absurd (hcovers r₀ hid).2 hcomplete
        · exact fun e => rollback_names env hclash hs hfree e
      · intro _
        apply deleteUser_names.weaken (fun _ h => h)
        · exact fun _ _ h => h.unique hremoved
        · intro s' h
          apply h.1.unique (hkept _)
          intro hname
          have hfalse := h.2 _ hd₁
          rw [NameRow.rename, if_pos hrenamable] at hfalse
          rw [hplaceholder hname] at hfalse
          cases hfalse
    · rintro s' (h | h)
      · exact h.unique hs
      · exact h.unique hT₁

/-- Removing the account of the same name keeps the names unique, whether it raises or not. -/
theorem forDup_deleteUser_unique {U : Names} (hU : UniqueNames U) (dup : Option ℕ) :
  Spec (ViewIs Account.nameRow U) (forDup dup deleteUser) (fun _ => Unique) Unique
  := by
  cases dup with
  | none =>
    apply Spec.pure
    exact fun _ h => h.unique hU
  | some d =>
    apply deleteUser_names.weaken (fun _ h => h)
    · exact fun _ _ h => h.unique hU.erase
    · exact fun _ h => h.1.unique hU

/-- An account is created and covered; where that raises, the names are those of `T` again
before the rest of the handler runs. -/
theorem create_unique {T : Names} (hT : UniqueNames T) (hrange : id ≠ 0) (hid : T id = none)
    {back : Err → M Unit} {dup : Option ℕ}
    (hback : ∀ e Q, Spec (ViewIs Account.nameRow T) (back e) Q Unique) :
  Spec (ViewIs Account.nameRow T) (do
      protect (do let _ ← newAccount env (b.info id) true) back
      protect (coverAccountInfo env id b) fun e => do
        forceDeleteAccount id
        back e
      forDup dup deleteUser) (fun _ => Unique) Unique
  := by
  let T₂ : Names := Function.update T id (some ⟨b.accountData.userName, true, true⟩)
  have hid₂ : T₂ id = some ⟨b.accountData.userName, true, true⟩ := Function.update_self ..
  have hcovered : covered T₂ id b.accountData.userName = T₂ := by
    unfold covered
    rw [hid₂, Option.map_some]
    exact Function.update_eq_iff.mpr ⟨hid₂.symm, fun _ _ => rfl⟩
  have herased : Function.update T₂ id none = T := by
    rw [Function.update_idem, ← hid, Function.update_eq_self]
  apply Spec.bind (Q := fun _ s => ViewIs Account.nameRow T₂ s ∧ UniqueNames T₂)
  · apply Spec.protect (F := ViewIs Account.nameRow T)
    · apply Spec.bind (newAccount_names env (b.info id) true)
      intro i
      apply Spec.pure
      rintro s ⟨-, hfree, hi, hview⟩
      obtain rfl : i = id := hi hrange
      exact ⟨hview, hT.update fun _ => hfree⟩
    · exact fun e => hback e _
  · intro _
    apply Spec.bind (Q := fun _ s => ViewIs Account.nameRow T₂ s ∧ UniqueNames T₂)
    · have hcover := @coverAccountInfo_names T₂ id env b
      rw [hcovered] at hcover
      have hboth : Spec (fun s => ViewIs Account.nameRow T₂ s ∧ UniqueNames T₂)
          (coverAccountInfo env id b) (fun _ s => ViewIs Account.nameRow T₂ s ∧ UniqueNames T₂)
          (ViewIs Account.nameRow T₂) := by
        apply Spec.assume_right
        intro hT₂
        apply hcover.weaken (fun _ h => h) (fun _ _ h => ⟨h, hT₂⟩)
        rintro s (h | ⟨h, -⟩) <;> exact h
      apply Spec.protect hboth
      intro e
      have hforce := @forceDeleteAccount_names T₂ id
      rw [herased] at hforce
      apply Spec.bind (hforce.weaken (fun _ h => h) (fun _ _ h => h) ?_)
      · exact fun _ => hback e _
      · intro s h
        have hfalse := h.2 _ hid₂
        cases hfalse
    · intro _
      apply Spec.assume_right
      exact fun hT₂ => forDup_deleteUser_unique hT₂ dup

theorem recoverAccountWhileIdNotExist_unique (hs : Unique s) (hrange : id ≠ 0)
    (hid : s.view Account.nameRow id = none)
    (hsafe : ∀ d, s.dupOf order id b = some d → HandoverSafe s id b d) :
  Unique (after (recoverAccountWhileIdNotExist env order id b) s)
  := by
  have hnone : s.core id = none := by
    rw [State.core, State.view_eq_none_iff.mp hid, Option.map_none]
  unfold after recoverAccountWhileIdNotExist
  rw [exec_bind_ok (exec_get s), ← dupOf_eq_getAccountByName order b hnone]
  apply Spec.after (P := ViewIs Account.nameRow (s.view Account.nameRow)) _ rfl
  cases hdup : s.dupOf order id b with
  | none =>
    apply Spec.bind (Q := fun _ => ViewIs Account.nameRow (s.view Account.nameRow))
    · apply Spec.pure
      exact fun _ h => h
    · intro _
      apply create_unique hs hrange hid
      intro e Q
      apply Spec.bind (Q := fun _ => Unique)
      · apply Spec.pure
        exact fun _ h => h.unique hs
      · exact fun _ => Spec.throw fun _ h => h
  | some d =>
    obtain ⟨hne, r, hclash⟩ := clash_of_dupOf hdup
    have hfree := (hsafe d hdup).placeholder
    have hT₁ := UniqueNames.renamed hs hfree
    have hrename := @renameDup_names (s.view Account.nameRow) d env b
    apply Spec.bind (hrename.weaken (fun _ h => h) (fun _ _ h => h) ?_)
    · intro _
      apply create_unique hT₁ hrange
      · rw [renamed, Function.update_of_ne hne.symm, hid]
      · exact fun e Q => rollback_names env hclash hs hfree e
    · rintro s' (h | h)
      · exact h.unique hs
      · exact h.unique hT₁

/-- The recovery hands a name over safely, if it hands one over. -/
def RecoverySafe (order : List ℕ) (s : State) (id : ℕ) : Prop :=
  ∀ b d, s.backup.lookup id = some b → s.dupOf order id b = some d → HandoverSafe s id b d

theorem recoverAccount_unique (hs : Unique s) (hvisits : Visits order s)
    (hsafe : RecoverySafe order s id) :
  Unique (after (recoverAccount env order id) s)
  := by
  unfold after recoverAccount
  by_cases hrange : (decide (id < 2) || decide (17 < id)) = true
  · rw [hrange, exec_bind_error (exec_refuse_true _ s)]
    exact hs
  · have hzero : id ≠ 0 := by
      rintro rfl
      exact hrange rfl
    rw [eq_false_of_ne_true hrange, exec_bind_ok (exec_refuse_false _ s),
      exec_bind_ok (exec_get s)]
    cases hb : s.backup.lookup id with
    | none => exact hs
    | some b =>
      cases ha : s.accounts.lookup id with
      | none =>
        exact recoverAccountWhileIdNotExist_unique hs hzero (State.view_eq_none_iff.mpr ha)
          fun d hd => hsafe b d hb hd
      | some a =>
        exact recoverAccountWhileIdExist_unique hs hvisits
          (by rw [State.view, ha, Option.map_some]) fun d hd => hsafe b d hb hd

end Recovery

/-! ## The other operations -/

/-- Operations are treated by what they do to the names they find. -/
theorem keeps_unique {m : M Unit}
    (h : ∀ T, UniqueNames T → Spec (ViewIs Account.nameRow T) m (fun _ => Unique) Unique) :
  Keeps Unique m
  := fun s hs => h _ hs s rfl

theorem deleteAccount_unique (env : Env) (id : ℕ) (skipped : Bool) :
  Keeps Unique (deleteAccount env id skipped)
  := by
  apply keeps_unique
  intro T hT
  apply (deleteAccount_names env skipped).weaken (fun _ h => h)
  · rintro _ s (h | h)
    · exact h.unique hT
    · exact h.unique hT.erase
  · exact fun _ h => h.unique hT

theorem newAccount_unique (env : Env) (info : Account.Info) (isIpmiOrSnmp : Bool) :
  Keeps Unique (newAccount env info isIpmiOrSnmp)
  := by
  intro s hs
  have hnew := newAccount_names (T := s.view Account.nameRow) env info isIpmiOrSnmp
  apply hnew.weaken (fun _ h => h) _ _ s rfl
  · rintro i s' ⟨-, hfree, -, h⟩
    exact h.unique (hs.update fun _ => hfree)
  · exact fun _ h => h.unique hs

theorem setEnabled_unique (env : Env) (id : ℕ) (status : Bool) :
  Keeps Unique (setEnabled env id status)
  := by
  apply keeps_unique
  intro T hT
  exact (setEnabled_names env status).weaken (fun _ h => h) (fun _ _ h => h.unique hT)
    fun _ h => h.unique hT

theorem renameAccount_unique (env : Env) (naming : NamingEnv) {id : ℕ} {name : String}
    (hname : name ≠ "") :
  Keeps Unique (renameAccount env naming id name)
  := by
  unfold renameAccount
  cases env.checkUserName .localUser name with
  | none => exact Keeps.throw
  | some allowed =>
    apply Keeps.bind Keeps.refuse
    intro _
    apply Spec.bind Spec.get
    intro s
    apply Spec.bind (Q := fun _ s' => s' = s ∧ Unique s'
      ∧ FreeName (s'.view Account.nameRow) id name)
    · apply Spec.refuse
      · exact fun _ h => h.2
      · rintro s' ⟨rfl, hs⟩ hother
        exact ⟨rfl, hs, freeName_of_isOtherUserHasTheSameName hname hother⟩
    · intro _
      apply Spec.bind (Q := fun _ s' => Unique s' ∧ FreeName (s'.view Account.nameRow) id name)
      · exact Spec.refuse (fun _ h => h.2.1) fun _ h _ => h.2
      · rintro _ s' ⟨hs, hfree⟩
        have hchange := @changeUserName_names (s'.view Account.nameRow) id name env
        have hunique : UniqueNames (renamed (s'.view Account.nameRow) id name) :=
          UniqueNames.renamed hs hfree
        apply hchange.weaken (fun _ h => h) _ _ s' rfl
        · exact fun _ _ h => h.unique hunique
        · rintro _ (h | h)
          · exact h.unique hs
          · exact h.unique hunique

theorem setUserName_unique (env : Env) (naming : NamingEnv) (id : ℕ) (name : String) :
  Keeps Unique (setUserName env naming id name)
  := by
  unfold setUserName
  apply Keeps.bind Keeps.refuse
  intro _
  apply Keeps.bind Keeps.get
  intro s
  apply Spec.ite
  · intro _
    apply Spec.ite
    · exact fun _ => Keeps.pure
    · intro hname
      unfold ipmiAndSnmpNewAccount
      cases env.checkUserName .localUser name with
      | none => exact Keeps.throw
      | some allowed =>
        apply Keeps.bind Keeps.refuse
        intro _
        apply Keeps.bind Keeps.get
        intro _
        apply Keeps.bind Keeps.refuse
        intro _
        apply Keeps.bind (newAccount_unique env _ true)
        intro _
        exact setEnabled_unique env id false
  · intro _
    apply Spec.ite
    · exact fun _ => deleteAccount_unique env id false
    · exact fun hname => renameAccount_unique env naming hname

/-! ## Runs -/

inductive NameOp where
  | newAccount (info : Account.Info) (isIpmiOrSnmp : Bool)
  | setUserName (naming : NamingEnv) (id : ℕ) (name : String)
  | deleteAccount (id : ℕ) (validationSkipped : Bool)
  | recoverAccount (order : List ℕ) (id : ℕ)

/-- An operation, and what it sees of the rest of the system. -/
structure NameCall where
  env : Env
  op : NameOp

/-- The program of a call. -/
def NameCall.prog (c : NameCall) : M Unit :=
  match c.op with
  | .newAccount info b => do let _ ← BmcAccount.newAccount c.env info b
  | .setUserName naming id name => BmcAccount.setUserName c.env naming id name
  | .deleteAccount id skipped => BmcAccount.deleteAccount c.env id skipped
  | .recoverAccount order id => BmcAccount.recoverAccount c.env order id

/-- The state after a call, whether it succeeds or raises. -/
def nameStep (s : State) (c : NameCall) : State := after c.prog s

/-- A recovery visits all accounts when it looks for the one of the same name. -/
def NameCall.Visits (s : State) (c : NameCall) : Prop :=
  match c.op with
  | .recoverAccount order _ => BmcAccount.Visits order s
  | _ => True

/-- The call is no recovery that hands a name over in an unsafe way. -/
def NameCall.Safe (s : State) (c : NameCall) : Prop :=
  match c.op with
  | .recoverAccount order id => RecoverySafe order s id
  | _ => True

theorem nameStep_unique {s : State} (hs : Unique s) {c : NameCall} (hvisits : c.Visits s)
    (hsafe : c.Safe s) :
  Unique (nameStep s c)
  := by
  obtain ⟨env, op⟩ := c
  cases op with
  | newAccount info b =>
    have hkeeps : Keeps Unique (NameCall.prog ⟨env, .newAccount info b⟩) := by
      apply Keeps.bind (newAccount_unique env info b)
      exact fun _ => Keeps.pure
    exact hkeeps.after hs
  | setUserName naming id name => exact (setUserName_unique env naming id name).after hs
  | deleteAccount id skipped => exact (deleteAccount_unique env id skipped).after hs
  | recoverAccount order id => exact recoverAccount_unique hs hvisits hsafe

/-- Along every run whose recoveries hand names over safely, no two accounts have the same
non-empty name after each call. -/
theorem run_uniqueNames (s : State) (hs : Unique s) (calls : List NameCall)
    (hvisits : Run.Along nameStep (fun s c => c.Visits s) s calls)
    (hsafe : Run.Along nameStep (fun s c => c.Safe s) s calls) :
  ∀ s' ∈ Run.states nameStep s calls, Unique s'
  := by
  apply Run.invariant (I := Unique) _ hs (hvisits.and hsafe)
  intro s c hs hc
  exact nameStep_unique hs hc.1 hc.2

theorem visits_of_keys {order : List ℕ} {s : State} (h : ∀ k ∈ s.accounts.keys, k ∈ order) :
  Visits order s
  := by
  intro id hid
  apply h
  rw [← AList.mem_keys]
  by_contra hmem
  exact hid (AList.lookup_eq_none.mpr hmem)

theorem unique_of_nodup {s : State}
    (h : (s.accounts.entries.map fun e => e.2.data.userName).Nodup) :
  Unique s
  := by
  intro i j r r' hi hj hname _
  obtain ⟨a, ha, rfl⟩ := Option.map_eq_some_iff.mp hi
  obtain ⟨a', ha', rfl⟩ := Option.map_eq_some_iff.mp hj
  have heq := List.inj_on_of_nodup_map h (Table.mem_entries_iff.mpr ha)
    (Table.mem_entries_iff.mpr ha') hname
  exact congrArg Sigma.fst heq

/-! ### A recovery from an incomplete record -/

/-- An administrator, and a user with a configuration of the channel `4` as well, so that the
record of the user has a gap. The records have been written. -/
def gapRecord : State :=
  after (backupAccountInfo plainEnv)
    ((plainState [(2, plainAccount "Administrator" 4 223), (3, plainAccount "bob" 3 223)]).setChannel
      3 4 ⟨4, 2, 0, 0, true, true⟩)

/-- The policies of the examples. -/
def plainNaming : NamingEnv := ⟨false, 223⟩

/-- The user is renamed, another account gets the old name, and the user is recovered. -/
def nameTaken : List NameCall :=
  [⟨plainEnv, .setUserName plainNaming 3 "alice"⟩, ⟨plainEnv, .setUserName plainNaming 4 "bob"⟩,
   ⟨plainEnv, .recoverAccount [2, 3, 4] 3⟩]

theorem recovery_repeats_name :
  ¬ ∀ (s : State) (calls : List NameCall), Unique s →
    Run.Along nameStep (fun s c => c.Visits s) s calls →
    ∀ s' ∈ Run.states nameStep s calls, Unique s'
  := by
  intro h
  have hlast := h gapRecord nameTaken (unique_of_nodup (by decide +kernel))
    ⟨trivial, trivial, visits_of_keys (by decide +kernel), trivial⟩ _
    (List.getLast_mem (by simp [nameTaken, Run.states]))
  have hsame := hlast 3 4 ⟨"bob", true, true⟩ ⟨"bob", true, true⟩ (by decide +kernel)
    (by decide +kernel) rfl (by decide)
  cases hsame

/-- The user is renamed and recovered, with nobody else taking its name. -/
theorem run_uniqueNames_renamed_back :
  Unique gapRecord
    ∧ ∀ s' ∈ Run.states nameStep gapRecord
      [⟨plainEnv, .setUserName plainNaming 3 "alice"⟩, ⟨plainEnv, .recoverAccount [2, 3] 3⟩],
      Unique s'
  := by
  have hstart : Unique gapRecord := unique_of_nodup (by decide +kernel)
  refine ⟨hstart, ?_⟩
  apply run_uniqueNames _ hstart
  · exact ⟨trivial, visits_of_keys (by decide +kernel), trivial⟩
  · refine ⟨trivial, fun b d hb hd => ?_, trivial⟩
    have hnames := congrArg (Option.map fun b : BackupRecord => b.accountData.userName) hb
    have hname : some b.accountData.userName = some "bob" :=
      hnames.symm.trans (by decide +kernel)
    have hdup : State.getAccountByName
        (nameStep gapRecord ⟨plainEnv, .setUserName plainNaming 3 "alice"⟩) [2, 3] "bob"
        = none := by decide +kernel
    unfold State.dupOf at hd
    rw [Option.some_inj.mp hname, hdup] at hd
    cases hd

end BmcAccount
