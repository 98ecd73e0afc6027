import BmcAccount.Account.Authentication

/-!
# The exemption of the emergency account

The exemption of the emergency account is made anew at each entry point of authentication,
and not at all of them: IPMI asks whether the password has expired by what is stored for the
account, and RMCP asks whether the IPMI interface is open. What is stored is not brought up to
date for the emergency account, so an expiry found before the account was designated stays.

The invariant is that the emergency account has an unexpired password and an open IPMI
interface. Three operations can break it: the designation, a change of the login interfaces,
and a recovery.
-/

namespace BmcAccount

open Raise

/-! ## The operations -/

/-- `update_all_password_valid_start_time` without a difference: all ages start anew. -/
def restartPasswordAges (env : Env) : M Unit :=
  modify fun s =>
    { s with accounts := s.accounts.map fun _ => Account.setPasswordValidStartTime env.now }

/-- `AccountService:set_max_password_valid_days`. -/
def setMaxPasswordValidDays (env : Env) (maxAge : ℕ) : M Unit := do
  let s ← get
  refuse (365 < maxAge) .maxPasswordValidDaysNotInList
  refuse (s.config.minPasswordValidDays != 0 && maxAge != 0
    && maxAge ≤ s.config.minPasswordValidDays + 10) .minPwdAgeAndPwdValidityRestrictEachOther
  modify fun s => { s with config := { s.config with maxPasswordValidDays := maxAge } }
  onlyIf (s.config.maxPasswordValidDays = 0 && maxAge != 0) (restartPasswordAges env)
  checkPasswordValidDays env

/-- The bit of a login rule that can be chosen. The name `default` is one of the names of the
generated enumeration. -/
def loginRuleBit : String → Option ℕ
  | "Rule1" => some 1
  | "Rule2" => some 2
  | "Rule3" => some 4
  | "default" => some 2147483647
  | _ => none

/-- `check_login_rule_ids`, on the identifiers that are left when those of `seen` have been
visited. -/
def checkLoginRuleIds (seen : List String) : List String → Except Err Unit
  | [] => .ok ()
  | id :: ids =>
    if id ∈ seen then .error .propertyItemDuplicate
    else if (loginRuleBit id).isNone then .error (.propertyItemNotInList .loginRuleIds)
    else checkLoginRuleIds (id :: seen) ids

/-- `covert_login_rule_ids_str_to_num`. -/
def covertLoginRuleIdsStrToNum (ids : List String) : ℕ :=
  (ids.filterMap loginRuleBit).foldl (· ||| ·) 0

/-- `set_login_rule_ids` of an account; local accounts alone check that they are writable. -/
def Account.setLoginRuleIds (ids : ℕ) (a : Account) : Except Err Account :=
  if a.cls = .localAccount && !a.getPropertyWritable .loginRuleIds then
    .error (.propertyNotWritable .loginRuleIds)
  else .ok { a with data := { a.data with loginRuleIds := ids } }

/-- `AccountCollection:set_login_rule_ids`. -/
def setLoginRuleIds (id : ℕ) (ids : List String) : M Unit := do
  let _ ← getAccount id .invalidAccountId
  refuse (3 < ids.length) .propertyMemberQtyExceedLimit
  require (checkLoginRuleIds [] ids)
  callAccount id fun _ => Account.setLoginRuleIds (covertLoginRuleIdsStrToNum ids)

/-! ## The invariant -/

/-- What the exemption depends on. -/
def Account.exemptRow (a : Account) : AccountType × ℕ × ℕ :=
  (a.data.accountType, a.data.passwordExpiration, a.data.loginInterface)

/-- `check_password_valid_days` is made for the account. -/
def Account.ages (a : Account) : Bool :=
  a.data.accountType = .localUser || a.data.accountType = .vnc

/-- The account is exempt once `check_password_valid_days` has been made for it. -/
def Account.Designable (cfg : Config) (a : Account) : Prop :=
  a.ipmiAllowed = true ∧
    (a.data.passwordExpiration ≠ 0 ∨ (cfg.maxPasswordValidDays = 0 ∧ a.ages = true))

section Row

variable {a b : Account} (h : b.exemptRow = a.exemptRow)
include h

theorem passwordExpiration_of_row :
  b.data.passwordExpiration = a.data.passwordExpiration
  := congrArg (fun r => r.2.1) h

theorem ipmiAllowed_of_row :
  b.ipmiAllowed = a.ipmiAllowed
  := by
  have hinterface : b.data.loginInterface = a.data.loginInterface := congrArg (fun r => r.2.2) h
  unfold Account.ipmiAllowed
  rw [hinterface]

theorem ages_of_row :
  b.ages = a.ages
  := by
  have htype : b.data.accountType = a.data.accountType := congrArg (fun r => r.1) h
  unfold Account.ages
  rw [htype]

theorem Account.Exempt.of_row (ha : a.Exempt) :
  b.Exempt
  := by
  unfold Exempt
  rw [passwordExpiration_of_row h, ipmiAllowed_of_row h]
  exact ha

theorem Account.Designable.of_row {cfg : Config} (ha : a.Designable cfg) :
  b.Designable cfg
  := by
  unfold Designable
  rw [passwordExpiration_of_row h, ipmiAllowed_of_row h, ages_of_row h]
  exact ha

end Row

/-- The identifier is that of a local account whose password has not expired and whose IPMI
interface is open, and it satisfies `R`. -/
structure WatchedAt (R : ℕ → Prop) (s : State) (e : ℕ) : Prop where
  lower : 2 ≤ e
  upper : e ≤ 17
  rest : R e
  exempt : ∃ a, s.accounts.lookup e = some a ∧ a.Exempt

/-- The configuration names no emergency account, or one that is watched. -/
def Watched (R : ℕ → Prop) (s : State) : Prop :=
  s.config.emergencyLoginAccountId ≠ 0 → WatchedAt R s s.config.emergencyLoginAccountId

abbrev AnyWatched : State → Prop := Watched fun _ => True

theorem Watched.exemptsEmergency {R : ℕ → Prop} {s : State} (hs : Watched R s) :
  s.ExemptsEmergency
  := by
  intro he
  obtain ⟨a, ha, hexempt⟩ := (hs he).exempt
  exact exemptsEmergency_of_exempt ha hexempt he

theorem exemptRow_updateDeletable (cfg : Config) (only : Bool) (id : ℕ) (a : Account) :
  (a.updateDeletable cfg only id).exemptRow = a.exemptRow
  := by
  cases hcls : a.cls <;> simp [Account.updateDeletable, Account.exemptRow, hcls]

section Blocks

variable {R S : ℕ → Prop} {id : ℕ}

theorem Watched.weaken {s : State} (hs : Watched R s)
    (h : R s.config.emergencyLoginAccountId → S s.config.emergencyLoginAccountId) :
  Watched S s
  := fun he => { hs he with rest := h (hs he).rest }

/-- A change after which the emergency account is the same and is still exempt. -/
theorem Watched.congr {s : State} (hs : Watched R s) (s' : State)
    (hconfig : s'.config.emergencyLoginAccountId = s.config.emergencyLoginAccountId)
    (haccount : ∀ e a, e = s.config.emergencyLoginAccountId → e ≠ 0 → R e →
      s.accounts.lookup e = some a → a.Exempt → ∃ b, s'.accounts.lookup e = some b ∧ b.Exempt) :
  Watched R s'
  := by
  unfold Watched
  rw [hconfig]
  intro he
  obtain ⟨a, ha, hexempt⟩ := (hs he).exempt
  exact {
    lower := (hs he).lower
    upper := (hs he).upper
    rest := (hs he).rest
    exempt := haccount _ a rfl he (hs he).rest ha hexempt }

theorem Watched.of_accounts_eq {s s' : State} (hs : Watched R s)
    (haccounts : s'.accounts = s.accounts)
    (hconfig : s'.config.emergencyLoginAccountId = s.config.emergencyLoginAccountId) :
  Watched R s'
  := hs.congr s' hconfig fun _ a _ _ _ ha hexempt => ⟨a, haccounts ▸ ha, hexempt⟩

/-- A change of one account, which matters only if that account can be the emergency
account. -/
theorem Watched.modifyAccount {f : Account → Account} {s : State} (hs : Watched R s)
    (h : R id → ∀ a, a.Exempt → (f a).Exempt) :
  Watched R (s.modifyAccount id f)
  := by
  apply hs.congr (s.modifyAccount id f) rfl
  intro e a _ _ hR ha hexempt
  by_cases he : e = id
  · subst he
    use f a
    exact ⟨by simp [State.modifyAccount, ha], h hR a hexempt⟩
  · use a
    exact ⟨(Table.lookup_modify_ne he ..).trans ha, hexempt⟩

theorem modify_keeps_watched {f : State → State} (haccounts : ∀ s, (f s).accounts = s.accounts)
    (hconfig : ∀ s, (f s).config.emergencyLoginAccountId = s.config.emergencyLoginAccountId) :
  Keeps (Watched R) (modify f : M Unit)
  := Keeps.modify fun s hs => hs.of_accounts_eq (haccounts s) (hconfig s)

theorem updateAccount_keeps_watched {f : Config → Account → Account}
    (h : R id → ∀ cfg a, a.Exempt → (f cfg a).Exempt) :
  Keeps (Watched R) (updateAccount id f)
  := Keeps.modify fun s hs => hs.modifyAccount fun hR => h hR s.config

theorem callAccount_keeps_watched {f : Config → Account → Except Err Account}
    (h : R id → ∀ cfg a a', a.Exempt → f cfg a = .ok a' → a'.Exempt) :
  Keeps (Watched R) (callAccount id f)
  := by
  intro s hs
  unfold callAccount
  rw [exec_bind_ok (exec_get s)]
  cases ha : s.accounts.lookup id with
  | none => exact hs
  | some a =>
    simp only
    cases hf : f s.config a with
    | error e => exact hs
    | ok a' =>
      change Watched R (s.modifyAccount id fun _ => a')
      apply hs.congr (s.modifyAccount id _) rfl
      intro e b _ _ hR hb hexempt
      by_cases he : e = id
      · subst he
        rw [ha] at hb
        obtain rfl := Option.some_inj.mp hb
        use a'
        exact ⟨by simp [State.modifyAccount, ha], h hR s.config a a' hexempt hf⟩
      · use b
        exact ⟨(Table.lookup_modify_ne he ..).trans hb, hexempt⟩

/-- A change of all accounts that keeps the emergency account exempt. -/
theorem Watched.mapAccounts {f : ℕ → Account → Account} {s : State} (hs : Watched R s)
    (h : ∀ a, a.Exempt → (f s.config.emergencyLoginAccountId a).Exempt) :
  Watched R { s with accounts := s.accounts.map f }
  := by
  apply hs.congr { s with accounts := s.accounts.map f } rfl
  rintro e a rfl _ _ ha hexempt
  use f s.config.emergencyLoginAccountId a
  exact ⟨by simp [ha], h a hexempt⟩

theorem updateDeletable_keeps_watched :
  Keeps (Watched R) updateDeletable
  := by
  apply Keeps.modify
  intro s hs
  apply hs.mapAccounts
  intro a hexempt
  exact hexempt.of_row (exemptRow_updateDeletable ..)

theorem updateWithinMinPasswordDaysStatus_keeps_watched (env : Env) :
  Keeps (Watched R) (updateWithinMinPasswordDaysStatus env)
  := by
  apply Keeps.modify
  intro s hs
  apply hs.mapAccounts
  intro a hexempt
  apply hexempt.of_row
  cases hcls : a.cls <;>
    simp [Account.setWithinMinPasswordDaysStatus, Account.exemptRow, hcls]

theorem leaveTrapAccount_keeps_watched {i : ℕ} :
  Keeps (Watched R) (leaveTrapAccount i)
  := by
  unfold leaveTrapAccount changeSnmpV3TrapAccount
  apply Keeps.bind Keeps.get
  intro s
  apply Keeps.ite Keeps.throw
  apply Keeps.ite _ Keeps.pure
  apply Keeps.bind Keeps.get
  intro s
  apply Keeps.bind Keeps.refuse
  intro _
  exact modify_keeps_watched (fun _ => rfl) fun _ => rfl

theorem limitFirstChannel_keeps_watched {p : IpmiPrivilege} :
  Keeps (Watched R) (limitFirstChannel id p)
  := by
  unfold limitFirstChannel
  apply Keeps.bind Keeps.get
  intro s
  apply Keeps.ite _ Keeps.pure
  cases s.channel id 1 with
  | none => exact Keeps.pure
  | some row => exact modify_keeps_watched (fun _ => rfl) fun _ => rfl

/-- An account that is not the emergency account goes. -/
theorem removeAccount_keeps_watched (hR : ¬ R id) :
  Keeps (Watched R) (removeAccount id)
  := by
  unfold removeAccount
  apply Keeps.bind
  · exact updateAccount_keeps_watched fun h => absurd h hR
  intro _
  apply Keeps.bind
  · exact modify_keeps_watched (fun _ => rfl) fun _ => rfl
  intro _
  apply Keeps.bind
  · exact updateAccount_keeps_watched fun h => absurd h hR
  intro _
  apply Keeps.bind getAccount_keeps
  intro _
  apply Keeps.bind Keeps.refuse
  intro _
  apply Keeps.bind
  · apply Keeps.modify
    intro s hs
    apply hs.congr { s with accounts := s.accounts.erase id } rfl
    intro e a _ _ he ha hexempt
    have hne : e ≠ id := by
      rintro rfl
      exact hR he
    use a
    exact ⟨(AList.lookup_erase_ne hne).trans ha, hexempt⟩
  · intro _
    exact updateDeletable_keeps_watched

end Blocks

/-! ## What the operations keep -/

section Rows

theorem exemptRow_updatePrivileges (env : Env) (cfg : Config) (given : Option (List PrivilegeType))
    (a : Account) :
  (a.updatePrivileges env cfg given).exemptRow = a.exemptRow
  := by
  cases hcls : a.cls <;> simp [Account.updatePrivileges, Account.exemptRow, hcls]

theorem exemptRow_updateInactiveUserStartTime (env : Env) (cfg : Config) (a : Account) :
  (a.updateInactiveUserStartTime env cfg).exemptRow = a.exemptRow
  := by
  unfold Account.updateInactiveUserStartTime
  cases a.cls <;> simp only
  split_ifs <;> rfl

theorem exemptRow_setRoleId {env : Env} {cfg : Config} {roleId : ℕ} {a a' : Account}
    (h : a.setRoleId env cfg roleId = .ok a') :
  a'.exemptRow = a.exemptRow
  := by
  unfold Account.setRoleId at h
  cases hcls : a.cls <;> simp only [hcls] at h
  all_goals first
    | split_ifs at h
      obtain rfl := Except.ok.inj h
      exact exemptRow_updatePrivileges ..
    | obtain rfl := Except.ok.inj h
      rfl

theorem exemptRow_setUserName {name : String} {a a' : Account}
    (h : a.setUserName name = .ok a') :
  a'.exemptRow = a.exemptRow
  := by
  unfold Account.setUserName at h
  cases hcls : a.cls <;> simp only [hcls] at h
  all_goals first
    | split_ifs at h
      obtain rfl := Except.ok.inj h
      rfl
    | obtain rfl := Except.ok.inj h
      rfl

theorem exemptRow_deleteSshPublicKey {env : Env} {a a' : Account}
    (h : a.deleteSshPublicKey env = .ok a') :
  a'.exemptRow = a.exemptRow
  := by
  unfold Account.deleteSshPublicKey at h
  cases hcls : a.cls <;> simp only [hcls] at h
  all_goals first
    | split_ifs at h
      obtain rfl := Except.ok.inj h
      rfl
    | obtain rfl := Except.ok.inj h
      rfl

theorem exemptRow_setEnabled {env : Env} {enabled : Bool} {a a' : Account}
    (h : a.setEnabled env enabled = .ok a') :
  a'.exemptRow = a.exemptRow
  := by
  unfold Account.setEnabled at h
  cases hcls : a.cls <;> simp only [hcls] at h
  case localAccount =>
    split_ifs at h
    · cases hcheck : a.checkIpmiPassword env with
      | error e =>
        rw [hcheck] at h
        cases h
      | ok u =>
        rw [hcheck] at h
        obtain rfl := Except.ok.inj h
        rfl
    · obtain rfl := Except.ok.inj h
      rfl
  case oemAccount =>
    split_ifs at h
    obtain rfl := Except.ok.inj h
    rfl
  all_goals
    obtain rfl := Except.ok.inj h
    rfl

theorem exemptRow_setLoginRuleIds {ids : ℕ} {a a' : Account}
    (h : a.setLoginRuleIds ids = .ok a') :
  a'.exemptRow = a.exemptRow
  := by
  unfold Account.setLoginRuleIds at h
  split_ifs at h
  obtain rfl := Except.ok.inj h
  rfl

theorem exemptRow_storePassword (env : Env) (cfg : Config) (password ipmiPassword : String)
    (isConfigSelf : Bool) (a : Account) :
  (a.storePassword env cfg password ipmiPassword isConfigSelf).exemptRow = a.exemptRow
  := exemptRow_updatePrivileges ..

theorem exemptRow_setAccountPassword (env : Env) (cfg : Config) (password : String)
    (isConfigSelf : Bool) (a : Account) :
  (a.setAccountPassword env cfg password isConfigSelf).1.exemptRow = a.exemptRow
  := by
  unfold Account.setAccountPassword
  cases a.cls <;> simp only
  case oemAccount => exact exemptRow_storePassword ..
  case localAccount =>
    cases a.snmp with
    | none => exact exemptRow_storePassword ..
    | some r => exact exemptRow_storePassword (a := a) ..

theorem exemptRow_updatePasswordExpireStatus (env : Env) (cfg : Config) (status : Bool)
    (a : Account) :
  (a.updatePasswordExpireStatus env cfg status).exemptRow = a.exemptRow
  := by
  unfold Account.updatePasswordExpireStatus
  by_cases h : (!status && decide (0 < a.data.passwordExpiration)) = true
  · rw [if_pos h]
  · rw [if_neg h, exemptRow_updatePrivileges]
    exact exemptRow_updatePrivileges ..

end Rows

section Operations

variable {R : ℕ → Prop}

theorem setRoleId_keeps_watched (env : Env) (id roleId : ℕ) (p : Option IpmiPrivilege) :
  Keeps (Watched R) (setRoleId env id roleId p)
  := by
  unfold setRoleId
  apply Keeps.bind getAccount_keeps
  intro _
  apply Keeps.bind Keeps.refuse
  intro _
  apply Keeps.bind refuseLastOperateAdmin_keeps
  intro _
  apply Keeps.bind refuseEmergencyUser_keeps
  intro _
  apply Keeps.bind
  · apply callAccount_keeps_watched
    intro _ _ _ _ hexempt h
    exact hexempt.of_row (exemptRow_setRoleId h)
  intro _
  apply Keeps.bind
  · apply updateAccount_keeps_watched
    intro _ _ _ hexempt
    exact hexempt.of_row rfl
  intro _
  apply Keeps.bind limitFirstChannel_keeps_watched
  intro _
  exact updateDeletable_keeps_watched

theorem setEnabled_keeps_watched (env : Env) (id : ℕ) (status : Bool) :
  Keeps (Watched R) (setEnabled env id status)
  := by
  unfold setEnabled
  apply Keeps.bind refuseLastOperateAdmin_keeps
  intro _
  apply Keeps.bind refuseEmergencyUser_keeps
  intro _
  apply Keeps.bind
  · apply callAccount_keeps_watched
    intro _ _ _ _ hexempt h
    exact hexempt.of_row (exemptRow_setEnabled h)
  intro _
  apply Keeps.onlyIf
  apply updateAccount_keeps_watched
  intro _ _ _ hexempt
  exact hexempt.of_row (exemptRow_updateInactiveUserStartTime ..)

theorem changeUserName_keeps_watched (env : Env) (id : ℕ) (name : String) :
  Keeps (Watched R) (changeUserName env id name)
  := by
  unfold changeUserName
  apply Keeps.bind getAccount_keeps
  intro a
  cases env.checkUserName a.data.accountType name with
  | none => exact Keeps.throw
  | some allowed =>
    apply Keeps.bind Keeps.refuse
    intro _
    apply Keeps.bind
    · apply callAccount_keeps_watched
      intro _ _ _ _ hexempt h
      exact hexempt.of_row (exemptRow_setUserName h)
    intro _
    apply Keeps.bind
    · apply callAccount_keeps_watched
      intro _ _ _ _ hexempt h
      exact hexempt.of_row (exemptRow_deleteSshPublicKey h)
    intro _
    apply updateAccount_keeps_watched
    intro _ _ _ hexempt
    exact hexempt.of_row (exemptRow_updateInactiveUserStartTime ..)

theorem setLoginRuleIds_keeps_watched (id : ℕ) (ids : List String) :
  Keeps (Watched R) (setLoginRuleIds id ids)
  := by
  unfold setLoginRuleIds
  apply Keeps.bind getAccount_keeps
  intro _
  apply Keeps.bind Keeps.refuse
  intro _
  apply Keeps.bind (require_keeps _)
  intro _
  apply callAccount_keeps_watched
  intro _ _ _ _ hexempt h
  exact hexempt.of_row (exemptRow_setLoginRuleIds h)

/-- The account is stored back as it was read, with another password. -/
theorem setAccountPassword_keeps_watched (env : Env) (handler id : ℕ) (password : String) :
  Keeps (Watched R) (setAccountPassword env handler id password)
  := by
  intro s hs
  unfold setAccountPassword
  cases ha : s.accounts.lookup id with
  | none =>
    rw [exec_bind_error (exec_getAccount_none ha)]
    exact hs
  | some a =>
    rw [exec_bind_ok (exec_getAccount ha), exec_bind_ok (exec_get s)]
    have htail : Spec (fun s' => s' = s) (do
        require (a.passwordValidator env s.config a.data.userName password false (handler = id))
        updateAccount id fun _ _ => (a.setAccountPassword env s.config password (handler = id)).1
        require (a.setAccountPassword env s.config password (handler = id)).2
        updateWithinMinPasswordDaysStatus env) (fun _ => Watched R) (Watched R) := by
      apply Spec.bind (Q := fun _ s' => s' = s)
      · exact (require_keeps _).weaken (fun _ h => h) (fun _ _ h => h) fun _ h => h ▸ hs
      intro _
      apply Spec.bind (Q := fun _ => Watched R)
      · apply Spec.modify
        intro s' hs'
        rw [hs']
        apply hs.congr (State.modifyAccount id _ s) rfl
        intro e b _ _ _ hb hexempt
        by_cases he : e = id
        · subst he
          rw [ha] at hb
          obtain rfl := Option.some_inj.mp hb
          have hlookup (b : Account) :
              (s.modifyAccount e fun _ => b).accounts.lookup e = some b := by
            simp [State.modifyAccount, ha]
          use (a.setAccountPassword env s.config password (handler = e)).1
          exact ⟨hlookup _, hexempt.of_row (exemptRow_setAccountPassword ..)⟩
        · use b
          exact ⟨(Table.lookup_modify_ne he ..).trans hb, hexempt⟩
      intro _
      apply Keeps.bind (require_keeps _)
      intro _
      exact updateWithinMinPasswordDaysStatus_keeps_watched env
    exact htail s rfl

/-- Past the guard the account is not the emergency account. -/
theorem refuseEmergencyUser_watched {id : ℕ} {e : Err} :
  Spec (Watched R) (refuseEmergencyUser true id e) (fun _ => Watched (· ≠ id)) (Watched R)
  := by
  intro s hs
  rw [exec_refuseEmergencyUser]
  by_cases hid : id = s.config.emergencyLoginAccountId
  · simpa [State.checkIsEmergencyUser, hid] using hs
  · have hother : Watched (· ≠ id) s := hs.weaken fun _ h => hid h.symm
    simpa [State.checkIsEmergencyUser, hid] using hother

theorem recoverInterChassisAccountToDefault_keeps_watched (env : Env) :
  Keeps (Watched (· ≠ interChassisAccountId)) (recoverInterChassisAccountToDefault env)
  := by
  unfold recoverInterChassisAccountToDefault
  apply Keeps.bind
  · exact callAccount_keeps_watched fun h => absurd rfl h
  intro _
  apply Keeps.bind getAccount_keeps
  intro _
  apply Keeps.onlyIf
  apply Keeps.bind Keeps.refuse
  intro _
  exact callAccount_keeps_watched fun h => absurd rfl h

theorem deleteAccount_keeps_watched (env : Env) (id : ℕ) (skipped : Bool) :
  Keeps AnyWatched (deleteAccount env id skipped)
  := by
  have hany (i : ℕ) (s : State) (h : Watched (· ≠ i) s) : AnyWatched s :=
    h.weaken fun _ => trivial
  unfold deleteAccount
  split_ifs with hid
  · apply (recoverInterChassisAccountToDefault_keeps_watched env).weaken _ (fun _ => hany _) (hany _)
    intro s hs he
    have hupper := (hs he).upper
    have hne : s.config.emergencyLoginAccountId ≠ interChassisAccountId := by
      unfold interChassisAccountId
      omega
    exact { hs he with rest := hne }
  · apply Keeps.bind getAccount_keeps
    intro _
    apply Keeps.bind Keeps.refuse
    intro _
    apply Keeps.bind Keeps.refuse
    intro _
    apply Spec.bind refuseEmergencyUser_watched
    intro _
    have htail (account : Account) : Keeps (Watched (· ≠ id)) (do
        refuseLastOperateAdmin true id .cannotDeleteLastAdministrator
        leaveTrapAccount id
        refuse (!skipped && (env.deletable account.data.accountType).isNone) .internalError
        refuse (!skipped && !(env.deletable account.data.accountType).getD true)
          .accountForbidRemoved
        removeAccount id) := by
      apply Keeps.bind refuseLastOperateAdmin_keeps
      intro _
      apply Keeps.bind leaveTrapAccount_keeps_watched
      intro _
      apply Keeps.bind Keeps.refuse
      intro _
      apply Keeps.bind Keeps.refuse
      intro _
      exact removeAccount_keeps_watched fun h => h rfl
    exact (htail _).weaken (fun _ h => h) (fun _ => hany id) (hany id)

theorem newAccountToDbAndMdb_keeps_watched {id : ℕ} (hR : ¬ R id) (env : Env)
    (info : Account.Info) (isIpmiOrSnmp : Bool) :
  Keeps (Watched R) (newAccountToDbAndMdb env id info isIpmiOrSnmp)
  := by
  unfold newAccountToDbAndMdb
  apply Keeps.bind Keeps.get
  intro _
  apply Keeps.bind (Keeps.onlyIf (require_keeps _))
  intro _
  cases Account.init env info with
  | error e => exact Keeps.throw
  | ok a =>
    apply Keeps.bind
    · apply Keeps.modify
      intro s hs
      apply hs.congr { s with accounts := s.accounts.insert id _ } rfl
      intro e b _ _ he hb hexempt
      have hne : e ≠ id := by
        rintro rfl
        exact hR he
      use b
      exact ⟨(AList.lookup_insert_ne hne).trans hb, hexempt⟩
    intro _
    apply Keeps.bind
    · apply modify_keeps_watched
      · intro s
        unfold State.newAccountChannels
        split_ifs <;> rfl
      · intro s
        rw [config_newAccountChannels]
    intro _
    apply Keeps.bind
    · exact updateAccount_keeps_watched fun h => absurd h hR
    intro _
    apply Keeps.bind updateDeletable_keeps_watched
    intro _
    exact updateWithinMinPasswordDaysStatus_keeps_watched env

/-- The identifier of a new account is free, so it is not that of the emergency account. -/
theorem newAccount_keeps_watched (env : Env) (info : Account.Info) (isIpmiOrSnmp : Bool) :
  Keeps (Watched R) (newAccount env info isIpmiOrSnmp)
  := by
  unfold newAccount
  cases env.checkUserName (if info.oem then .oem else .localUser) info.name with
  | none => exact Keeps.throw
  | some allowed =>
    apply Keeps.bind Keeps.refuse
    intro _
    apply Keeps.bind Keeps.refuse
    intro _
    apply Spec.bind Spec.get
    intro s
    cases hid : getValidAccountId s info.id info.oem with
    | error e => exact Spec.throw fun _ h => h.2
    | ok i =>
      have hfree := lookup_of_getValidAccountId hid
      have htail : Keeps (Watched fun e => R e ∧ e ≠ i) (do
          refuse (s.checkUsernameExist info.name) .resourceAlreadyExists
          newAccountToDbAndMdb env i info isIpmiOrSnmp
          pure i) := by
        apply Keeps.bind Keeps.refuse
        intro _
        apply Keeps.bind
        · exact newAccountToDbAndMdb_keeps_watched (fun h => h.2 rfl) env info isIpmiOrSnmp
        · intro _
          exact Keeps.pure
      apply htail.weaken
      · rintro s' ⟨rfl, hs⟩ he
        obtain ⟨a, ha, -⟩ := (hs he).exempt
        have hne : s.config.emergencyLoginAccountId ≠ i := by
          intro heq
          rw [heq, hfree] at ha
          cases ha
        exact { hs he with rest := ⟨(hs he).rest, hne⟩ }
      · exact fun _ s' h => h.weaken And.left
      · exact fun s' h => h.weaken And.left

end Operations

/-! ## The age of the password -/

/-- The check leaves the emergency account without an expired password, unless it had one and
there is a bound on the age. -/
theorem exempt_checkPasswordValidDays {env : Env} {cfg : Config} {a : Account}
    (ha : a.Designable cfg) :
  (a.checkPasswordValidDays env cfg cfg.emergencyLoginAccountId).Exempt
  := by
  obtain ⟨hipmi, h⟩ := ha
  unfold Account.checkPasswordValidDays
  by_cases htype : (a.data.accountType != .localUser && a.data.accountType != .vnc) = true
  · rw [if_pos htype]
    have hages : a.ages = false := by
      simpa [Account.ages, bne_iff_ne] using htype
    exact ⟨h.resolve_right fun h' => by simp [hages] at h', hipmi⟩
  rw [if_neg htype]
  by_cases hmax : cfg.maxPasswordValidDays = 0
  · rw [if_neg (by simp [hmax])]
    have hnever : a.calculatePasswordValidTime env cfg cfg.emergencyLoginAccountId = never := by
      simp [Account.calculatePasswordValidTime]
    have hrow := exemptRow_updatePasswordExpireStatus env cfg (decide (never = 0)) a
    simp only [hnever]
    constructor
    · simp [Account.setPasswordValidTime, never]
    · exact (ipmiAllowed_of_row hrow).trans hipmi
  · rw [if_pos (by simp [hmax])]
    exact ⟨h.resolve_right fun h' => hmax h'.1, hipmi⟩

theorem checkPasswordValidDays_keeps_watched {R : ℕ → Prop} (env : Env) :
  Keeps (Watched R) (checkPasswordValidDays env)
  := by
  apply Keeps.modify
  intro s hs
  apply hs.mapAccounts
  intro a hexempt
  exact exempt_checkPasswordValidDays ⟨hexempt.2, .inl hexempt.1⟩

theorem setMaxPasswordValidDays_keeps_watched {R : ℕ → Prop} (env : Env) (maxAge : ℕ) :
  Keeps (Watched R) (setMaxPasswordValidDays env maxAge)
  := by
  unfold setMaxPasswordValidDays
  apply Keeps.bind Keeps.get
  intro _
  apply Keeps.bind Keeps.refuse
  intro _
  apply Keeps.bind Keeps.refuse
  intro _
  apply Keeps.bind
  · exact modify_keeps_watched (fun _ => rfl) fun _ => rfl
  intro _
  apply Keeps.bind
  · apply Keeps.onlyIf
    apply Keeps.modify
    intro s hs
    apply hs.mapAccounts
    intro a hexempt
    exact hexempt.of_row rfl
  · intro _
    exact checkPasswordValidDays_keeps_watched env

/-! ## Recovery -/

/-- The record has an unexpired password and an open IPMI interface. -/
def BackupRecord.Exempt (b : BackupRecord) : Prop :=
  b.accountData.passwordExpiration ≠ 0 ∧
    b.accountData.loginInterface &&& LoginInterface.ipmi.value = LoginInterface.ipmi.value

section Recovery

variable {R : ℕ → Prop} {env : Env} {order : List ℕ} {id : ℕ} {b : BackupRecord}

theorem exempt_recoverData (hb : b.Exempt) (a : Account) :
  (a.recoverData b).Exempt
  := ⟨hb.1, decide_eq_true hb.2⟩

theorem coverAccountInfo_keeps_watched (hb : R id → b.Exempt) :
  Keeps (Watched R) (coverAccountInfo env id b)
  := by
  unfold coverAccountInfo recover
  apply Keeps.bind getAccount_keeps
  intro _
  apply Keeps.bind refuseLastOperateAdmin_keeps
  intro _
  apply Keeps.bind
  · apply Keeps.bind
    · exact updateAccount_keeps_watched fun hR _ a _ => exempt_recoverData (hb hR) a
    intro _
    apply Keeps.bind
    · apply callAccount_keeps_watched
      intro _ _ a a' hexempt h
      unfold Account.recoverSnmpData at h
      cases hsnmp : a.snmp with
      | none => simp [hsnmp] at h
      | some r =>
        rw [hsnmp] at h
        obtain rfl := Except.ok.inj h
        exact hexempt.of_row rfl
    intro _
    unfold recoverIpmiChannelData
    cases b.ipmiChannelData with
    | none => exact Keeps.forM fun _ _ => modify_keeps_watched (fun _ => rfl) fun _ => rfl
    | some l =>
      apply Keeps.forM
      intro c _
      cases c with
      | none => exact Keeps.throw
      | some c => exact modify_keeps_watched (fun _ => rfl) fun _ => rfl
  · intro _
    apply updateAccount_keeps_watched
    intro _ _ _ hexempt
    exact hexempt.of_row (exemptRow_updatePrivileges ..)

theorem forceDeleteAccount_keeps_watched (hR : ¬ R id) :
  Keeps (Watched R) (forceDeleteAccount id)
  := Keeps.bind getAccount_keeps fun _ => removeAccount_keeps_watched hR

/-- The account goes, and if it was the emergency account the configuration forgets it. -/
theorem deleteUser_keeps_watched (d : ℕ) :
  Keeps (Watched R) (deleteUser d)
  := by
  unfold deleteUser
  have hforget : Spec (Watched R) (modify fun s => { s with config := s.config.forget d } : M Unit)
      (fun _ => Watched fun e => R e ∧ e ≠ d) (Watched R) := by
    apply Spec.modify
    intro s hs
    by_cases hd : d = s.config.emergencyLoginAccountId
    · intro he
      simp [Config.forget, hd] at he
    · have hsame : (s.config.forget d).emergencyLoginAccountId
          = s.config.emergencyLoginAccountId := by
        simp [Config.forget, hd]
      have hother : Watched (fun e => R e ∧ e ≠ d) s :=
        hs.weaken fun hR => ⟨hR, fun h => hd h.symm⟩
      exact hother.of_accounts_eq rfl hsame
  apply Spec.bind hforget
  intro _
  have hdelete : Keeps (Watched fun e => R e ∧ e ≠ d) (forceDeleteAccount d) :=
    forceDeleteAccount_keeps_watched fun h => h.2 rfl
  exact hdelete.weaken (fun _ h => h) (fun _ _ h => h.weaken And.left) fun _ h => h.weaken And.left

theorem renameDup_keeps_watched (d : ℕ) :
  Keeps (Watched R) (renameDup env b d)
  := Keeps.bind refuseLastOperateAdmin_keeps fun _ => changeUserName_keeps_watched env d _

/-- The other account gets its name back, and the error is raised again. -/
theorem giveBack_keeps_watched (env : Env) (dup : Option ℕ) (name : String) (e : Err) :
  Keeps (Watched R) (do forDup dup (fun d => changeUserName env d name); throw e : M Unit)
  := Keeps.bind (forDup_keeps fun d => changeUserName_keeps_watched env d name) fun _ => Keeps.throw

theorem recoverAccountWhileIdNotExist_keeps_watched :
  Keeps (Watched (· ≠ id)) (recoverAccountWhileIdNotExist env order id b)
  := by
  unfold recoverAccountWhileIdNotExist
  apply Keeps.bind Keeps.get
  intro s
  apply Keeps.bind (forDup_keeps renameDup_keeps_watched)
  intro _
  apply Keeps.bind
  · apply Keeps.protect _ fun e => giveBack_keeps_watched env _ _ e
    exact Keeps.bind (newAccount_keeps_watched env _ _) fun _ => Keeps.pure
  intro _
  apply Keeps.bind
  · apply Keeps.protect (coverAccountInfo_keeps_watched fun h => absurd rfl h)
    intro e
    apply Keeps.bind (forceDeleteAccount_keeps_watched fun h => h rfl)
    intro _
    exact giveBack_keeps_watched env _ _ e
  · intro _
    exact forDup_keeps deleteUser_keeps_watched

theorem recoverAccountWhileIdExist_keeps_watched (hb : R id → b.Exempt) :
  Keeps (Watched R) (recoverAccountWhileIdExist env order id b)
  := by
  unfold recoverAccountWhileIdExist
  apply Keeps.bind Keeps.get
  intro s
  apply Keeps.bind (forDup_keeps renameDup_keeps_watched)
  intro _
  apply Keeps.bind
  · exact Keeps.protect (coverAccountInfo_keeps_watched hb) fun e => giveBack_keeps_watched env _ _ e
  · intro _
    exact forDup_keeps deleteUser_keeps_watched

/-- A recovery that is stopped covers nothing. -/
theorem recoverAccountWhileIdExist_refused_watched {s : State} (hs : Watched R s)
    (h : ExistRefused env order s id b) :
  Watched R (after (recoverAccountWhileIdExist env order id b) s)
  := by
  have hrename := (forDup_keeps renameDup_keeps_watched).after (m := forDup (s.dupOf order id b)
    (renameDup env b)) hs
  unfold after at hrename
  unfold recoverAccountWhileIdExist after
  rw [exec_bind_ok (exec_get s)]
  simp only
  by_cases hdup : DupRefused env s b (s.dupOf order id b)
  · obtain ⟨e, s', hexec, -⟩ :=
      exec_forDup_renameDup_refused (fun _ => exists_lookup_of_dupOf) hdup
    rw [hexec] at hrename
    rw [exec_bind_error hexec]
    exact hrename
  · rw [exec_forDup_renameDup hdup] at hrename
    have hcore := core_dupRenamed env (s.dupOf order id b) s
      fun _ => renamable_of_not_dupRefused hdup
    obtain ⟨e, hcover⟩ := exec_coverAccountInfo_refused env
      ((coverRefused_congr hcore).mpr (h.resolve_left hdup))
    rw [exec_bind_ok (exec_forDup_renameDup hdup), exec_bind, exec_protect, hcover]
    obtain ⟨e', s', hback, -⟩ := exec_forDup_changeUserName env (s.dupOf order id b)
      b.accountData.userName e (s.dupRenamed env (s.dupOf order id b))
    have hkept := (giveBack_keeps_watched env (s.dupOf order id b)
      b.accountData.userName e).after hrename
    unfold after at hkept
    rw [hback] at hkept
    simp only [hback]
    exact hkept

/-- A recovery of the emergency account is stopped, or its record is exempt. -/
def RecoverExempt (env : Env) (order : List ℕ) (s : State) (id : ℕ) : Prop :=
  id = s.config.emergencyLoginAccountId → ∀ b, s.backup.lookup id = some b →
    ExistRefused env order s id b ∨ b.Exempt

theorem recoverAccount_watched {s : State} (hs : AnyWatched s)
    (h : RecoverExempt env order s id) :
  AnyWatched (after (recoverAccount env order id) s)
  := by
  unfold after recoverAccount
  cases hrange : (decide (id < 2) || decide (17 < id)) with
  | true =>
    rw [exec_bind_error (exec_refuse_true _ s)]
    exact hs
  | false =>
    rw [exec_bind_ok (exec_refuse_false _ s), exec_bind_ok (exec_get s)]
    cases hb : s.backup.lookup id with
    | none => exact hs
    | some b =>
      simp only
      cases ha : s.accounts.lookup id with
      | none =>
        rw [if_pos Option.isNone_none]
        have hother : Watched (· ≠ id) s := by
          intro he
          obtain ⟨a, ha', -⟩ := (hs he).exempt
          have hne : s.config.emergencyLoginAccountId ≠ id := by
            intro heq
            rw [heq, ha] at ha'
            cases ha'
          exact { hs he with rest := hne }
        exact (recoverAccountWhileIdNotExist_keeps_watched.after hother).weaken fun _ => trivial
      | some a =>
        rw [if_neg (by simp)]
        by_cases hrefused : ExistRefused env order s id b
        · exact recoverAccountWhileIdExist_refused_watched hs hrefused
        · have hrest : Watched (fun e => e = id → b.Exempt) s := by
            apply hs.weaken
            intro _ heq
            exact (h heq.symm b hb).resolve_left hrefused
          exact ((recoverAccountWhileIdExist_keeps_watched fun hR => hR rfl).after hrest).weaken
            fun _ => trivial

end Recovery

/-! ## Login interfaces -/

/-- A change of the login interfaces of an account is accepted. -/
structure InterfaceChangeAccepted (s : State) (id : ℕ) (interfaces : List String) (a : Account) :
    Prop where
  known : checkInterfaceInfo interfaces = true
  notLast : ¬ (s.IsLastOperateAdmin id ∧
    (coverInterfaceStrToNum interfaces = LoginInterface.sftp.value
      ∨ coverInterfaceStrToNum interfaces = LoginInterface.invalid.value))
  writable : a.getPropertyWritable .loginInterface = true

/-- A change of the login interfaces of the emergency account that is accepted leaves the IPMI
interface open. -/
def KeepsIpmi (s : State) (id : ℕ) (interfaces : List String) : Prop :=
  id = s.config.emergencyLoginAccountId → ∀ a, s.accounts.lookup id = some a →
    InterfaceChangeAccepted s id interfaces a →
      coverInterfaceStrToNum interfaces &&& LoginInterface.ipmi.value = LoginInterface.ipmi.value

theorem exempt_setLoginInterface {env : Env} {interface : ℕ} {a a' : Account}
    (hexempt : a.Exempt) (h : a.setLoginInterface env interface = .ok a')
    (hipmi : a.getPropertyWritable .loginInterface = true →
      interface &&& LoginInterface.ipmi.value = LoginInterface.ipmi.value) :
  a'.Exempt
  := by
  unfold Account.setLoginInterface at h
  cases hcls : a.cls <;> simp only [hcls] at h
  case interChassisAccount =>
    split_ifs at h
    obtain rfl := Except.ok.inj h
    refine ⟨hexempt.1, decide_eq_true (hipmi ?_)⟩
    simp [Account.getPropertyWritable, hcls]
  all_goals first
    | split_ifs at h with hwritable
      obtain rfl := Except.ok.inj h
      exact ⟨hexempt.1, decide_eq_true (hipmi hwritable)⟩
    | obtain rfl := Except.ok.inj h
      exact hexempt

/-- The IPMI password is cleared before the method of the account can refuse. -/
theorem setLoginInterface_tail_watched {R : ℕ → Prop} (env : Env) {id interface : ℕ}
    {a : Account} (clear : Bool) {s : State} (hs : Watched R s)
    (ha : s.accounts.lookup id = some a)
    (hipmi : R id → a.getPropertyWritable .loginInterface = true →
      interface &&& LoginInterface.ipmi.value = LoginInterface.ipmi.value) :
  Watched R (after (do
    onlyIf clear
      (updateAccount id fun _ a => { a with data := { a.data with ipmiPassword := some "" } })
    callAccount id fun _ => Account.setLoginInterface env interface) s)
  := by
  have hclear : ∃ s₁ a₁, exec (onlyIf clear (updateAccount id fun _ a =>
        { a with data := { a.data with ipmiPassword := some "" } })) s = (.ok (), s₁) ∧
      Watched R s₁ ∧ s₁.accounts.lookup id = some a₁ ∧
      a₁.getPropertyWritable .loginInterface = a.getPropertyWritable .loginInterface := by
    cases clear with
    | false => exact ⟨s, a, rfl, hs, ha, rfl⟩
    | true =>
      refine ⟨_, { a with data := { a.data with ipmiPassword := some "" } }, rfl, ?_, ?_, rfl⟩
      · exact hs.modifyAccount fun _ _ hexempt => hexempt.of_row rfl
      · simp [State.modifyAccount, ha]
  obtain ⟨s₁, a₁, hexec, hs₁, ha₁, hwritable⟩ := hclear
  unfold after
  rw [exec_bind_ok hexec, exec_callAccount ha₁]
  cases hmethod : Account.setLoginInterface env interface a₁ with
  | error e => exact hs₁
  | ok a' =>
    apply hs₁.congr (s₁.modifyAccount id fun _ => a') rfl
    intro e b _ _ hR hb hexempt
    by_cases he : e = id
    · subst he
      rw [ha₁] at hb
      obtain rfl := Option.some_inj.mp hb
      use a'
      exact ⟨by simp [State.modifyAccount, ha₁],
        exempt_setLoginInterface hexempt hmethod (hwritable ▸ hipmi hR)⟩
    · use b
      exact ⟨(Table.lookup_modify_ne he ..).trans hb, hexempt⟩

theorem setLoginInterface_watched {env : Env} {s : State} {id : ℕ} {interfaces : List String}
    (hs : AnyWatched s) (h : KeepsIpmi s id interfaces) :
  AnyWatched (after (setLoginInterface env id interfaces) s)
  := by
  unfold after setLoginInterface
  cases ha : s.accounts.lookup id with
  | none =>
    rw [exec_bind_error (exec_getAccount_none ha)]
    exact hs
  | some a =>
    rw [exec_bind_ok (exec_getAccount ha)]
    cases hknown : checkInterfaceInfo interfaces with
    | false =>
      rw [Bool.not_false, exec_bind_error (exec_refuse_true _ s)]
      exact hs
    | true =>
      obtain ⟨last, hexec, hlast⟩ := exec_checkIsLastOperateAdmin ha
      rw [Bool.not_true, exec_bind_ok (exec_refuse_false _ s), exec_bind_ok hexec]
      simp only
      cases hclosing : (last && (decide (coverInterfaceStrToNum interfaces
          = LoginInterface.sftp.value) || decide (coverInterfaceStrToNum interfaces
          = LoginInterface.invalid.value))) with
      | true =>
        rw [exec_bind_error (exec_refuse_true _ s)]
        exact hs
      | false =>
        rw [exec_bind_ok (exec_refuse_false _ s)]
        have hnotLast : ¬ (s.IsLastOperateAdmin id ∧
            (coverInterfaceStrToNum interfaces = LoginInterface.sftp.value
              ∨ coverInterfaceStrToNum interfaces = LoginInterface.invalid.value)) := by
          rw [← hlast]
          simpa using hclosing
        have hrest : Watched (· = s.config.emergencyLoginAccountId) s := hs.weaken fun _ => rfl
        have htail := setLoginInterface_tail_watched env
          (a.isDeleteIpmiInterface (coverInterfaceStrToNum interfaces)) hrest ha
          fun he hwritable => h he a ha ⟨hknown, hnotLast, hwritable⟩
        exact htail.weaken fun _ => trivial

/-! ## The designation -/

/-- The account would be accepted as the emergency account, and it would be exempt then. -/
structure DesignableAt (s : State) (id : ℕ) : Prop where
  lower : 2 ≤ id
  upper : id ≤ 17
  account : ∃ a, s.accounts.lookup id = some a ∧ a.Designable s.config

/-- An account that is accepted as the emergency account has its IPMI interface open, and its
password has not been found expired, or there is no bound on its age any more. -/
def DesignatesExempt (s : State) (id : ℕ) : Prop :=
  ∀ a, s.accounts.lookup id = some a → 2 ≤ id → id ≤ 17 → a.Guardian → a.Designable s.config

theorem DesignableAt.modifyAccount {s : State} {id i : ℕ} {f : Account → Account}
    (h : DesignableAt s id)
    (hf : ∀ a, s.accounts.lookup i = some a → (f a).exemptRow = a.exemptRow) :
  DesignableAt (s.modifyAccount i f) id
  := by
  obtain ⟨a, ha, hdesignable⟩ := h.account
  refine ⟨h.lower, h.upper, ?_⟩
  by_cases hid : id = i
  · subst hid
    use f a
    exact ⟨by simp [State.modifyAccount, ha], hdesignable.of_row (hf a ha)⟩
  · use a
    exact ⟨(Table.lookup_modify_ne hid ..).trans ha, hdesignable⟩

theorem DesignableAt.mapAccounts {s : State} {id : ℕ} {f : ℕ → Account → Account}
    (h : DesignableAt s id) (hf : ∀ i a, (f i a).exemptRow = a.exemptRow) :
  DesignableAt { s with accounts := s.accounts.map f } id
  := by
  obtain ⟨a, ha, hdesignable⟩ := h.account
  refine ⟨h.lower, h.upper, f id a, ?_, hdesignable.of_row (hf id a)⟩
  simp [ha]

/-- Past the checks the account can be designated. -/
theorem acceptEmergencyAccount_watched {env : Env} {s : State} {id : ℕ} (hs : AnyWatched s)
    (h : DesignatesExempt s id) :
  Spec (fun s' => s' = s) (acceptEmergencyAccount env id)
    (fun _ s' => AnyWatched s' ∧ DesignableAt s' id) AnyWatched
  := by
  intro s' hs'
  rw [hs']
  unfold acceptEmergencyAccount
  cases hrange : (decide (id < minUserNum) || decide (maxUserNum < id)) with
  | true =>
    rw [exec_bind_error (exec_refuse_true _ s)]
    exact hs
  | false =>
    rw [exec_bind_ok (exec_refuse_false _ s)]
    cases ha : s.accounts.lookup id with
    | none =>
      rw [exec_bind_error (exec_getAccount_none ha)]
      exact hs
    | some a =>
      rw [exec_bind_ok (exec_getAccount ha)]
      cases hrole : (a.data.roleId != RoleType.administrator.value || !a.data.enabled) with
      | true =>
        rw [exec_bind_error (exec_refuse_true _ s)]
        exact hs
      | false =>
        rw [exec_bind_ok (exec_refuse_false _ s)]
        have hguardian : a.Guardian := by
          simpa [Account.Guardian] using hrole
        obtain ⟨hlower, hupper⟩ : 2 ≤ id ∧ id ≤ 17 := by
          rw [Bool.or_eq_false_iff, decide_eq_false_iff_not, decide_eq_false_iff_not, not_lt,
            not_lt] at hrange
          exact hrange
        have hdesignable : DesignableAt s id :=
          ⟨hlower, hupper, a, ha, h a ha hlower hupper hguardian⟩
        constructor
        · apply hs.modifyAccount
          intro _ b hexempt
          exact hexempt.of_row (exemptRow_updatePasswordExpireStatus ..)
        · apply hdesignable.modifyAccount
          intro b _
          exact exemptRow_updatePasswordExpireStatus ..

/-- The state in which the configuration names the new emergency account, and the old one is
still there. -/
structure Designated (old id : ℕ) (s : State) : Prop where
  emergency : s.config.emergencyLoginAccountId = id
  designable : id ≠ 0 → DesignableAt s id
  known : old ≠ 0 → ∃ a, s.accounts.lookup old = some a

theorem releaseOld_designated {old id time : ℕ} {E : State → Prop} :
  Spec (Designated old id)
    (onlyIf (old != 0) (callAccount old fun _ a => .ok (a.setPasswordValidStartTime time)))
    (fun _ => Designated old id) E
  := by
  apply Spec.onlyIf
  · intro hold s hs
    obtain ⟨a, ha⟩ := hs.known (bne_iff_ne.mp hold)
    rw [exec_callAccount ha]
    have hrow (b : Account) (hb : s.accounts.lookup old = some b) :
        (a.setPasswordValidStartTime time).exemptRow = b.exemptRow := by
      rw [ha] at hb
      obtain rfl := Option.some_inj.mp hb
      rfl
    exact {
      emergency := hs.emergency
      designable := fun hid => (hs.designable hid).modifyAccount hrow
      known := fun _ => ⟨a.setPasswordValidStartTime time, by simp [State.modifyAccount, ha]⟩ }
  · exact fun _ _ hs => hs

theorem setEmergencyAccount_watched {env : Env} {s : State} {id : ℕ} (hs : AnyWatched s)
    (h : DesignatesExempt s id) :
  AnyWatched (after (setEmergencyAccount env id) s)
  := by
  have hprog : Spec (fun s' => s' = s) (setEmergencyAccount env id) (fun _ => AnyWatched)
      AnyWatched := by
    unfold setEmergencyAccount
    apply Spec.bind (Q := fun _ s' => AnyWatched s' ∧ (id ≠ 0 → DesignableAt s' id))
    · apply Spec.onlyIf
      · intro _
        exact (acceptEmergencyAccount_watched hs h).weaken (fun _ h => h)
          (fun _ _ h => ⟨h.1, fun _ => h.2⟩) fun _ h => h
      · rintro hzero _ rfl
        exact ⟨hs, fun hid => absurd (by simpa using hzero) hid⟩
    intro _
    apply Spec.bind Spec.get
    intro s₁
    apply Spec.bind (Q := fun _ => Designated s₁.config.emergencyLoginAccountId id)
    · apply Spec.modify
      rintro _ ⟨rfl, hwatched, hdesignable⟩
      exact {
        emergency := rfl
        designable := fun hid =>
          ⟨(hdesignable hid).lower, (hdesignable hid).upper, (hdesignable hid).account⟩
        known := by
          intro hold
          obtain ⟨a, ha, -⟩ := (hwatched hold).exempt
          exact ⟨a, ha⟩ }
    intro _
    apply Spec.bind releaseOld_designated
    intro _
    apply Spec.bind (Q := fun _ s' =>
      s'.config.emergencyLoginAccountId = id ∧ (id ≠ 0 → DesignableAt s' id))
    · apply Spec.modify
      intro s' hs'
      refine ⟨hs'.emergency, fun hid => (hs'.designable hid).mapAccounts ?_⟩
      intro i a
      exact exemptRow_updateDeletable ..
    intro _
    apply Spec.modify
    rintro s' ⟨rfl, hdesignable⟩ hid
    obtain ⟨a, ha, hexempt⟩ := (hdesignable hid).account
    exact {
      lower := (hdesignable hid).lower
      upper := (hdesignable hid).upper
      rest := trivial
      exempt := ⟨a.checkPasswordValidDays env s'.config _, by simp [ha],
        exempt_checkPasswordValidDays hexempt⟩ }
  exact hprog.after rfl

/-! ## Requests -/

section Requests

variable {R : ℕ → Prop}

theorem recordLogin_keeps_watched {env : Env} {id : ℕ} {ip : Option String}
    {interface : Option LoginInterface} :
  Keeps (Watched R) (recordLogin env id ip interface)
  := by
  apply Keeps.modify
  intro s hs
  apply hs.modifyAccount
  intro _ a hexempt
  exact hexempt.of_row rfl

theorem extRecordOperation_keeps_watched {auth : AuthEnv} {ctx : AuthCtx} {ext : ExtConfig}
    {id : ℕ} :
  Keeps (Watched R) (extRecordOperation auth ctx ext id)
  := by
  unfold extRecordOperation
  apply Keeps.bind
  · exact Keeps.onlyIf recordLogin_keeps_watched
  intro _
  apply Keeps.onlyIf
  apply Keeps.modify
  intro s hs
  apply hs.modifyAccount
  intro _ a hexempt
  exact hexempt.of_row (exemptRow_updateInactiveUserStartTime ..)

theorem checkAccountLoginInfo_keeps_watched {auth : AuthEnv} {ctx : AuthCtx} {id : ℕ}
    {a : Account} :
  Keeps (Watched R) (checkAccountLoginInfo auth ctx id a)
  := by
  unfold checkAccountLoginInfo checkLoginInterface
  apply Keeps.bind Keeps.get
  intro s
  apply Keeps.ite Keeps.pure
  apply Keeps.bind Keeps.refuse
  intro _
  cases ctx.interface with
  | none => exact Keeps.pure
  | some interfaceName =>
    simp only
    cases LoginInterface.ofName interfaceName with
    | none => exact Keeps.throw
    | some interface => exact Keeps.refuse

theorem checkRmcp20Restrictions_keeps_watched {auth : AuthEnv} {id : ℕ} {a : Account}
    {ip : Option String} :
  Keeps (Watched R) (checkRmcp20Restrictions auth id a ip)
  := by
  unfold checkRmcp20Restrictions
  apply Keeps.bind Keeps.get
  intro s
  apply Keeps.ite Keeps.pure
  apply Keeps.bind Keeps.refuse
  intro _
  apply Keeps.bind Keeps.refuse
  intro _
  exact Keeps.refuse

theorem authenticate_keeps_watched {auth : AuthEnv} {order : List ℕ} {ctx : AuthCtx}
    {name password : String} {ext : ExtConfig} :
  Keeps (Watched R) (authenticate auth order ctx name password ext)
  := by
  unfold authenticate
  apply Keeps.bind Keeps.refuse
  intro _
  apply Keeps.bind Keeps.refuse
  intro _
  apply Keeps.bind Keeps.get
  intro s
  rcases s.findAccount order name with _ | ⟨id, a⟩
  · exact Keeps.throw
  apply Keeps.bind Keeps.refuse
  intro _
  apply Keeps.bind Keeps.refuse
  intro _
  apply Keeps.bind Keeps.refuse
  intro _
  apply Keeps.bind checkAccountLoginInfo_keeps_watched
  intro _
  apply Keeps.bind Keeps.refuse
  intro _
  apply Keeps.bind extRecordOperation_keeps_watched
  intro _
  exact Keeps.pure

theorem ipmiLocalAuthenticate_keeps_watched {auth : AuthEnv} {order : List ℕ}
    {name password : String} :
  Keeps (Watched R) (ipmiLocalAuthenticate auth order name password)
  := by
  unfold ipmiLocalAuthenticate
  apply Keeps.bind Keeps.get
  intro s
  rcases s.findAccount order name with _ | ⟨id, a⟩
  · exact Keeps.throw
  apply Keeps.bind Keeps.refuse
  intro _
  cases a.testPasswordOperation auth.env password with
  | none => exact Keeps.throw
  | some ok =>
    apply Keeps.bind Keeps.refuse
    intro _
    apply Keeps.bind Keeps.refuse
    intro _
    apply Keeps.bind Keeps.refuse
    intro _
    exact Keeps.pure

theorem genRmcp20AuthCode_keeps_watched {auth : AuthEnv} {order : List ℕ} {ctx : AuthCtx}
    {name : String} {ip : Option String} :
  Keeps (Watched R) (genRmcp20AuthCode auth order ctx name ip)
  := by
  unfold genRmcp20AuthCode
  apply Keeps.bind Keeps.refuse
  intro _
  apply Keeps.bind Keeps.get
  intro s
  rcases s.findAccount order name with _ | ⟨id, a⟩
  · exact Keeps.throw
  apply Keeps.bind Keeps.refuse
  intro _
  apply Keeps.bind Keeps.refuse
  intro _
  apply Keeps.bind checkRmcp20Restrictions_keeps_watched
  intro _
  apply Keeps.bind recordLogin_keeps_watched
  intro _
  cases auth.rmcp20Codes a with
  | none => exact Keeps.throw
  | some codes => exact Keeps.pure

theorem genRmcp15AuthCode_keeps_watched {auth : AuthEnv} {ctx : AuthCtx} {id : ℕ} :
  Keeps (Watched R) (genRmcp15AuthCode auth ctx id)
  := by
  unfold genRmcp15AuthCode
  cases ctx.clientAddr with
  | none => exact Keeps.throw
  | some ip =>
    apply Keeps.bind Keeps.refuse
    intro _
    apply Keeps.bind Keeps.get
    intro s
    cases s.accounts.lookup id with
    | none => exact Keeps.throw
    | some a =>
      apply Keeps.bind Keeps.refuse
      intro _
      apply Keeps.bind Keeps.refuse
      intro _
      apply Keeps.bind Keeps.refuse
      intro _
      apply Keeps.bind Keeps.refuse
      intro _
      apply Keeps.bind recordLogin_keeps_watched
      intro _
      cases auth.rmcp15Code a with
      | none => exact Keeps.throw
      | some code => exact Keeps.pure

/-- A request does not touch what the exemption depends on. -/
theorem authCall_keeps_watched (c : AuthCall) :
  Keeps (Watched R) c.prog
  := by
  obtain ⟨auth, order, ctx, req⟩ := c
  cases req with
  | authenticate name password ext =>
    exact Keeps.bind authenticate_keeps_watched fun _ => Keeps.pure
  | ipmiLocalAuthenticate name password =>
    exact Keeps.bind ipmiLocalAuthenticate_keeps_watched fun _ => Keeps.pure
  | genRmcp20AuthCode name ip =>
    exact Keeps.bind genRmcp20AuthCode_keeps_watched fun _ => Keeps.pure
  | genRmcp15AuthCode id =>
    exact Keeps.bind genRmcp15AuthCode_keeps_watched fun _ => Keeps.pure

end Requests

/-! ## Runs -/

/-- The operations on accounts that can concern the exemption, and the requests. -/
inductive ExemptOp where
  | setEmergencyAccount (id : ℕ)
  | checkPasswordValidDays
  | setMaxPasswordValidDays (maxAge : ℕ)
  | setAccountPassword (handler id : ℕ) (password : String)
  | setLoginInterface (id : ℕ) (interfaces : List String)
  | setLoginRuleIds (id : ℕ) (ids : List String)
  | setRoleId (id roleId : ℕ) (ipmiPrivilege : Option IpmiPrivilege)
  | setEnabled (id : ℕ) (status : Bool)
  | changeUserName (id : ℕ) (name : String)
  | newAccount (info : Account.Info) (isIpmiOrSnmp : Bool)
  | deleteAccount (id : ℕ) (validationSkipped : Bool)
  | recoverAccount (order : List ℕ) (id : ℕ)
  | request (c : AuthCall)

/-- An operation, and what it sees of the rest of the system. -/
structure ExemptCall where
  env : Env
  op : ExemptOp

/-- The state after a call, whether it succeeds or raises. -/
def exemptStep (s : State) (c : ExemptCall) : State :=
  match c.op with
  | .setEmergencyAccount id => after (setEmergencyAccount c.env id) s
  | .checkPasswordValidDays => after (checkPasswordValidDays c.env) s
  | .setMaxPasswordValidDays maxAge => after (setMaxPasswordValidDays c.env maxAge) s
  | .setAccountPassword handler id password =>
    after (setAccountPassword c.env handler id password) s
  | .setLoginInterface id interfaces => after (setLoginInterface c.env id interfaces) s
  | .setLoginRuleIds id ids => after (setLoginRuleIds id ids) s
  | .setRoleId id roleId p => after (setRoleId c.env id roleId p) s
  | .setEnabled id status => after (setEnabled c.env id status) s
  | .changeUserName id name => after (changeUserName c.env id name) s
  | .newAccount info b => after (newAccount c.env info b) s
  | .deleteAccount id skipped => after (deleteAccount c.env id skipped) s
  | .recoverAccount order id => after (recoverAccount c.env order id) s
  | .request r => after r.prog s

/-- The call keeps the emergency account exempt: a designation is of an account that is
exempt then, an accepted change of the login interfaces of the emergency account leaves its
IPMI interface open, and a recovery of it is stopped or finds an exempt record. -/
def ExemptCall.KeepsExempt (s : State) (c : ExemptCall) : Prop :=
  match c.op with
  | .setEmergencyAccount id => DesignatesExempt s id
  | .setLoginInterface id interfaces => KeepsIpmi s id interfaces
  | .recoverAccount order id => RecoverExempt c.env order s id
  | _ => True

theorem exemptStep_watched {s : State} (hs : AnyWatched s) {c : ExemptCall}
    (hc : c.KeepsExempt s) :
  AnyWatched (exemptStep s c)
  := by
  obtain ⟨env, op⟩ := c
  cases op with
  | setEmergencyAccount id => exact setEmergencyAccount_watched hs hc
  | checkPasswordValidDays => exact (checkPasswordValidDays_keeps_watched env).after hs
  | setMaxPasswordValidDays maxAge =>
    exact (setMaxPasswordValidDays_keeps_watched env maxAge).after hs
  | setAccountPassword handler id password =>
    exact (setAccountPassword_keeps_watched env handler id password).after hs
  | setLoginInterface id interfaces => exact setLoginInterface_watched hs hc
  | setLoginRuleIds id ids => exact (setLoginRuleIds_keeps_watched id ids).after hs
  | setRoleId id roleId p => exact (setRoleId_keeps_watched env id roleId p).after hs
  | setEnabled id status => exact (setEnabled_keeps_watched env id status).after hs
  | changeUserName id name => exact (changeUserName_keeps_watched env id name).after hs
  | newAccount info b => exact (newAccount_keeps_watched env info b).after hs
  | deleteAccount id skipped => exact (deleteAccount_keeps_watched env id skipped).after hs
  | recoverAccount order id => exact recoverAccount_watched hs hc
  | request r => exact (authCall_keeps_watched r).after hs

/-- Along every run of calls that keep the emergency account exempt, no request for it is
refused by a restriction. -/
theorem run_exemptsEmergency (s : State) (hs : AnyWatched s) (calls : List ExemptCall)
    (h : Run.Along exemptStep (fun s c => c.KeepsExempt s) s calls) :
  ∀ s' ∈ Run.states exemptStep s calls, s'.ExemptsEmergency
  := by
  intro s' hs'
  have hwatched : AnyWatched s' := by
    apply Run.invariant _ hs h s' hs'
    intro s c hs hc
    exact exemptStep_watched hs hc
  exact hwatched.exemptsEmergency

/-! ### An expiry that stays -/

/-- Two administrators whose IPMI password is `secret`. -/
def twoGuardians : State :=
  let account (name : String) : Account :=
    let plain := plainAccount name RoleType.administrator.value 223
    { plain with data := { plain.data with ipmiPassword := some "secret" } }
  plainState [(2, account "Administrator"), (3, account "alice")]

/-- The plain system some days after the start. -/
def laterEnv (days : ℕ) : Env := { plainEnv with now := plainEnv.now + days * 86400 }

/-- A request of `alice` by IPMI. -/
def aliceByIpmi : AuthCall where
  auth :=
    { env := plainEnv
      baseCheckUserName := fun _ => true
      loginRules := fun _ _ => true
      rmcp20Codes := fun _ => none
      rmcp15Code := fun _ => none }
  order := [2, 3]
  ctx := ⟨none, none⟩
  req := .ipmiLocalAuthenticate "alice" "secret"

/-- Passwords are to be changed within ninety days, `alice` is found late, and is made the
emergency account. -/
def lateDesignation : List ExemptCall :=
  [⟨laterEnv 0, .setMaxPasswordValidDays 90⟩, ⟨laterEnv 91, .checkPasswordValidDays⟩,
   ⟨laterEnv 91, .setEmergencyAccount 3⟩]

/-- The request is refused by a restriction. -/
def AuthCall.restricted (c : AuthCall) (s : State) : Bool :=
  match (exec c.prog s).1 with
  | .error r => r.isRestriction
  | .ok _ => false

theorem restricted_of_unrestricted {c : AuthCall} {s : State} (h : Unrestricted c.prog s) :
  c.restricted s = false
  := by
  unfold AuthCall.restricted
  rcases hx : exec c.prog s with ⟨r | u, s'⟩
  · exact h r s' hx
  · rfl

theorem lateDesignation_not_exempt :
  ¬ ∀ (s : State) (calls : List ExemptCall), s.config.emergencyLoginAccountId = 0 →
    ∀ s' ∈ Run.states exemptStep s calls, s'.ExemptsEmergency
  := by
  intro h
  have hlast := h twoGuardians lateDesignation rfl _
    (List.getLast_mem (by simp [lateDesignation, Run.states]))
  have hrefused := restricted_of_unrestricted
    (hlast (by decide +kernel) aliceByIpmi (by decide +kernel))
  revert hrefused
  decide +kernel

/-- A run in which `alice` is made the emergency account in time. -/
theorem run_exemptsEmergency_in_time :
  AnyWatched twoGuardians
    ∧ ∀ s' ∈ Run.states exemptStep twoGuardians
      [⟨laterEnv 0, .setMaxPasswordValidDays 90⟩, ⟨laterEnv 80, .setEmergencyAccount 3⟩,
       ⟨laterEnv 91, .checkPasswordValidDays⟩], s'.ExemptsEmergency
  := by
  have hstart : AnyWatched twoGuardians := fun h => absurd rfl h
  refine ⟨hstart, ?_⟩
  apply run_exemptsEmergency _ hstart
  refine ⟨trivial, ?_, trivial, trivial⟩
  intro a ha _ _ _
  have hdesignable : ∀ a, (exemptStep twoGuardians
      ⟨laterEnv 0, .setMaxPasswordValidDays 90⟩).accounts.lookup 3 = some a →
      a.ipmiAllowed = true ∧ a.data.passwordExpiration ≠ 0 := by
    decide +kernel
  exact ⟨(hdesignable a ha).1, .inl (hdesignable a ha).2⟩

end BmcAccount
