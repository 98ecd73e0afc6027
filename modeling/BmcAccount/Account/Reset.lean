import BmcAccount.Account.SnmpKeys

/-!
# Passwords set by another account

A password that an account is given by another one has to be changed, and one that it has set
itself has not. `set_account_password` records this. Then the service looks at the validity of
all passwords anew, and what it goes by is the number of days that the last look has stored. If
the password had expired by then, the account is taken to be in order again and nothing has to
be changed any more, whoever has set the new password.
-/

namespace BmcAccount

open Raise

/-! ## The flag -/

namespace Account

variable (env : Env) (cfg : Config)

@[simp]
theorem data_updatePrivileges (given : Option (List PrivilegeType))
    (a : Account) :
  (a.updatePrivileges env cfg given).data = a.data
  := by
  unfold updatePrivileges
  simp only
  split <;> rfl

/-- A password that has not expired leaves the flag, unless it was marked as expired. -/
theorem passwordChangeRequired_updatePasswordExpireStatus (a : Account) :
  (a.updatePasswordExpireStatus env cfg false).data.passwordChangeRequired =
    (a.data.passwordChangeRequired && decide (a.data.passwordExpiration ≠ 0))
  := by
  unfold updatePasswordExpireStatus setPasswordChangeRequired
  by_cases h : a.data.passwordExpiration = 0
  · simp [h]
  · simp [h, Nat.pos_of_ne_zero h]

/-- A password that has just been set is valid for all of its time. -/
theorem calculatePasswordValidTime_of_now {id : ℕ} {a : Account}
    (h : a.data.passwordValidStartTime = env.now) :
  a.calculatePasswordValidTime env cfg id ≠ 0
  := by
  unfold calculatePasswordValidTime
  split_ifs with hmax
  · decide
  · rw [Bool.or_eq_true, decide_eq_true_eq, decide_eq_true_eq, not_or] at hmax
    simp [h, hmax.1]

/-- The look at the validity of a password that has just been set. -/
theorem passwordChangeRequired_checkPasswordValidDays {id : ℕ} {a : Account}
    (htype : a.data.accountType = .localUser) (hnow : a.data.passwordValidStartTime = env.now) :
  (a.checkPasswordValidDays env cfg id).data.passwordChangeRequired =
    (a.data.passwordChangeRequired && decide (a.data.passwordExpiration ≠ 0
      ∨ cfg.maxPasswordValidDays ≠ 0 ∧ id = cfg.emergencyLoginAccountId))
  := by
  have hvalid : a.calculatePasswordValidTime env cfg id ≠ 0 :=
    calculatePasswordValidTime_of_now env cfg hnow
  unfold checkPasswordValidDays
  have hlocal : (a.data.accountType != .localUser && a.data.accountType != .vnc) = false := by
    rw [htype]
    rfl
  rw [hlocal, if_neg Bool.false_ne_true]
  by_cases hskip : cfg.maxPasswordValidDays ≠ 0 ∧ id = cfg.emergencyLoginAccountId
  · rw [if_pos (by simpa using hskip), decide_eq_true (.inr hskip), Bool.and_true]
  · rw [if_neg (by simpa using hskip)]
    change (a.updatePasswordExpireStatus env cfg
      (decide (a.calculatePasswordValidTime env cfg id = 0))).data.passwordChangeRequired = _
    rw [decide_eq_false hvalid, passwordChangeRequired_updatePasswordExpireStatus]
    simp only [hskip, or_false]

/-- What a local account has stored when its password has been set. -/
structure ResetTo (a a' : Account) (isConfigSelf : Bool) : Prop where
  accountType : a'.data.accountType = a.data.accountType
  required : a'.data.passwordChangeRequired = !isConfigSelf
  expiration : a'.data.passwordExpiration = a.data.passwordExpiration
  start : a'.data.passwordValidStartTime = env.now

theorem resetTo_setAccountPasswordKmc {encrypts : String → Bool} {password : String}
    {isConfigSelf : Bool} {a a' : Account} (hcls : a.cls = .localAccount)
    (h : a.setAccountPasswordKmc env cfg encrypts password isConfigSelf = (a', .ok ())) :
  ResetTo env a a' isConfigSelf
  := by
  unfold setAccountPasswordKmc at h
  split_ifs at h with hkmc
  · cases h
  · unfold setAccountPassword at h
    simp only [hcls] at h
    cases hrow : a.snmp with
    | none =>
      rw [hrow] at h
      cases h
    | some r =>
      rw [hrow] at h
      cases h
      constructor
      all_goals simp [setPasswordValidStartTime, storePassword, setPasswordChangeRequired]

theorem ResetTo.setWithinMinPasswordDaysStatus {a a' : Account} {isConfigSelf : Bool}
    (h : ResetTo env a a' isConfigSelf) (status : Bool) :
  ResetTo env a (a'.setWithinMinPasswordDaysStatus status) isConfigSelf
  := by
  unfold Account.setWithinMinPasswordDaysStatus
  split
  · exact ⟨h.accountType, h.required, h.expiration, h.start⟩
  · exact h

end Account

/-! ## The service -/

variable {env : Env} {encrypts : String → Bool} {handler id : ℕ} {password : String} {s s' : State}
  {a : Account}

/-- The account after the collection has set its password. -/
theorem resetTo_setAccountPassword (ha : s.accounts.lookup id = some a)
    (hcls : a.cls = .localAccount)
    (h : exec (AccountCollection.setAccountPassword env encrypts handler id password) s
      = (.ok (), s')) :
  s'.config = s.config ∧ ∃ a', s'.accounts.lookup id = some a'
    ∧ a.ResetTo env a' (decide (handler = id))
  := by
  unfold AccountCollection.setAccountPassword at h
  rw [exec_bind_ok (exec_getAccount ha), exec_bind_ok (exec_get s)] at h
  obtain ⟨_, s₁, hcheck, h⟩ := exec_bind_eq_ok h
  have hs₁ : s₁ = s := by
    cases hr : a.passwordValidator env s.config a.data.userName password false
        (decide (handler = id)) with
    | error e =>
      rw [hr] at hcheck
      cases hcheck
    | ok u =>
      rw [hr] at hcheck
      cases hcheck
      rfl
  rw [hs₁] at h
  rcases hset : a.setAccountPasswordKmc env s.config encrypts password (decide (handler = id))
    with ⟨a', r⟩
  simp only [hset] at h
  cases r with
  | error e => cases h
  | ok u =>
    have hreset := Account.resetTo_setAccountPasswordKmc env s.config hcls hset
    cases h
    refine ⟨rfl, _, ?_, hreset.setWithinMinPasswordDaysStatus env
      (a'.withinMinPasswordDays env s.config)⟩
    change (Table.map _ (s.accounts.modify id fun _ => a')).lookup id = _
    rw [Table.lookup_map, Table.lookup_modify_self, ha]
    rfl

namespace AccountService

/-- The flag of a local account whose password the service has set. -/
theorem lookup_setAccountPassword (ha : s.accounts.lookup id = some a)
    (hcls : a.cls = .localAccount) (htype : a.data.accountType = .localUser)
    (h : exec (AccountService.setAccountPassword env encrypts handler id password) s
      = (.ok (), s')) :
  ∃ a', s'.accounts.lookup id = some a' ∧ a'.data.passwordChangeRequired =
    (!decide (handler = id) && decide (a.data.passwordExpiration ≠ 0
      ∨ s.config.maxPasswordValidDays ≠ 0 ∧ id = s.config.emergencyLoginAccountId))
  := by
  unfold AccountService.setAccountPassword at h
  rw [exec_bind_ok (exec_getAccount ha)] at h
  obtain ⟨_, s₁, hset, h⟩ := exec_bind_eq_ok h
  obtain ⟨hconfig, a₁, ha₁, hreset⟩ := resetTo_setAccountPassword ha hcls hset
  cases h
  refine ⟨a₁.checkPasswordValidDays env s₁.config id, ?_, ?_⟩
  · change (s₁.accounts.map (Account.checkPasswordValidDays env s₁.config)).lookup id = _
    rw [Table.lookup_map, ha₁]
    rfl
  · rw [Account.passwordChangeRequired_checkPasswordValidDays env s₁.config
      (hreset.accountType.trans htype) hreset.start, hreset.required, hreset.expiration, hconfig]

/-- A password that another account sets has to be changed unless it replaces one that was stored
as expired. The sweep passes over the emergency account, where it looks for expired passwords. -/
theorem changeRequired_setAccountPassword_iff (ha : s.accounts.lookup id = some a)
    (hcls : a.cls = .localAccount) (htype : a.data.accountType = .localUser)
    (h : exec (AccountService.setAccountPassword env encrypts handler id password) s
      = (.ok (), s')) :
  (∃ a', s'.accounts.lookup id = some a' ∧
      a'.data.passwordChangeRequired = decide (handler ≠ id)) ↔
    (handler ≠ id → a.data.passwordExpiration = 0 →
      s.config.maxPasswordValidDays ≠ 0 ∧ id = s.config.emergencyLoginAccountId)
  := by
  obtain ⟨a', ha', hflag⟩ := lookup_setAccountPassword ha hcls htype h
  simp only [ha', Option.some.injEq, exists_eq_left', hflag]
  by_cases hself : handler = id
  · simp [hself]
  · simp only [hself, decide_false, Bool.not_false, Bool.true_and, ne_eq, not_false_eq_true,
      decide_true, decide_eq_true_eq, true_implies]
    exact ⟨fun h hz => h.resolve_left (not_not_intro hz), fun h => or_iff_not_imp_left.2
      fun hz => h (not_not.1 hz)⟩

/-! ### A reset by an administrator -/

/-- A user whose password has expired. -/
def expiredUser : Account :=
  { plainAccount "user" 3 223 with
    data := { (plainAccount "user" 3 223).data with
      passwordChangeRequired := true
      passwordExpiration := 0
      passwordValidStartTime := plainEnv.now - 100 * daySecondCount } }

/-- An administrator and the user, whose passwords are valid for ninety days. -/
def expiredState : State :=
  { plainState [(2, plainAccount "Administrator" 4 223), (3, expiredUser)] with
    config := { plainConfig with maxPasswordValidDays := 90 } }

theorem exec_setAccountPassword_self :
  exec (AccountService.setAccountPassword plainEnv (fun _ => true) 3 3 "Admin@9000") expiredState
    = (.ok (), after (AccountService.setAccountPassword plainEnv (fun _ => true) 3 3 "Admin@9000")
        expiredState)
  := Prod.ext rfl rfl

theorem changeRequired_self_iff :
  (∃ a', (after (AccountService.setAccountPassword plainEnv (fun _ => true) 3 3 "Admin@9000")
        expiredState).accounts.lookup 3 = some a' ∧
      a'.data.passwordChangeRequired = decide (3 ≠ 3)) ↔
    (3 ≠ 3 → expiredUser.data.passwordExpiration = 0 →
      expiredState.config.maxPasswordValidDays ≠ 0 ∧
        3 = expiredState.config.emergencyLoginAccountId)
  := changeRequired_setAccountPassword_iff rfl rfl rfl exec_setAccountPassword_self

/-- The administrator resets the expired password, and the user need not change it. -/
theorem expired_not_changeRequired :
  exec (AccountService.setAccountPassword plainEnv (fun _ => true) 2 3 "Admin@9000") expiredState
      = (.ok (), after (AccountService.setAccountPassword plainEnv (fun _ => true) 2 3
          "Admin@9000") expiredState) ∧
    ((after (AccountService.setAccountPassword plainEnv (fun _ => true) 2 3 "Admin@9000")
        expiredState).accounts.lookup 3).map (·.data.passwordChangeRequired) = some false
  := ⟨Prod.ext rfl rfl, rfl⟩

end AccountService

end BmcAccount
