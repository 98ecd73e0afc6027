import BmcAccount.Account.RecoverAdmin

/-!
# Operations that are done wholly or not at all

An operation that raises keeps the changes it has made before. Two operations make a change before
their last test: `set_login_interface` clears the IPMI password before the account object is asked
whether its login interfaces are writable, and `delete_account` chooses another account for the SNMP
traps before the policy is asked whether the account is deletable. `setLoginInterface_atomic_iff` and
`deleteAccount_allOrNothing_iff` say when they are done wholly or not at all all the same.
-/

namespace BmcAccount

open Raise

/-! ## Login interfaces -/

/-- `set_login_interface` of the account object raises. -/
def Account.refusesLoginInterface (env : Env) (interface : ℕ) (a : Account) : Bool :=
  match a.cls with
  | .localAccount | .oemAccount => !a.getPropertyWritable .loginInterface
  | .interChassisAccount => interface &&& env.interChassisInterfaces ≠ interface
  | _ => false

theorem Account.isOk_setLoginInterface (env : Env) (interface : ℕ) (a : Account) :
  (a.setLoginInterface env interface).isOk = !a.refusesLoginInterface env interface
  := by
  unfold Account.setLoginInterface Account.refusesLoginInterface
  cases a.cls with
  | localAccount | oemAccount => cases a.getPropertyWritable .loginInterface <;> rfl
  | interChassisAccount =>
    dsimp only
    by_cases h : interface &&& env.interChassisInterfaces = interface
    · rw [if_pos h, decide_eq_false (not_not.mpr h)]
      rfl
    · rw [if_neg h, decide_eq_true h]
      rfl
  | _ => rfl

/-- The IPMI password, which the account has, is to be cleared with the IPMI interface, and then the
account object refuses the login interfaces. -/
def State.ClearsAndRefuses (s : State) (env : Env) (id : ℕ) (interfaces : List String) : Prop :=
  ∃ a, s.accounts.lookup id = some a ∧ checkInterfaceInfo interfaces = true
    ∧ ¬ (s.IsLastOperateAdmin id ∧
      (coverInterfaceStrToNum interfaces = LoginInterface.sftp.value
        ∨ coverInterfaceStrToNum interfaces = LoginInterface.invalid.value))
    ∧ a.isDeleteIpmiInterface (coverInterfaceStrToNum interfaces) = true
    ∧ a.refusesLoginInterface env (coverInterfaceStrToNum interfaces) = true
    ∧ a.data.ipmiPassword ≠ some ""

/-- The account without its IPMI password. -/
def Account.clearIpmiPassword (a : Account) : Account :=
  { a with data := { a.data with ipmiPassword := some "" } }

section LoginInterface

variable {env : Env} {s : State} {id : ℕ} {interfaces : List String} {a : Account}

/-- What is left of `set_login_interface` after its own tests. -/
theorem exec_setLoginInterface_checked (ha : s.accounts.lookup id = some a)
    (hknown : checkInterfaceInfo interfaces = true)
    (hlast : ¬ (s.IsLastOperateAdmin id ∧
      (coverInterfaceStrToNum interfaces = LoginInterface.sftp.value
        ∨ coverInterfaceStrToNum interfaces = LoginInterface.invalid.value))) :
  let interface := coverInterfaceStrToNum interfaces
  exec (setLoginInterface env id interfaces) s =
    exec (callAccount id fun _ => Account.setLoginInterface env interface)
      (if a.isDeleteIpmiInterface interface then s.modifyAccount id Account.clearIpmiPassword
        else s)
  := by
  intro interface
  unfold setLoginInterface
  rw [exec_bind_ok (exec_getAccount ha), hknown, Bool.not_true,
    exec_bind_ok (exec_refuse_false _ s)]
  obtain ⟨last, hexec, hiff⟩ := exec_checkIsLastOperateAdmin ha
  rw [exec_bind_ok hexec]
  have hclosing : (last && (decide (interface = LoginInterface.sftp.value)
      || decide (interface = LoginInterface.invalid.value))) = false := by
    rw [← hiff] at hlast
    simpa using hlast
  dsimp only
  rw [hclosing, exec_bind_ok (exec_refuse_false _ s)]
  cases a.isDeleteIpmiInterface interface <;> rfl

/-- The tests of `set_login_interface` itself come before any change. -/
theorem exec_setLoginInterface_unchecked (env : Env) (ha : s.accounts.lookup id = some a)
    (h : ¬ (checkInterfaceInfo interfaces = true ∧ ¬ (s.IsLastOperateAdmin id ∧
      (coverInterfaceStrToNum interfaces = LoginInterface.sftp.value
        ∨ coverInterfaceStrToNum interfaces = LoginInterface.invalid.value)))) :
  ∃ e, exec (setLoginInterface env id interfaces) s = (.error e, s)
  := by
  unfold setLoginInterface
  rw [exec_bind_ok (exec_getAccount ha)]
  cases hknown : checkInterfaceInfo interfaces with
  | false =>
    rw [Bool.not_false, exec_bind_error (exec_refuse_true _ s)]
    exact ⟨_, rfl⟩
  | true =>
    obtain ⟨last, hexec, hiff⟩ := exec_checkIsLastOperateAdmin ha
    rw [Bool.not_true, exec_bind_ok (exec_refuse_false _ s), exec_bind_ok hexec]
    have hclosing : (last && (decide (coverInterfaceStrToNum interfaces
          = LoginInterface.sftp.value) || decide (coverInterfaceStrToNum interfaces
          = LoginInterface.invalid.value))) = true := by
      rw [hknown, ← hiff] at h
      simpa [or_iff_not_imp_left] using h
    dsimp only
    rw [hclosing, exec_bind_error (exec_refuse_true _ s)]
    exact ⟨_, rfl⟩

theorem exec_callAccount_setLoginInterface (env : Env) (interface : ℕ)
    (ha : s.accounts.lookup id = some a) :
  (∃ s', exec (callAccount id fun _ => Account.setLoginInterface env interface) s = (.ok (), s')
      ∧ a.refusesLoginInterface env interface = false)
    ∨ ∃ e, exec (callAccount id fun _ => Account.setLoginInterface env interface) s = (.error e, s)
      ∧ a.refusesLoginInterface env interface = true
  := by
  have hok := a.isOk_setLoginInterface env interface
  rw [exec_callAccount ha]
  cases hmethod : a.setLoginInterface env interface with
  | ok a' =>
    left
    refine ⟨_, rfl, ?_⟩
    simpa [hmethod, Except.isOk, Except.toBool] using hok
  | error e =>
    right
    refine ⟨e, rfl, ?_⟩
    simpa [hmethod, Except.isOk, Except.toBool] using hok

end LoginInterface

/-- When `set_login_interface` raises, the account is as it was, except where an IPMI password is
cleared and then the account object refuses. -/
theorem setLoginInterface_atomic_iff (env : Env) (s : State) (id : ℕ) (interfaces : List String) :
  (∀ e s', exec (setLoginInterface env id interfaces) s = (.error e, s') →
      s'.accounts.lookup id = s.accounts.lookup id)
    ↔ ¬ s.ClearsAndRefuses env id interfaces
  := by
  cases ha : s.accounts.lookup id with
  | none =>
    have hexec : exec (setLoginInterface env id interfaces) s = (.error .invalidAccountId, s) := by
      unfold setLoginInterface
      rw [exec_bind_error (exec_getAccount_none ha)]
    constructor
    · rintro - ⟨a, ha', -⟩
      rw [ha] at ha'
      cases ha'
    · intro _ e s' h
      rw [hexec] at h
      cases h
      exact ha
  | some a =>
    by_cases hchecked : checkInterfaceInfo interfaces = true ∧ ¬ (s.IsLastOperateAdmin id ∧
        (coverInterfaceStrToNum interfaces = LoginInterface.sftp.value
          ∨ coverInterfaceStrToNum interfaces = LoginInterface.invalid.value))
    · have hclears : s.ClearsAndRefuses env id interfaces ↔
          a.isDeleteIpmiInterface (coverInterfaceStrToNum interfaces) = true
          ∧ a.refusesLoginInterface env (coverInterfaceStrToNum interfaces) = true
          ∧ a.data.ipmiPassword ≠ some "" := by
        constructor
        · rintro ⟨a', ha', -, -, hrest⟩
          rw [ha] at ha'
          rwa [Option.some_inj.mp ha']
        · intro hrest
          exact ⟨a, ha, hchecked.1, hchecked.2, hrest⟩
      rw [hclears, exec_setLoginInterface_checked ha hchecked.1 hchecked.2]
      cases hclear : a.isDeleteIpmiInterface (coverInterfaceStrToNum interfaces) with
      | false =>
        rw [if_neg Bool.false_ne_true]
        refine ⟨fun _ h => absurd h.1 Bool.false_ne_true, fun _ e s' h => ?_⟩
        obtain ⟨s₁, hexec, -⟩ | ⟨e', hexec, -⟩ :=
          exec_callAccount_setLoginInterface env (coverInterfaceStrToNum interfaces) ha
        · rw [hexec] at h
          cases h
        · rw [hexec] at h
          cases h
          exact ha
      | true =>
        rw [if_pos rfl]
        have hcleared : (s.modifyAccount id Account.clearIpmiPassword).accounts.lookup id
            = some a.clearIpmiPassword := by
          simp [State.modifyAccount, ha]
        have hsame : a.clearIpmiPassword.refusesLoginInterface env
            (coverInterfaceStrToNum interfaces)
              = a.refusesLoginInterface env (coverInterfaceStrToNum interfaces) := rfl
        obtain ⟨s₁, hexec, hrefuses⟩ | ⟨e', hexec, hrefuses⟩ :=
          exec_callAccount_setLoginInterface env (coverInterfaceStrToNum interfaces) hcleared
        · rw [hexec, ← hsame, hrefuses]
          exact ⟨fun _ h => absurd h.2.1 Bool.false_ne_true, fun _ e s' h => by cases h⟩
        · rw [hexec, ← hsame, hrefuses]
          constructor
          · rintro hsame ⟨-, -, hne⟩
            have hkept := hsame e' _ rfl
            rw [hcleared] at hkept
            apply hne
            rw [← Option.some_inj.mp hkept]
            rfl
          · intro hempty e s' h
            cases h
            have hnone : a.data.ipmiPassword = some "" := by
              by_contra hne
              exact hempty ⟨rfl, rfl, hne⟩
            rw [hcleared]
            congr 1
            unfold Account.clearIpmiPassword
            rw [← hnone]
    · obtain ⟨e, hexec⟩ := exec_setLoginInterface_unchecked env ha hchecked
      constructor
      · rintro - ⟨_, _, hknown, hlast, -⟩
        exact hchecked ⟨hknown, hlast⟩
      · intro _ e' s' h
        rw [hexec] at h
        cases h
        exact ha

/-! ### An account whose login interfaces are not writable -/

/-- An operator with an IPMI password, whose login interfaces are fixed. -/
def fixedAccount : Account :=
  let plain := plainAccount "user" RoleType.operator.value 223
  { plain with data := { plain.data with
    ipmiPassword := some "secret"
    loginInterfaceWritable := false } }

theorem setLoginInterface_clears :
  ¬ ∀ e s', exec (setLoginInterface plainEnv 3 ["Web"]) (plainState [(3, fixedAccount)])
      = (.error e, s') →
    s'.accounts.lookup 3 = (plainState [(3, fixedAccount)]).accounts.lookup 3
  := by
  intro h
  have hpassword : ((after (setLoginInterface plainEnv 3 ["Web"])
      (plainState [(3, fixedAccount)])).accounts.lookup 3).map (·.data.ipmiPassword)
        = ((plainState [(3, fixedAccount)]).accounts.lookup 3).map (·.data.ipmiPassword) := by
    congr 1
    exact h (.propertyNotWritable .loginInterface) _ rfl
  revert hpassword
  decide +kernel

/-! ## The account for the traps -/

/-- An account for the SNMP traps: an enabled administrator whose password has not expired, or the
emergency account. -/
def State.TakesTraps (s : State) (id : ℕ) (a : Account) : Prop :=
  a.checkIsEnabledAdmin = true ∧ a.data.passwordExpiration ≠ 0 ∨ s.checkIsEmergencyUser id = true

/-- The accounts other than `id` that can be the one for the traps. -/
def State.trapCandidates (s : State) (id : ℕ) : Set ℕ :=
  {i | i ≠ id ∧ ∃ a, s.accounts.lookup i = some a ∧ s.TakesTraps i a}

/-- The account is the one for the traps, and another one is to be chosen when it goes. -/
def State.movesTraps (s : State) (id : ℕ) : Bool :=
  id = s.config.snmpV3TrapAccountId && s.config.snmpV3TrapAccountChangePolicy = 1

/-- The least key of a list of entries that satisfies `p` and is at most `n`, or `n`. -/
theorem foldl_least {V : Type} (p : (Sigma fun _ : ℕ => V) → Bool) (n : ℕ)
    (l : List (Sigma fun _ : ℕ => V)) :
  let m := l.foldl (fun m e => if p e && e.1 ≤ m then e.1 else m) n
  m ≤ n ∧ (m = n ∨ ∃ e ∈ l, p e = true ∧ e.1 = m) ∧ ∀ e ∈ l, p e = true → e.1 ≤ n → m ≤ e.1
  := by
  induction l generalizing n with
  | nil => exact ⟨le_rfl, .inl rfl, fun e he => absurd he List.not_mem_nil⟩
  | cons e l ih =>
    intro m
    by_cases hstep : p e = true ∧ e.1 ≤ n
    · have hfold : m = l.foldl (fun m e => if p e && e.1 ≤ m then e.1 else m) e.1 := by
        simp [m, hstep.1, hstep.2]
      obtain ⟨hle, hfrom, hleast⟩ := ih e.1
      rw [← hfold] at hle hfrom hleast
      refine ⟨hle.trans hstep.2, .inr ?_, ?_⟩
      · obtain heq | ⟨e', he', hp, heq⟩ := hfrom
        · exact ⟨e, List.mem_cons_self, hstep.1, heq.symm⟩
        · exact ⟨e', List.mem_cons_of_mem e he', hp, heq⟩
      · intro e' he' hp hn
        obtain rfl | he' := List.mem_cons.mp he'
        · exact hle
        · by_cases hlt : e'.1 ≤ e.1
          · exact hleast e' he' hp hlt
          · exact hle.trans (not_le.mp hlt).le
    · have hguard : (p e && decide (e.1 ≤ n)) = false := by
        cases hp : p e <;> simp [hp] at hstep ⊢
        exact hstep
      have hfold : m = l.foldl (fun m e => if p e && e.1 ≤ m then e.1 else m) n := by
        simp [m, hguard]
      obtain ⟨hle, hfrom, hleast⟩ := ih n
      rw [← hfold] at hle hfrom hleast
      refine ⟨hle, hfrom.imp_right ?_, ?_⟩
      · rintro ⟨e', he', h⟩
        exact ⟨e', List.mem_cons_of_mem e he', h⟩
      · intro e' he' hp hn
        obtain rfl | he' := List.mem_cons.mp he'
        · exact absurd ⟨hp, hn⟩ hstep
        · exact hleast e' he' hp hn

/-- The state with another account for the traps. -/
def State.setTrapAccount (i : ℕ) (s : State) : State :=
  { s with config := { s.config with snmpV3TrapAccountId := i } }

section Traps

variable {s : State} {id : ℕ}

/-- The account that is chosen is the least one that can be; if there is none, the choice raises. -/
theorem exec_changeSnmpV3TrapAccount (id : ℕ) (hinvalid : s.accounts.lookup maxInvalidUserId = none) :
  (∃ i ≤ maxInvalidUserId, IsLeast (s.trapCandidates id) i
      ∧ exec (changeSnmpV3TrapAccount id) s = (.ok (), s.setTrapAccount i))
    ∨ (∀ i ∈ s.trapCandidates id, maxInvalidUserId < i)
      ∧ exec (changeSnmpV3TrapAccount id) s = (.error .accountForbidRemoved, s)
  := by
  let p (e : Sigma fun _ : ℕ => Account) : Bool :=
    ((e.2.checkIsEnabledAdmin && e.2.data.passwordExpiration != 0) || s.checkIsEmergencyUser e.1)
      && e.1 != id
  have hp (i : ℕ) (a : Account) (ha : s.accounts.lookup i = some a) :
      p ⟨i, a⟩ = true ↔ i ∈ s.trapCandidates id := by
    have hmem : i ∈ s.trapCandidates id ↔ i ≠ id ∧ s.TakesTraps i a := by
      constructor
      · rintro ⟨hne, a', ha', htakes⟩
        rw [ha] at ha'
        rw [Option.some_inj.mp ha']
        exact ⟨hne, htakes⟩
      · rintro ⟨hne, htakes⟩
        exact ⟨hne, a, ha, htakes⟩
    rw [hmem]
    unfold State.TakesTraps
    simp [p, and_comm]
  obtain ⟨hle, hfrom, hleast⟩ := foldl_least p maxInvalidUserId s.accounts.entries
  unfold changeSnmpV3TrapAccount
  rw [exec_bind_ok (exec_get s)]
  dsimp only
  generalize hm : s.accounts.entries.foldl
    (fun m e => if p e && e.1 ≤ m then e.1 else m) maxInvalidUserId = m at hle hfrom hleast
  obtain rfl | ⟨⟨i, a⟩, he, hpe, rfl⟩ := hfrom
  · right
    refine ⟨?_, ?_⟩
    · intro i hi
      by_contra hlt
      obtain ⟨hne, a, ha, htakes⟩ := hi
      have hge := hleast ⟨i, a⟩ (Table.mem_entries_iff.mpr ha)
        ((hp i a ha).mpr ⟨hne, a, ha, htakes⟩) (not_lt.mp hlt)
      obtain rfl : i = maxInvalidUserId := le_antisymm (not_lt.mp hlt) hge
      rw [hinvalid] at ha
      cases ha
    · rw [hinvalid, Option.isNone_none, exec_bind_error (exec_refuse_true _ s)]
  · left
    have ha := Table.mem_entries_iff.mp he
    refine ⟨i, hle, ⟨(hp i a ha).mp hpe, ?_⟩, ?_⟩
    · intro j hj
      obtain ⟨hne, b, hb, htakes⟩ := hj
      by_cases hj : j ≤ maxInvalidUserId
      · exact hleast ⟨j, b⟩ (Table.mem_entries_iff.mpr hb)
          ((hp j b hb).mpr ⟨hne, b, hb, htakes⟩) hj
      · exact hle.trans (not_le.mp hj).le
    · rw [ha, Option.isNone_some, exec_bind_ok (exec_refuse_false _ s)]
      rfl

end Traps

/-! ## Deletion -/

/-- The account can be deleted, as far as it is tested before the account for the traps moves. -/
structure State.LetsDelete (s : State) (env : Env) (id : ℕ) (a : Account) : Prop where
  offline : (env.onlineDeletable .localUser).getD true = true ∨ a.data.isOnline = false
  writable : a.getPropertyWritable .userName = true
  notEmergency : s.checkIsEmergencyUser id = false
  notLast : ¬ s.IsLastOperateAdmin id
  notFixed : ¬ (id = s.config.snmpV3TrapAccountId ∧ s.config.snmpV3TrapAccountChangePolicy = 0
    ∧ s.config.snmpV3TrapAccountLimitPolicy ≠ .modifiable)

/-- The policy of the type of the account does not let it be deleted. -/
def Account.deletionForbidden (env : Env) (validationSkipped : Bool) (a : Account) : Bool :=
  !validationSkipped && !(env.deletable a.data.accountType).getD false

/-- What `delete_account` does after its first tests. -/
def finishDeletion (env : Env) (id : ℕ) (validationSkipped : Bool) (a : Account) : M Unit := do
  refuse (!validationSkipped && (env.deletable a.data.accountType).isNone) .internalError
  refuse (!validationSkipped && !(env.deletable a.data.accountType).getD true) .accountForbidRemoved
  removeAccount id

section Delete

variable {env : Env} {s : State} {id : ℕ} {a : Account} {validationSkipped : Bool}

theorem exec_leaveTrapAccount (hfixed : ¬ (id = s.config.snmpV3TrapAccountId
    ∧ s.config.snmpV3TrapAccountChangePolicy = 0
    ∧ s.config.snmpV3TrapAccountLimitPolicy ≠ .modifiable)) :
  exec (leaveTrapAccount id) s =
    if s.movesTraps id then exec (changeSnmpV3TrapAccount id) s else (.ok (), s)
  := by
  have hguard : (id = s.config.snmpV3TrapAccountId && s.config.snmpV3TrapAccountChangePolicy = 0
      && s.config.snmpV3TrapAccountLimitPolicy != .modifiable) = false := by
    simpa using hfixed
  unfold leaveTrapAccount State.movesTraps
  rw [exec_bind_ok (exec_get s), hguard, if_neg Bool.false_ne_true]
  cases decide (id = s.config.snmpV3TrapAccountId)
    && decide (s.config.snmpV3TrapAccountChangePolicy = 1) <;> rfl

theorem exec_deleteAccount_of_lets (validationSkipped : Bool) (hid : id ≠ interChassisAccountId)
    (ha : s.accounts.lookup id = some a) (h : s.LetsDelete env id a) :
  exec (deleteAccount env id validationSkipped) s =
    exec (leaveTrapAccount id >>= fun _ => finishDeletion env id validationSkipped a) s
  := by
  have hoffline : (!(env.onlineDeletable .localUser).getD true && a.data.isOnline) = false := by
    obtain h | h := h.offline <;> simp [h]
  have hlast : exec (refuseLastOperateAdmin true id .cannotDeleteLastAdministrator) s
      = (.ok (), s) := exec_refuseLastOperateAdmin_ok ha fun h' => h.notLast h'.2
  unfold deleteAccount
  rw [if_neg hid, exec_bind_ok (exec_getAccount ha), hoffline,
    exec_bind_ok (exec_refuse_false _ s), h.writable, Bool.not_true,
    exec_bind_ok (exec_refuse_false _ s)]
  have hemergency : exec (refuseEmergencyUser true id .accountForbidRemoved) s = (.ok (), s) := by
    rw [exec_refuseEmergencyUser, h.notEmergency]
    rfl
  rw [exec_bind_ok hemergency, exec_bind_ok hlast]
  rfl

theorem exec_deleteAccount_of_not_lets (validationSkipped : Bool) (hid : id ≠ interChassisAccountId)
    (ha : s.accounts.lookup id = some a) (h : ¬ s.LetsDelete env id a) :
  ∃ e, exec (deleteAccount env id validationSkipped) s = (.error e, s)
  := by
  unfold deleteAccount
  rw [if_neg hid, exec_bind_ok (exec_getAccount ha)]
  cases honline : !(env.onlineDeletable .localUser).getD true && a.data.isOnline with
  | true => exact ⟨_, by rw [exec_bind_error (exec_refuse_true _ s)]⟩
  | false =>
  rw [exec_bind_ok (exec_refuse_false _ s)]
  cases hwritable : a.getPropertyWritable .userName with
  | false => exact ⟨_, by rw [Bool.not_false, exec_bind_error (exec_refuse_true _ s)]⟩
  | true =>
  rw [Bool.not_true, exec_bind_ok (exec_refuse_false _ s)]
  cases hemergency : s.checkIsEmergencyUser id with
  | true =>
    have hexec : exec (refuseEmergencyUser true id .accountForbidRemoved) s
        = (.error .accountForbidRemoved, s) := by
      rw [exec_refuseEmergencyUser, hemergency]
      rfl
    exact ⟨_, by rw [exec_bind_error hexec]⟩
  | false =>
  have hexec : exec (refuseEmergencyUser true id .accountForbidRemoved) s = (.ok (), s) := by
    rw [exec_refuseEmergencyUser, hemergency]
    rfl
  rw [exec_bind_ok hexec]
  by_cases hlast : s.IsLastOperateAdmin id
  · have hexec := exec_refuseLastOperateAdmin_error (b := true)
      (e := .cannotDeleteLastAdministrator) ha ⟨rfl, hlast⟩
    exact ⟨_, by rw [exec_bind_error hexec]⟩
  rw [exec_bind_ok (exec_refuseLastOperateAdmin_ok ha fun h' => hlast h'.2)]
  have hfixed : id = s.config.snmpV3TrapAccountId ∧ s.config.snmpV3TrapAccountChangePolicy = 0
      ∧ s.config.snmpV3TrapAccountLimitPolicy ≠ .modifiable := by
    by_contra hfixed
    apply h
    exact
      { offline := by
          simpa [or_iff_not_imp_left] using honline
        writable := hwritable
        notEmergency := hemergency
        notLast := hlast
        notFixed := hfixed }
  have hguard : (id = s.config.snmpV3TrapAccountId && s.config.snmpV3TrapAccountChangePolicy = 0
      && s.config.snmpV3TrapAccountLimitPolicy != .modifiable) = true := by
    simpa [and_assoc] using hfixed
  have hexec : exec (leaveTrapAccount id) s = (.error .accountForbidRemoved, s) := by
    unfold leaveTrapAccount
    rw [exec_bind_ok (exec_get s), hguard]
    rfl
  exact ⟨_, by rw [exec_bind_error hexec]⟩

/-- The number of the other enabled administrators. -/
def State.otherEnabledAdminNumber (s : State) (id : ℕ) : ℕ :=
  Table.count (fun _ a => a.checkIsEnabledAdmin) (s.accounts.erase id)

/-- What is left when an account is removed that has an SNMP row. -/
def State.removed (s : State) (id : ℕ) : State :=
  { s with
    accounts := Table.map (Account.updateDeletable s.config (s.otherEnabledAdminNumber id = 1))
      (s.accounts.erase id)
    channels := s.channels.erase id }

/-- What is left when an account is removed that has none. -/
def State.halfRemoved (s : State) (id : ℕ) : State :=
  State.modifyAccount id (fun a => { a with inTable := false })
    { s.modifyAccount id fun a => { a with history := [] } with channels := s.channels.erase id }

theorem exec_removeAccount_of_snmp (ha : s.accounts.lookup id = some a) :
  exec (removeAccount id) s =
    if a.snmp.isSome then (.ok (), s.removed id) else (.error .indexNil, s.halfRemoved id)
  := by
  have ha' : (s.halfRemoved id).accounts.lookup id
      = some { a with history := [], inTable := false } := by
    simp [State.halfRemoved, State.modifyAccount, ha]
  have hexec : exec (removeAccount id) s = exec (getAccount id .indexNil >>= fun account =>
      refuse account.snmp.isNone .indexNil >>= fun _ =>
      modify (fun s => { s with accounts := s.accounts.erase id }) >>= fun _ =>
      updateDeletable) (s.halfRemoved id) := rfl
  rw [hexec, exec_bind_ok (exec_getAccount ha')]
  cases hsnmp : a.snmp with
  | none => rfl
  | some r =>
    have herase : (s.halfRemoved id).accounts.erase id = s.accounts.erase id :=
      (Table.erase_modify id _ _).trans (Table.erase_modify id _ s.accounts)
    rw [Option.isSome_some, if_pos rfl]
    change exec updateDeletable
      { s.halfRemoved id with accounts := (s.halfRemoved id).accounts.erase id } = _
    rw [herase]
    rfl

theorem exec_finishDeletion (env : Env) (validationSkipped : Bool)
    (ha : s.accounts.lookup id = some a) :
  (a.deletionForbidden env validationSkipped = true
      ∧ ∃ e, exec (finishDeletion env id validationSkipped a) s = (.error e, s))
    ∨ (a.deletionForbidden env validationSkipped = false
      ∧ exec (finishDeletion env id validationSkipped a) s =
        if a.snmp.isSome then (.ok (), s.removed id) else (.error .indexNil, s.halfRemoved id))
  := by
  unfold finishDeletion Account.deletionForbidden
  cases validationSkipped with
  | true =>
    right
    exact ⟨rfl, exec_removeAccount_of_snmp ha⟩
  | false =>
    cases env.deletable a.data.accountType with
    | none => exact .inl ⟨rfl, _, rfl⟩
    | some deletable =>
      cases deletable with
      | false => exact .inl ⟨rfl, _, rfl⟩
      | true => exact .inr ⟨rfl, exec_removeAccount_of_snmp ha⟩

end Delete

/-- The account is gone with all that belongs to it, and the others are the same up to `same`; if it
was the one for the traps, the least of the others that can be is the one for the traps now. -/
structure State.Deleted (same : Account → Account → Prop) (s s' : State) (id : ℕ) : Prop where
  gone : s'.accounts.lookup id = none
  channels : s'.channels = s.channels.erase id
  others : ∀ i ≠ id, Option.Rel same (s.accounts.lookup i) (s'.accounts.lookup i)
  backup : s'.backup = s.backup
  config : s'.config = { s.config with snmpV3TrapAccountId := s'.config.snmpV3TrapAccountId }
  traps : if s.movesTraps id then IsLeast (s.trapCandidates id) s'.config.snmpV3TrapAccountId
    else s'.config.snmpV3TrapAccountId = s.config.snmpV3TrapAccountId

/-- Either `delete_account` raises and changes nothing, or it deletes the account. -/
def State.AllOrNothing (same : Account → Account → Prop) (env : Env) (s : State) (id : ℕ)
    (validationSkipped : Bool) : Prop :=
  (∃ e, exec (deleteAccount env id validationSkipped) s = (.error e, s))
    ∨ ∃ s', exec (deleteAccount env id validationSkipped) s = (.ok (), s')
      ∧ State.Deleted same s s' id

/-- There is an account for the traps to move to, if they have to move. -/
def State.CanMoveTraps (s : State) (id : ℕ) : Prop :=
  s.movesTraps id = true → ∃ i ∈ s.trapCandidates id, i ≤ maxInvalidUserId

/-- When everything else lets the account be deleted, the traps do not move before the policy or a
missing SNMP row ends the deletion, and a missing SNMP row ends it only where an earlier deletion
has left nothing to lose: no history, no channels and no row in the table. -/
def State.DeletesWhole (env : Env) (s : State) (id : ℕ) (validationSkipped : Bool) : Prop :=
  ∀ a, s.accounts.lookup id = some a → s.LetsDelete env id a → s.CanMoveTraps id →
    (s.movesTraps id = true → a.deletionForbidden env validationSkipped = false ∧ a.snmp.isSome)
    ∧ (a.deletionForbidden env validationSkipped = false → a.snmp.isSome
      ∨ a.history = [] ∧ s.channels.lookup id = none ∧ a.inTable = false)

/-- The deletion succeeds. -/
def State.Deletes (env : Env) (s : State) (id : ℕ) (validationSkipped : Bool) : Prop :=
  ∃ a, s.accounts.lookup id = some a ∧ s.LetsDelete env id a ∧ s.CanMoveTraps id
    ∧ a.deletionForbidden env validationSkipped = false ∧ a.snmp.isSome

/-- The flags that say whether the others are deletable are those without the account. -/
def State.FlagsStay (same : Account → Account → Prop) (s : State) (id : ℕ) : Prop :=
  ∀ i ≠ id, ∀ b, s.accounts.lookup i = some b → same b (b.updateDeletable s.config
    (s.otherEnabledAdminNumber id = 1) i)

section Whole

variable {env : Env} {s : State} {id : ℕ} {validationSkipped : Bool}
  {same : Account → Account → Prop}

theorem lookup_removed_ne {i : ℕ} (hi : i ≠ id) :
  (s.removed id).accounts.lookup i = (s.accounts.lookup i).map fun b =>
    b.updateDeletable s.config (s.otherEnabledAdminNumber id = 1) i
  := by
  unfold State.removed
  rw [Table.lookup_map, AList.lookup_erase_ne hi]

theorem rel_map_iff {α : Type} {r : α → α → Prop} {f : α → α} {x : Option α} :
  Option.Rel r x (x.map f) ↔ ∀ b, x = some b → r b (f b)
  := by
  cases x with
  | none => exact ⟨fun _ b h => (nomatch h), fun _ => .none⟩
  | some b =>
    constructor
    · rintro ⟨h⟩ b' ⟨⟩
      assumption
    · exact fun h => .some (h b rfl)

/-- The state after a removal is one in which the account is deleted, just if the flags of the others
stay the same. -/
theorem deleted_removed_iff (htraps : s.movesTraps id = false) :
  State.Deleted same s (s.removed id) id ↔ s.FlagsStay same id
  := by
  constructor
  · intro h i hi b hb
    have hrel := h.others i hi
    rw [lookup_removed_ne hi] at hrel
    exact rel_map_iff.mp hrel b hb
  · intro h
    exact
      { gone := by
          unfold State.removed
          rw [Table.lookup_map, AList.lookup_erase, Option.map_none]
        channels := rfl
        others := fun i hi => by
          rw [lookup_removed_ne hi]
          exact rel_map_iff.mpr (h i hi)
        backup := rfl
        config := rfl
        traps := by
          rw [htraps, if_neg Bool.false_ne_true]
          rfl }

/-- The account for the traps does not matter to the flags where it can be replaced. -/
theorem updateDeletable_setTrapAccount (htraps : s.movesTraps id = true) (i j : ℕ) (only : Bool)
    (b : Account) :
  b.updateDeletable (s.setTrapAccount i).config only j = b.updateDeletable s.config only j
  := by
  have hpolicy : s.config.snmpV3TrapAccountChangePolicy = 1 := by
    unfold State.movesTraps at htraps
    simpa using (Bool.and_eq_true_iff.mp htraps).2
  unfold Account.updateDeletable State.setTrapAccount
  simp [hpolicy]

theorem deleted_removed_setTrapAccount_iff (htraps : s.movesTraps id = true) {i : ℕ}
    (hi : IsLeast (s.trapCandidates id) i) :
  State.Deleted same s ((s.setTrapAccount i).removed id) id ↔ s.FlagsStay same id
  := by
  have hlookup (j : ℕ) (hj : j ≠ id) :
      ((s.setTrapAccount i).removed id).accounts.lookup j = (s.accounts.lookup j).map fun b =>
        b.updateDeletable s.config (s.otherEnabledAdminNumber id = 1) j := by
    rw [lookup_removed_ne hj]
    congr 1
    funext b
    exact updateDeletable_setTrapAccount htraps i j _ b
  constructor
  · intro h j hj b hb
    have hrel := h.others j hj
    rw [hlookup j hj] at hrel
    exact rel_map_iff.mp hrel b hb
  · intro h
    exact
      { gone := by
          unfold State.removed
          rw [Table.lookup_map, AList.lookup_erase, Option.map_none]
        channels := rfl
        others := fun j hj => by
          rw [hlookup j hj]
          exact rel_map_iff.mpr (h j hj)
        backup := rfl
        config := rfl
        traps := by
          rw [htraps, if_pos rfl]
          exact hi }

theorem allOrNothing_of_error {e : Err} {s' : State}
    (h : exec (deleteAccount env id validationSkipped) s = (.error e, s')) :
  State.AllOrNothing same env s id validationSkipped ↔ s' = s
  := by
  unfold State.AllOrNothing
  rw [h]
  constructor
  · rintro (⟨e', h'⟩ | ⟨s'', h', -⟩)
    · exact congrArg Prod.snd h'
    · cases h'
  · rintro rfl
    exact .inl ⟨e, rfl⟩

theorem allOrNothing_of_ok {s' : State}
    (h : exec (deleteAccount env id validationSkipped) s = (.ok (), s')) :
  State.AllOrNothing same env s id validationSkipped ↔ State.Deleted same s s' id
  := by
  unfold State.AllOrNothing
  rw [h]
  constructor
  · rintro (⟨e', h'⟩ | ⟨s'', h', hdeleted⟩)
    · cases h'
    · cases h'
      exact hdeleted
  · exact fun hdeleted => .inr ⟨s', rfl, hdeleted⟩

theorem halfRemoved_eq_iff {a : Account} (ha : s.accounts.lookup id = some a) :
  s.halfRemoved id = s
    ↔ a.history = [] ∧ s.channels.lookup id = none ∧ a.inTable = false
  := by
  constructor
  · intro h
    have haccounts := congrArg (fun s : State => s.accounts.lookup id) h
    have hchannels := congrArg (fun s : State => s.channels.lookup id) h
    have hlookup : (s.halfRemoved id).accounts.lookup id
        = some { a with history := [], inTable := false } := by
      simp [State.halfRemoved, State.modifyAccount, ha]
    rw [hlookup, ha] at haccounts
    have hsame := Option.some_inj.mp haccounts
    refine ⟨(congrArg Account.history hsame).symm, ?_, (congrArg Account.inTable hsame).symm⟩
    rw [← hchannels]
    exact AList.lookup_erase id s.channels
  · rintro ⟨hhistory, hchannels, htable⟩
    have haccounts : s.accounts.modify id (fun a => { a with history := [] }) = s.accounts := by
      rw [Table.modify_congr (g := fun _ => a) ha (by rw [← hhistory]), Table.modify_const ha]
    have haccounts' : s.accounts.modify id (fun a => { a with inTable := false }) = s.accounts := by
      rw [Table.modify_congr (g := fun _ => a) ha (by rw [← htable]), Table.modify_const ha]
    unfold State.halfRemoved State.modifyAccount
    rw [haccounts, haccounts', Table.erase_of_lookup_eq_none hchannels]

/-- `delete_account` of an account that passes the first tests and is not the one for the traps. -/
theorem allOrNothing_of_stay {a : Account} (ha : s.accounts.lookup id = some a)
    (htraps : s.movesTraps id = false)
    (hexec : exec (deleteAccount env id validationSkipped) s
      = exec (finishDeletion env id validationSkipped a) s) :
  State.AllOrNothing same env s id validationSkipped
    ↔ (a.deletionForbidden env validationSkipped = false → a.snmp.isSome
        ∨ a.history = [] ∧ s.channels.lookup id = none ∧ a.inTable = false)
      ∧ (a.deletionForbidden env validationSkipped = false → a.snmp.isSome → s.FlagsStay same id)
  := by
  obtain ⟨hforbidden, e, hfinish⟩ | ⟨hforbidden, hfinish⟩ :=
    exec_finishDeletion env validationSkipped ha
  · rw [allOrNothing_of_error (hexec.trans hfinish), hforbidden]
    simp
  · rw [hforbidden]
    cases hsnmp : a.snmp.isSome with
    | true =>
      rw [hsnmp, if_pos rfl] at hfinish
      rw [allOrNothing_of_ok (hexec.trans hfinish), deleted_removed_iff htraps]
      simp
    | false =>
      rw [hsnmp, if_neg Bool.false_ne_true] at hfinish
      rw [allOrNothing_of_error (hexec.trans hfinish), halfRemoved_eq_iff ha]
      simp

/-- The same for the one for the traps, which is `i` now. -/
theorem allOrNothing_of_move {a : Account} {i : ℕ} (ha : s.accounts.lookup id = some a)
    (htraps : s.movesTraps id = true) (hi : IsLeast (s.trapCandidates id) i)
    (hexec : exec (deleteAccount env id validationSkipped) s
      = exec (finishDeletion env id validationSkipped a) (s.setTrapAccount i)) :
  State.AllOrNothing same env s id validationSkipped
    ↔ (a.deletionForbidden env validationSkipped = false ∧ a.snmp.isSome)
      ∧ s.FlagsStay same id
  := by
  have hmoved {s' : State} (hs' : s'.config = (s.setTrapAccount i).config) : ¬ s' = s := by
    rintro rfl
    have htrap : s'.config.snmpV3TrapAccountId = i := by
      rw [hs']
      rfl
    have hid : id = s'.config.snmpV3TrapAccountId := by
      unfold State.movesTraps at htraps
      simpa using (Bool.and_eq_true_iff.mp htraps).1
    exact hi.1.1 (htrap.symm.trans hid.symm)
  have ha' : (s.setTrapAccount i).accounts.lookup id = some a := ha
  obtain ⟨hforbidden, e, hfinish⟩ | ⟨hforbidden, hfinish⟩ :=
    exec_finishDeletion env validationSkipped ha'
  · rw [allOrNothing_of_error (hexec.trans hfinish), hforbidden]
    exact ⟨fun h => absurd h (hmoved rfl), fun h => absurd h.1.1.symm Bool.false_ne_true⟩
  · rw [hforbidden]
    cases hsnmp : a.snmp.isSome with
    | true =>
      rw [hsnmp, if_pos rfl] at hfinish
      rw [allOrNothing_of_ok (hexec.trans hfinish), deleted_removed_setTrapAccount_iff htraps hi]
      simp
    | false =>
      rw [hsnmp, if_neg Bool.false_ne_true] at hfinish
      rw [allOrNothing_of_error (hexec.trans hfinish)]
      exact ⟨fun h => absurd h (hmoved rfl), fun h => absurd h.1.2 Bool.false_ne_true⟩

theorem allOrNothing_iff (hid : id ≠ interChassisAccountId)
    (hinvalid : s.accounts.lookup maxInvalidUserId = none) :
  State.AllOrNothing same env s id validationSkipped
    ↔ s.DeletesWhole env id validationSkipped
      ∧ (s.Deletes env id validationSkipped → s.FlagsStay same id)
  := by
  cases ha : s.accounts.lookup id with
  | none =>
    have hexec : exec (deleteAccount env id validationSkipped) s
        = (.error .invalidAccountId, s) := by
      unfold deleteAccount
      rw [if_neg hid, exec_bind_error (exec_getAccount_none ha)]
    rw [allOrNothing_of_error hexec]
    refine ⟨fun _ => ⟨fun a ha' => ?_, ?_⟩, fun _ => rfl⟩
    · rw [ha] at ha'
      cases ha'
    · rintro ⟨a, ha', -⟩
      rw [ha] at ha'
      cases ha'
  | some a =>
    have hwhole : s.DeletesWhole env id validationSkipped ↔
        (s.LetsDelete env id a → s.CanMoveTraps id →
          (s.movesTraps id = true → a.deletionForbidden env validationSkipped = false
            ∧ a.snmp.isSome)
          ∧ (a.deletionForbidden env validationSkipped = false → a.snmp.isSome
            ∨ a.history = [] ∧ s.channels.lookup id = none ∧ a.inTable = false)) := by
      unfold State.DeletesWhole
      rw [ha]
      simp
    have hdeletes : s.Deletes env id validationSkipped ↔ s.LetsDelete env id a
        ∧ s.CanMoveTraps id ∧ a.deletionForbidden env validationSkipped = false
        ∧ a.snmp.isSome := by
      unfold State.Deletes
      rw [ha]
      simp
    rw [hwhole, hdeletes]
    by_cases hlets : s.LetsDelete env id a
    · have hexec := exec_deleteAccount_of_lets validationSkipped hid ha hlets
      have hleave := exec_leaveTrapAccount hlets.notFixed
      cases htraps : s.movesTraps id with
      | false =>
        have hcan : s.CanMoveTraps id := fun h => absurd (htraps.symm.trans h) Bool.false_ne_true
        rw [htraps, if_neg Bool.false_ne_true] at hleave
        rw [exec_bind_ok hleave] at hexec
        rw [allOrNothing_of_stay ha htraps hexec]
        simp [hlets, hcan]
      | true =>
        rw [htraps, if_pos rfl] at hleave
        obtain ⟨i, hle, hi, hchange⟩ | ⟨hnone, hchange⟩ :=
          exec_changeSnmpV3TrapAccount id hinvalid
        · have hcan : s.CanMoveTraps id := fun _ => ⟨i, hi.1, hle⟩
          rw [exec_bind_ok (hleave.trans hchange)] at hexec
          rw [allOrNothing_of_move ha htraps hi hexec]
          simp only [hlets, hcan, true_and, forall_const]
          constructor
          · rintro ⟨⟨hallowed, hsnmp⟩, hflags⟩
            exact ⟨⟨⟨hallowed, hsnmp⟩, fun _ => Or.inl hsnmp⟩, fun _ => hflags⟩
          · rintro ⟨⟨hboth, -⟩, hflags⟩
            exact ⟨hboth, hflags hboth⟩
        · have hcannot : ¬ s.CanMoveTraps id := by
            intro hcan
            obtain ⟨i, hi, hle⟩ := hcan htraps
            exact absurd (hnone i hi) (not_lt.mpr hle)
          rw [exec_bind_error (hleave.trans hchange)] at hexec
          rw [allOrNothing_of_error hexec]
          simp [hcannot]
    · obtain ⟨e, hexec⟩ :=
        exec_deleteAccount_of_not_lets validationSkipped hid ha hlets
      rw [allOrNothing_of_error hexec]
      simp [hlets]

end Whole

/-- The same account but for the flag that says whether it is deletable. -/
def Account.SameButDeletable (a b : Account) : Prop :=
  b = { a with data := { a.data with deletable := b.data.deletable } }

theorem sameButDeletable_updateDeletable (a : Account) (cfg : Config) (only : Bool) (id : ℕ) :
  a.SameButDeletable (a.updateDeletable cfg only id)
  := by
  have hflag : ∃ flag, a.updateDeletable cfg only id
      = { a with data := { a.data with deletable := flag } } := by
    unfold Account.updateDeletable
    split
    · exact ⟨_, rfl⟩
    · exact ⟨a.data.deletable, rfl⟩
  obtain ⟨flag, hflag⟩ := hflag
  rw [hflag]
  rfl

/-- `delete_account` raises and changes nothing, or deletes the account, exactly where the traps do
not move in vain and nothing is lost to a missing SNMP row. The others keep everything but their
flag; they keep that, too, just if it is right already. -/
theorem deleteAccount_allOrNothing_iff (env : Env) (s : State) (id : ℕ) (validationSkipped : Bool)
    (hid : id ≠ interChassisAccountId) (hinvalid : s.accounts.lookup maxInvalidUserId = none) :
  (State.AllOrNothing Account.SameButDeletable env s id validationSkipped
      ↔ s.DeletesWhole env id validationSkipped)
    ∧ (State.AllOrNothing Eq env s id validationSkipped
      ↔ s.DeletesWhole env id validationSkipped
        ∧ (s.Deletes env id validationSkipped → s.FlagsStay Eq id))
  := by
  refine ⟨?_, allOrNothing_iff hid hinvalid⟩
  rw [allOrNothing_iff hid hinvalid]
  apply and_iff_left
  intro _ i _ b _
  exact sameButDeletable_updateDeletable b _ _ i

/-! ### An account for the traps that is not deletable -/

/-- Two administrators, the first of which is the account for the traps. -/
def trapState : State :=
  let plain := plainState [(2, plainAccount "Administrator" 4 223), (3, plainAccount "user" 4 223)]
  { plain with config := { plain.config with
    snmpV3TrapAccountId := 2
    snmpV3TrapAccountChangePolicy := 1 } }

/-- The policy lets no account be deleted. -/
def forbiddingEnv : Env := { plainEnv with deletable := fun _ => some false }

theorem deleteAccount_allOrNothing_iff_trap :
  2 ≠ interChassisAccountId ∧ trapState.accounts.lookup maxInvalidUserId = none ∧
    (State.AllOrNothing Account.SameButDeletable forbiddingEnv trapState 2 false
      ↔ trapState.DeletesWhole forbiddingEnv 2 false)
  := by
  have hinvalid : trapState.accounts.lookup maxInvalidUserId = none := by
    rfl
  exact ⟨by decide, hinvalid,
    (deleteAccount_allOrNothing_iff forbiddingEnv trapState 2 false (by decide) hinvalid).1⟩

/-- The deletion raises, and the account for the traps has moved. -/
theorem deleteAccount_moves_traps :
  ¬ State.AllOrNothing Account.SameButDeletable forbiddingEnv trapState 2 false
  := by
  have hconfig : (after (deleteAccount forbiddingEnv 2 false) trapState).config.snmpV3TrapAccountId
      = 3 := by
    decide +kernel
  have hraises : (exec (deleteAccount forbiddingEnv 2 false) trapState).1.isOk = false := by
    decide +kernel
  rintro (⟨e, h⟩ | ⟨s', h, -⟩)
  · unfold after at hconfig
    rw [h] at hconfig
    have htwo : (2 : ℕ) = 3 := hconfig
    omega
  · rw [h] at hraises
    cases hraises

end BmcAccount
