import BmcAccount.Account.Collection
import BmcAccount.Lib.Run

/-!
# The last operable administrator

Five operations on the collection can take an operable administrator away: deleting,
disabling, changing the role, closing the login interfaces, and setting the user access by
IPMI. Each of them refuses to act on the last one, except that the user access sets the
privilege without a guard when it does not set the role.

`HasAccount P s` says that some account of the state satisfies `P`. The operations are
followed by the triples of `Raise` with such predicates: what an operation does to one
account is a hypothesis on that account alone, and the other accounts are framed.
-/

namespace BmcAccount

open Raise

/-! ## The standing of an account -/

/-- What the administrators are told apart by. -/
structure Standing where
  cls : AccountClass
  privilege1 : IpmiPrivilege
  roleId : ℕ
  enabled : Bool
  loginInterface : ℕ

namespace Account

/-- The standing of an account. -/
def standing (a : Account) : Standing :=
  ⟨a.cls, a.ipmi.privilege1, a.data.roleId, a.data.enabled, a.data.loginInterface⟩

theorem checkIsEnabledAdmin_iff (a : Account) :
  a.checkIsEnabledAdmin = true ↔
    a.cls = .localAccount ∧
    (a.ipmi.privilege1 = .admin ∨ a.data.roleId = RoleType.administrator.value) ∧
    a.data.enabled = true
  := by
  unfold checkIsEnabledAdmin getIpmiUserPrivilege
  cases hc : a.cls <;> simp
  by_cases hp : a.ipmi.privilege1 = .reserved <;> simp [hp]

theorem isOperateAdmin_iff (a : Account) :
  a.isOperateAdmin = true ↔
    a.checkIsEnabledAdmin = true ∧
    a.data.loginInterface ≠ LoginInterface.invalid.value ∧
    a.data.loginInterface ≠ LoginInterface.sftp.value
  := by
  unfold isOperateAdmin
  rw [Bool.and_eq_true]
  apply and_congr_right
  intro h
  have hcls := ((checkIsEnabledAdmin_iff a).mp h).1
  simp [checkIsAllowedOperateInterfaces, hcls]

/-- An operable administrator is a local account. -/
theorem cls_of_isOperateAdmin {a : Account} (h : a.isOperateAdmin = true) :
  a.cls = .localAccount
  := ((checkIsEnabledAdmin_iff a).mp ((isOperateAdmin_iff a).mp h).1).1

theorem checkIsEnabledAdmin_congr {a b : Account} (h : a.standing = b.standing) :
  a.checkIsEnabledAdmin = b.checkIsEnabledAdmin
  := by
  simp only [standing, Standing.mk.injEq] at h
  obtain ⟨hcls, hpriv, hrole, hen, -⟩ := h
  rw [Bool.eq_iff_iff, checkIsEnabledAdmin_iff, checkIsEnabledAdmin_iff, hcls, hpriv, hrole, hen]

theorem isOperateAdmin_congr {a b : Account} (h : a.standing = b.standing) :
  a.isOperateAdmin = b.isOperateAdmin
  := by
  have hadmin := checkIsEnabledAdmin_congr h
  simp only [standing, Standing.mk.injEq] at h
  obtain ⟨-, -, -, -, hint⟩ := h
  rw [Bool.eq_iff_iff, isOperateAdmin_iff, isOperateAdmin_iff, hadmin, hint]

@[simp]
theorem standing_updatePrivileges (env : Env) (cfg : Config)
    (given : Option (List PrivilegeType)) (a : Account) :
  (a.updatePrivileges env cfg given).standing = a.standing
  := by
  unfold updatePrivileges
  simp only
  split <;> rfl

@[simp]
theorem standing_updateInactiveUserStartTime (env : Env) (cfg : Config) (a : Account) :
  (a.updateInactiveUserStartTime env cfg).standing = a.standing
  := by
  unfold updateInactiveUserStartTime
  split
  · split_ifs <;> rfl
  · rfl

@[simp]
theorem standing_updateDeletable (cfg : Config) (only : Bool) (id : ℕ) (a : Account) :
  (a.updateDeletable cfg only id).standing = a.standing
  := by
  unfold updateDeletable
  split <;> rfl

theorem standing_deleteSshPublicKey {env : Env} {a a' : Account}
    (h : a.deleteSshPublicKey env = .ok a') :
  a'.standing = a.standing
  := by
  unfold deleteSshPublicKey at h
  split at h
  all_goals first
    | split_ifs at h
    | skip
  all_goals
    cases h
    rfl

theorem standing_setRoleId {env : Env} {cfg : Config} {roleId : ℕ} {a a' : Account}
    (hcls : a.cls = .localAccount) (h : a.setRoleId env cfg roleId = .ok a') :
  a'.standing = { a.standing with roleId := roleId }
  := by
  unfold setRoleId at h
  simp only [hcls] at h
  split_ifs at h
  cases h
  rw [standing_updatePrivileges]
  simp [standing, hcls]

theorem standing_setLoginInterface {env : Env} {interface : ℕ} {a a' : Account}
    (hcls : a.cls = .localAccount) (h : a.setLoginInterface env interface = .ok a') :
  a'.standing = { a.standing with loginInterface := interface }
  := by
  unfold setLoginInterface at h
  simp only [hcls] at h
  split_ifs at h
  cases h
  simp [standing, hcls]

theorem standing_setEnabled {env : Env} {enabled : Bool} {a a' : Account}
    (hcls : a.cls = .localAccount) (h : a.setEnabled env enabled = .ok a') :
  a'.standing = { a.standing with enabled := enabled }
  := by
  unfold setEnabled at h
  rw [hcls] at h
  simp only at h
  split_ifs at h
  · cases hc : a.checkIpmiPassword env with
    | error e =>
      rw [hc] at h
      cases h
    | ok u =>
      rw [hc] at h
      cases h
      rfl
  · cases h
    rfl

/-- Methods that only the inter-chassis account has do not concern administrators. -/
theorem not_isOperateAdmin_of_recoverDefault {env : Env} {cfg : Config} {a a' : Account}
    (h : a.recoverDefault env cfg = .ok a') :
  a.isOperateAdmin = false
  := by
  rw [Bool.eq_false_iff]
  intro hop
  unfold recoverDefault at h
  rw [cls_of_isOperateAdmin hop] at h
  cases h

end Account

/-! ## Accounts with a property -/

namespace State

/-- Some account of the state satisfies `P`. -/
def HasAccount (P : ℕ → Account → Prop) (s : State) : Prop :=
  ∃ id a, s.accounts.lookup id = some a ∧ P id a

/-- Some administrator of the state can operate. -/
def HasOperateAdmin (s : State) : Prop :=
  s.HasAccount fun _ a => a.isOperateAdmin = true

/-- Some administrator other than `id` can operate. -/
def OtherOperateAdmin (id : ℕ) (s : State) : Prop :=
  s.HasAccount fun j a => j ≠ id ∧ a.isOperateAdmin = true

theorem HasAccount.imp {P Q : ℕ → Account → Prop} (h : ∀ id a, P id a → Q id a) {s : State}
    (hs : s.HasAccount P) :
  s.HasAccount Q
  := by
  obtain ⟨id, a, ha, hP⟩ := hs
  exact ⟨id, a, ha, h id a hP⟩

theorem OtherOperateAdmin.hasOperateAdmin {id : ℕ} {s : State} (h : s.OtherOperateAdmin id) :
  s.HasOperateAdmin
  := h.imp fun _ _ h => h.2

theorem HasAccount.modifyAccount {P Q : ℕ → Account → Prop} {id : ℕ} {f : Account → Account}
    (hother : ∀ j a, j ≠ id → P j a → Q j a) (hself : ∀ a, P id a → Q id (f a)) {s : State}
    (hs : s.HasAccount P) :
  (s.modifyAccount id f).HasAccount Q
  := by
  obtain ⟨j, a, ha, hP⟩ := hs
  by_cases hj : j = id
  · subst hj
    refine ⟨j, f a, ?_, hself a hP⟩
    simp [State.modifyAccount, ha]
  · refine ⟨j, a, ?_, hother j a hj hP⟩
    simp only [State.modifyAccount]
    rw [Table.lookup_modify_ne hj, ha]

theorem HasAccount.eraseAccount {P : ℕ → Account → Prop} {id : ℕ} {s : State}
    (hs : s.HasAccount fun j a => j ≠ id ∧ P j a) :
  { s with accounts := s.accounts.erase id }.HasAccount fun j a => j ≠ id ∧ P j a
  := by
  obtain ⟨j, a, ha, hj, hP⟩ := hs
  refine ⟨j, a, ?_, hj, hP⟩
  rw [AList.lookup_erase_ne hj]
  exact ha

theorem hasOperateAdmin_iff (s : State) :
  s.HasOperateAdmin ↔ 0 < s.operateAdminNumber
  := by
  unfold operateAdminNumber Table.count
  rw [List.length_pos_iff_exists_mem]
  constructor
  · rintro ⟨id, a, ha, hop⟩
    exact ⟨⟨id, a⟩, List.mem_filter.mpr ⟨Table.mem_entries_iff.mpr ha, hop⟩⟩
  · rintro ⟨⟨id, a⟩, he⟩
    obtain ⟨he, hop⟩ := List.mem_filter.mp he
    exact ⟨id, a, Table.mem_entries_iff.mp he, hop⟩

/-- When at most one administrator can operate, an account that can is the only one. -/
theorem operateAdminNumber_le_one_iff {s : State} {id : ℕ} {a : Account}
    (ha : s.accounts.lookup id = some a) (hop : a.isOperateAdmin = true) :
  s.operateAdminNumber ≤ 1 ↔ ¬ s.OtherOperateAdmin id
  := by
  unfold operateAdminNumber
  rw [Table.count_le_one_iff ha hop]
  constructor
  · rintro h ⟨j, b, hb, hj, hopb⟩
    exact hj (h j b hb hopb)
  · intro h j b hb hopb
    by_contra hj
    exact h ⟨j, b, hb, hj, hopb⟩

end State

/-! ## Triples of the building blocks -/

section Blocks

variable {P Q : ℕ → Account → Prop} {E : State → Prop} {id : ℕ}

/-- Reading an account changes nothing and tells that it is there. -/
theorem getAccount_spec {e : Err} {I : State → Prop} (hE : ∀ s, I s → E s) :
  Spec I (getAccount id e) (fun a s => s.accounts.lookup id = some a ∧ I s) E
  := by
  unfold getAccount
  apply Spec.bind Spec.get
  intro s
  cases ha : s.accounts.lookup id with
  | none => exact Spec.throw fun s' h => hE s' h.2
  | some a =>
    apply Spec.pure
    rintro s' ⟨rfl, hI⟩
    exact ⟨ha, hI⟩

theorem getAccount_keeps {e : Err} {I : State → Prop} :
  Keeps I (getAccount id e)
  := (getAccount_spec fun _ h => h).weaken (fun _ h => h) (fun _ _ h => h.2) fun _ h => h

theorem updateAccount_spec {f : Config → Account → Account}
    (hother : ∀ j a, j ≠ id → P j a → Q j a) (hself : ∀ cfg a, P id a → Q id (f cfg a)) :
  Spec (State.HasAccount P) (updateAccount id f) (fun _ => State.HasAccount Q) E
  := Spec.modify fun s hs => hs.modifyAccount hother (hself s.config)

theorem callAccount_spec {f : Config → Account → Except Err Account}
    (hother : ∀ j a, j ≠ id → P j a → Q j a)
    (hself : ∀ cfg a a', f cfg a = .ok a' → P id a → Q id a')
    (hE : ∀ s : State, s.HasAccount P → E s) :
  Spec (State.HasAccount P) (callAccount id f) (fun _ => State.HasAccount Q) E
  := by
  unfold callAccount
  apply Spec.bind Spec.get
  intro s
  cases ha : s.accounts.lookup id with
  | none => exact Spec.throw fun s' h => hE s' h.2
  | some a =>
    simp only
    cases hf : f s.config a with
    | error e => exact Spec.throw fun s' h => hE s' h.2
    | ok a' =>
      apply Spec.modify
      rintro s' ⟨rfl, j, b, hb, hP⟩
      by_cases hj : j = id
      · subst hj
        obtain rfl : a = b := by
          rw [ha] at hb
          exact Option.some_inj.mp hb
        refine ⟨j, a', ?_, hself _ a a' hf hP⟩
        simp [State.modifyAccount, ha]
      · refine ⟨j, b, ?_, hother j b hj hP⟩
        simp only [State.modifyAccount]
        rw [Table.lookup_modify_ne hj, hb]

/-- What holds of another account is kept by whatever is done to `id`. -/
theorem updateAccount_keeps_other {f : Config → Account → Account} :
  Keeps (State.HasAccount fun j a => j ≠ id ∧ P j a) (updateAccount id f)
  := updateAccount_spec (fun _ _ _ h => h) fun _ _ h => absurd rfl h.1

theorem callAccount_keeps_other {f : Config → Account → Except Err Account} :
  Keeps (State.HasAccount fun j a => j ≠ id ∧ P j a) (callAccount id f)
  := callAccount_spec (fun _ _ _ h => h) (fun _ _ _ _ h => absurd rfl h.1) fun _ h => h

/-- Programs that change no account keep what holds of the accounts. -/
theorem modify_spec {f : State → State} (h : ∀ s, (f s).accounts = s.accounts) :
  Spec (State.HasAccount P) (modify f : M Unit) (fun _ => State.HasAccount P) E
  := by
  apply Spec.modify
  rintro s ⟨j, a, ha, hP⟩
  exact ⟨j, a, by rw [h s, ha], hP⟩

theorem refuseEmergencyUser_keeps {b : Bool} {e : Err} {I : State → Prop} :
  Keeps I (refuseEmergencyUser b id e)
  := Keeps.bind Keeps.get fun _ => Keeps.refuse

theorem checkIsLastOperateAdmin_keeps {I : State → Prop} :
  Keeps I (checkIsLastOperateAdmin id)
  := by
  unfold checkIsLastOperateAdmin
  refine Keeps.bind Keeps.get fun s => Keeps.ite ?_ Keeps.pure
  cases s.accounts.lookup id with
  | none => exact Keeps.throw
  | some a => exact Keeps.pure

theorem refuseLastOperateAdmin_keeps {b : Bool} {e : Err} {I : State → Prop} :
  Keeps I (refuseLastOperateAdmin b id e)
  := Keeps.onlyIf (Keeps.bind checkIsLastOperateAdmin_keeps fun _ => Keeps.refuse)

/-- A predicate that looks at the standing of accounts only. -/
def OfStanding (P : ℕ → Account → Prop) : Prop :=
  ∀ id a b, a.standing = b.standing → P id a → P id b

theorem ofStanding_isOperateAdmin :
  OfStanding fun _ a => a.isOperateAdmin = true
  := by
  intro _ a b h ha
  rw [← Account.isOperateAdmin_congr h]
  exact ha

theorem OfStanding.and_ne (h : OfStanding P) (id : ℕ) :
  OfStanding fun j a => j ≠ id ∧ P j a
  := fun j a b hab ha => ⟨ha.1, h j a b hab ha.2⟩

theorem updateDeletable_keeps (hP : OfStanding P) :
  Keeps (State.HasAccount P) updateDeletable
  := by
  apply Keeps.modify
  rintro s ⟨j, a, ha, hPa⟩
  refine ⟨j, a.updateDeletable s.config (s.enabledAdminNumber = 1) j, by simp [ha], ?_⟩
  exact hP j a _ (Account.standing_updateDeletable ..).symm hPa

theorem removeAccount_keeps_other (hP : OfStanding P) :
  Keeps (State.HasAccount fun j a => j ≠ id ∧ P j a) (removeAccount id)
  := by
  unfold removeAccount
  refine Keeps.bind updateAccount_keeps_other fun _ => ?_
  refine Keeps.bind ?_ fun _ => ?_
  · exact modify_spec fun _ => rfl
  refine Keeps.bind updateAccount_keeps_other fun _ => Keeps.bind getAccount_keeps fun a => ?_
  refine Keeps.bind Keeps.refuse fun _ => ?_
  refine Keeps.bind (Keeps.modify fun s hs => hs.eraseAccount) fun _ => ?_
  exact updateDeletable_keeps (hP.and_ne id)

/-- The last-administrator check changes nothing, and when it answers no there is another
administrator that can operate. -/
theorem checkIsLastOperateAdmin_spec :
  Spec State.HasOperateAdmin (checkIsLastOperateAdmin id)
    (fun last s => s.HasOperateAdmin ∧ (last = false → s.OtherOperateAdmin id))
    State.HasOperateAdmin
  := by
  unfold checkIsLastOperateAdmin
  apply Spec.bind Spec.get
  intro s
  apply Spec.ite
  · intro hle
    cases ha : s.accounts.lookup id with
    | none => exact Spec.throw fun _ h => h.2
    | some a =>
      apply Spec.pure
      rintro _ ⟨rfl, j, b, hb, hop⟩
      refine ⟨⟨j, b, hb, hop⟩, fun hna => ⟨j, b, hb, ?_, hop⟩⟩
      rintro rfl
      rw [hb] at ha
      rw [Option.some_inj.mp ha, hna] at hop
      cases hop
  · intro hgt
    apply Spec.pure
    rintro _ ⟨rfl, j, b, hb, hop⟩
    refine ⟨⟨j, b, hb, hop⟩, fun _ => ?_⟩
    by_cases hj : j = id
    · subst hj
      rw [State.operateAdminNumber_le_one_iff hb hop] at hgt
      exact not_not.mp hgt
    · exact ⟨j, b, hb, hj, hop⟩

theorem refuseLastOperateAdmin_spec {e : Err} :
  Spec State.HasOperateAdmin (refuseLastOperateAdmin true id e)
    (fun _ => State.OtherOperateAdmin id) State.HasOperateAdmin
  := by
  apply Spec.bind checkIsLastOperateAdmin_spec
  intro last
  apply Spec.refuse
  · exact fun _ h => h.1
  · exact fun _ h hlast => h.2 hlast

end Blocks

/-! ## The guarded operations -/

/-- Leaving the trap account changes the configuration only. -/
theorem leaveTrapAccount_keeps_of_accounts {I : State → Prop} {id : ℕ}
    (hI : ∀ s s' : State, s'.accounts = s.accounts → I s → I s') :
  Keeps I (leaveTrapAccount id)
  := by
  unfold leaveTrapAccount changeSnmpV3TrapAccount
  refine Keeps.bind Keeps.get fun s => Keeps.ite Keeps.throw (Keeps.ite ?_ Keeps.pure)
  refine Keeps.bind Keeps.get fun s => Keeps.bind Keeps.refuse fun _ => ?_
  exact Keeps.modify fun s => hI s _ rfl

theorem leaveTrapAccount_keeps {P : ℕ → Account → Prop} {id : ℕ} :
  Keeps (State.HasAccount P) (leaveTrapAccount id)
  := leaveTrapAccount_keeps_of_accounts fun _ _ h hs => by
    obtain ⟨j, a, ha, hP⟩ := hs
    exact ⟨j, a, by rw [h, ha], hP⟩

theorem recoverInterChassisAccountToDefault_keeps (env : Env) :
  Keeps State.HasOperateAdmin (recoverInterChassisAccountToDefault env)
  := by
  unfold recoverInterChassisAccountToDefault
  refine Keeps.bind ?_ fun _ => Keeps.bind getAccount_keeps fun a => Keeps.onlyIf ?_
  · apply callAccount_spec (fun _ _ _ h => h) _ fun _ h => h
    intro cfg a a' ha hop
    rw [Account.not_isOperateAdmin_of_recoverDefault ha] at hop
    cases hop
  · refine Keeps.bind Keeps.refuse fun _ => ?_
    apply callAccount_spec (fun _ _ _ h => h) _ fun _ h => h
    intro cfg a a' ha hop
    rw [Account.isOperateAdmin_congr (Account.standing_deleteSshPublicKey ha)]
    exact hop

theorem deleteAccount_keeps (env : Env) (id : ℕ) (skipped : Bool) :
  Keeps State.HasOperateAdmin (deleteAccount env id skipped)
  := by
  unfold deleteAccount
  refine Keeps.ite (recoverInterChassisAccountToDefault_keeps env) ?_
  refine Keeps.bind getAccount_keeps fun a => Keeps.bind Keeps.refuse fun _ => ?_
  refine Keeps.bind Keeps.refuse fun _ => Keeps.bind refuseEmergencyUser_keeps fun _ => ?_
  refine Spec.bind refuseLastOperateAdmin_spec fun _ => ?_
  have hrest : Keeps (State.OtherOperateAdmin id) (do
      leaveTrapAccount id
      refuse (!skipped && (env.deletable a.data.accountType).isNone) .internalError
      refuse (!skipped && !(env.deletable a.data.accountType).getD true) .accountForbidRemoved
      removeAccount id) := by
    refine Keeps.bind leaveTrapAccount_keeps fun _ => Keeps.bind Keeps.refuse fun _ => ?_
    refine Keeps.bind Keeps.refuse fun _ => ?_
    exact removeAccount_keeps_other ofStanding_isOperateAdmin
  exact hrest.weaken (fun _ h => h) (fun _ _ h => h.hasOperateAdmin) fun _ h => h.hasOperateAdmin

theorem limitFirstChannel_keeps {P : ℕ → Account → Prop} {id : ℕ} {p : IpmiPrivilege} :
  Keeps (State.HasAccount P) (limitFirstChannel id p)
  := by
  unfold limitFirstChannel
  refine Keeps.bind Keeps.get fun s => Keeps.ite ?_ Keeps.pure
  cases s.channel id 1 with
  | none => exact Keeps.pure
  | some row => exact modify_spec fun _ => rfl

/-- The part of `set_role_id` after its guards, followed with a predicate that the account
keeps through the change of its role and of its privilege. -/
theorem setRoleId_tail_keeps {P : ℕ → Account → Prop} (hP : OfStanding P) {env : Env}
    {id roleId : ℕ} {p : IpmiPrivilege}
    (hself : ∀ a : Account, P id a → a.cls = .localAccount ∧
      ∀ b : Account, b.standing = { a.standing with
        roleId := roleId, privilege1 := b.standing.privilege1 } → P id b) :
  Keeps (State.HasAccount P) (do
    callAccount id fun cfg => Account.setRoleId env cfg roleId
    updateAccount id fun _ => Account.setIpmiUserPrivilege p
    limitFirstChannel id p
    updateDeletable)
  := by
  have hrole : Spec (State.HasAccount P) (callAccount id fun cfg => Account.setRoleId env cfg roleId)
      (fun _ => State.HasAccount fun j a => P j a ∧ (j = id → ∃ a₀ : Account, P id a₀ ∧
        a.standing = { a₀.standing with roleId := roleId }))
      (State.HasAccount P) := by
    apply callAccount_spec _ _ fun _ h => h
    · exact fun j a hj hPa => ⟨hPa, fun h => absurd h hj⟩
    · intro cfg a a' ha hPa
      obtain ⟨hcls, hb⟩ := hself a hPa
      have hst := Account.standing_setRoleId hcls ha
      exact ⟨hb a' (by rw [hst]), fun _ => ⟨a, hPa, hst⟩⟩
  refine Spec.bind hrole fun _ => ?_
  refine Spec.bind (updateAccount_spec (Q := P) ?_ ?_) fun _ => ?_
  · exact fun j a _ h => h.1
  · rintro cfg a ⟨-, h⟩
    obtain ⟨a₀, hPa₀, hst⟩ := h rfl
    apply (hself a₀ hPa₀).2
    simp only [Account.standing, Account.setIpmiUserPrivilege] at hst ⊢
    simp only [Standing.mk.injEq] at hst ⊢
    exact ⟨hst.1, trivial, hst.2.2.1, hst.2.2.2.1, hst.2.2.2.2⟩
  · exact Keeps.bind limitFirstChannel_keeps fun _ => updateDeletable_keeps hP

/-- Taking the role of administrator away leaves another operable administrator. -/
theorem setRoleId_spec_other {env : Env} {id roleId : ℕ} {p : Option IpmiPrivilege}
    (hrole : roleId ≠ RoleType.administrator.value) :
  Spec State.HasOperateAdmin (setRoleId env id roleId p) (fun _ => State.OtherOperateAdmin id)
    State.HasOperateAdmin
  := by
  unfold setRoleId
  refine Spec.bind getAccount_keeps fun _ => Spec.bind Keeps.refuse fun _ => ?_
  rw [show (roleId != RoleType.administrator.value) = true by simp [hrole]]
  refine Spec.bind refuseLastOperateAdmin_spec fun _ => ?_
  have hrest : Keeps (State.OtherOperateAdmin id) (do
      refuseEmergencyUser true id (.emergencyLoginUser .roleId)
      callAccount id fun cfg => Account.setRoleId env cfg roleId
      updateAccount id fun _ =>
        Account.setIpmiUserPrivilege (p.getD (Account.privilegeOfRole roleId))
      limitFirstChannel id (p.getD (Account.privilegeOfRole roleId))
      updateDeletable) := by
    refine Keeps.bind refuseEmergencyUser_keeps fun _ => ?_
    apply setRoleId_tail_keeps (ofStanding_isOperateAdmin.and_ne id)
    exact fun a h => absurd rfl h.1
  exact hrest.weaken (fun _ h => h) (fun _ _ h => h) fun _ h => h.hasOperateAdmin

theorem setRoleId_keeps (env : Env) (id roleId : ℕ) (p : Option IpmiPrivilege) :
  Keeps State.HasOperateAdmin (setRoleId env id roleId p)
  := by
  by_cases hrole : roleId = RoleType.administrator.value
  · unfold setRoleId
    refine Keeps.bind getAccount_keeps fun _ => Keeps.bind Keeps.refuse fun _ => ?_
    rw [show (roleId != RoleType.administrator.value) = false by simp [hrole]]
    refine Keeps.bind Keeps.pure fun _ => Keeps.bind refuseEmergencyUser_keeps fun _ => ?_
    apply setRoleId_tail_keeps ofStanding_isOperateAdmin
    intro a hop
    refine ⟨Account.cls_of_isOperateAdmin hop, fun b hb => ?_⟩
    simp only [Account.standing, Standing.mk.injEq] at hb
    rw [Account.isOperateAdmin_iff, Account.checkIsEnabledAdmin_iff] at hop ⊢
    rw [hb.1, hb.2.2.1, hb.2.2.2.1, hb.2.2.2.2]
    exact ⟨⟨hop.1.1, Or.inr hrole, hop.1.2.2⟩, hop.2⟩
  · exact (setRoleId_spec_other hrole).weaken (fun _ h => h) (fun _ _ h => h.hasOperateAdmin)
      fun _ h => h

theorem setEnabled_keeps (env : Env) (id : ℕ) (status : Bool) :
  Keeps State.HasOperateAdmin (setEnabled env id status)
  := by
  unfold setEnabled
  cases status with
  | true =>
    refine Keeps.bind Keeps.pure fun _ => Keeps.bind refuseEmergencyUser_keeps fun _ => ?_
    refine Keeps.bind ?_ fun _ => Keeps.onlyIf ?_
    · apply callAccount_spec (fun _ _ _ h => h) _ fun _ h => h
      intro cfg a a' ha hop
      have hst := Account.standing_setEnabled (Account.cls_of_isOperateAdmin hop) ha
      simp only [Account.standing, Standing.mk.injEq] at hst
      rw [Account.isOperateAdmin_iff, Account.checkIsEnabledAdmin_iff] at hop ⊢
      rw [hst.1, hst.2.1, hst.2.2.1, hst.2.2.2.1, hst.2.2.2.2]
      exact ⟨⟨hop.1.1, hop.1.2.1, rfl⟩, hop.2⟩
    · apply updateAccount_spec (fun _ _ _ h => h)
      intro cfg a hop
      rw [Account.isOperateAdmin_congr (Account.standing_updateInactiveUserStartTime ..)]
      exact hop
  | false =>
    refine Spec.bind refuseLastOperateAdmin_spec fun _ => ?_
    have hrest : Keeps (State.OtherOperateAdmin id) (do
        refuseEmergencyUser true id (.emergencyLoginUser .enabled)
        callAccount id fun _ => Account.setEnabled env false
        onlyIf false (updateAccount id (Account.updateInactiveUserStartTime env))) := by
      refine Keeps.bind refuseEmergencyUser_keeps fun _ => ?_
      exact Keeps.bind callAccount_keeps_other fun _ => Keeps.onlyIf updateAccount_keeps_other
    exact hrest.weaken (fun _ h => h) (fun _ _ h => h.hasOperateAdmin)
      fun _ h => h.hasOperateAdmin

theorem setLoginInterface_keeps (env : Env) (id : ℕ) (interfaces : List String) :
  Keeps State.HasOperateAdmin (setLoginInterface env id interfaces)
  := by
  unfold setLoginInterface
  refine Keeps.bind getAccount_keeps fun account => Keeps.bind Keeps.refuse fun _ => ?_
  refine Spec.bind checkIsLastOperateAdmin_spec fun last => ?_
  set n := coverInterfaceStrToNum interfaces
  by_cases hn : n = LoginInterface.sftp.value ∨ n = LoginInterface.invalid.value
  · have hrest : Keeps (State.OtherOperateAdmin id) (do
        onlyIf (account.isDeleteIpmiInterface n)
          (updateAccount id fun _ a => { a with data := { a.data with ipmiPassword := some "" } })
        callAccount id fun _ => Account.setLoginInterface env n) :=
      Keeps.bind (Keeps.onlyIf updateAccount_keeps_other) fun _ => callAccount_keeps_other
    refine Spec.bind (Spec.refuse (S := State.OtherOperateAdmin id) ?_ ?_) fun _ => ?_
    · exact fun _ h => h.1
    · intro s h hlast
      apply h.2
      rw [Bool.and_eq_false_iff] at hlast
      apply hlast.resolve_right
      simpa [or_iff_not_imp_left] using hn
    · exact hrest.weaken (fun _ h => h) (fun _ _ h => h.hasOperateAdmin)
        fun _ h => h.hasOperateAdmin
  · rw [not_or] at hn
    refine Spec.bind (Spec.refuse (S := State.HasOperateAdmin) ?_ ?_) fun _ => ?_
    · exact fun _ h => h.1
    · exact fun _ h _ => h.1
    refine Keeps.bind (Keeps.onlyIf ?_) fun _ => ?_
    · exact updateAccount_spec (fun _ _ _ h => h) fun _ a hop => hop
    · apply callAccount_spec (fun _ _ _ h => h) _ fun _ h => h
      intro cfg a a' ha hop
      have hst := Account.standing_setLoginInterface (Account.cls_of_isOperateAdmin hop) ha
      simp only [Account.standing, Standing.mk.injEq] at hst
      rw [Account.isOperateAdmin_iff, Account.checkIsEnabledAdmin_iff] at hop ⊢
      rw [hst.1, hst.2.1, hst.2.2.1, hst.2.2.2.1, hst.2.2.2.2]
      exact ⟨hop.1, hn.2, hn.1⟩

/-! ## User access by IPMI -/

theorem privilegeToRole_eq_administrator_iff (p : IpmiPrivilege) :
  (privilegeToRole p).value = RoleType.administrator.value ↔ p = .admin
  := by
  cases p <;> decide

/-- The account is an operable administrator only by its IPMI privilege, and no other
administrator can operate. -/
structure State.LastByPrivilege (s : State) (id : ℕ) : Prop where
  admin : ∃ a, s.accounts.lookup id = some a ∧ a.isOperateAdmin = true ∧
    a.data.roleId ≠ RoleType.administrator.value
  last : ¬ s.OtherOperateAdmin id

/-- The accepted request sets a privilege other than administrator without setting the
role, on the last operable administrator, who is one only by its privilege. -/
structure Demotes (env : Env) (req : UserAccessReq) (ctx : IpmiCtx) (s : State) : Prop where
  accepted : ∃ p l, ipmiSetUserAccessInputCheck env req ctx s = .ok (p, l) ∧ p ≠ .admin
  host : hostUserMgntEnabled s.config ctx = true
  unguarded : setsRole env req ctx = false
  last : s.LastByPrivilege req.userId

theorem standing_setIpmiUserAccess (req : UserAccessReq) (p : IpmiPrivilege) (a : Account) :
  (a.setIpmiUserAccess req p).standing = { a.standing with privilege1 := p }
  := by
  unfold Account.setIpmiUserAccess
  split_ifs <;> rfl

/-- Setting the access makes the privilege of the account `p`. -/
theorem isOperateAdmin_setIpmiUserAccess {req : UserAccessReq} {p : IpmiPrivilege} {a : Account} :
  (a.setIpmiUserAccess req p).isOperateAdmin = true ↔
    a.cls = .localAccount ∧ (p = .admin ∨ a.data.roleId = RoleType.administrator.value) ∧
    a.data.enabled = true ∧ a.data.loginInterface ≠ LoginInterface.invalid.value ∧
    a.data.loginInterface ≠ LoginInterface.sftp.value
  := by
  have hst := standing_setIpmiUserAccess req p a
  simp only [Account.standing, Standing.mk.injEq] at hst
  rw [Account.isOperateAdmin_iff, Account.checkIsEnabledAdmin_iff]
  rw [hst.1, hst.2.1, hst.2.2.1, hst.2.2.2.1, hst.2.2.2.2, and_assoc, and_assoc]

/-- An operable administrator that is another account than `id`, or stays one when its
privilege becomes `p`. -/
def StaysAdmin (id : ℕ) (p : IpmiPrivilege) (j : ℕ) (a : Account) : Prop :=
  a.isOperateAdmin = true ∧
    (j = id → p = .admin ∨ a.data.roleId = RoleType.administrator.value)

/-- The end of `set_ipmi_user_access`, from a state where some operable administrator is
another account or stays one under the privilege `p`. -/
theorem setIpmiUserAccess_tail (req : UserAccessReq) (ctx : IpmiCtx) {p : IpmiPrivilege} {l : ℕ}
    {E : State → Prop} :
  Spec (State.HasAccount (StaysAdmin req.userId p))
    (do
      modify (State.updateChannel req.userId (req.channelConfig ctx p l) req.changeEnable)
      updateAccount req.userId fun _ => Account.setIpmiUserAccess req p)
    (fun _ => State.HasOperateAdmin) E
  := by
  refine Spec.bind (modify_spec ?_) fun _ => updateAccount_spec ?_ ?_
  · exact fun _ => rfl
  · exact fun _ _ _ h => h.1
  · rintro cfg a ⟨hop, hstays⟩
    rw [isOperateAdmin_setIpmiUserAccess]
    rw [Account.isOperateAdmin_iff, Account.checkIsEnabledAdmin_iff] at hop
    exact ⟨hop.1.1, hstays rfl, hop.1.2.2, hop.2⟩

theorem exec_setIpmiUserAccess (env : Env) (req : UserAccessReq) (ctx : IpmiCtx) (s : State) :
  exec (setIpmiUserAccess env req ctx) s =
    match ipmiSetUserAccessInputCheck env req ctx s with
    | .error e => (.error e, s)
    | .ok (p, l) => exec (do
        refuse (!hostUserMgntEnabled s.config ctx) .hostUserManagementDisabled
        onlyIf (setsRole env req ctx)
          (setRoleId env req.userId (privilegeToRole p).value (some p))
        modify (State.updateChannel req.userId (req.channelConfig ctx p l) req.changeEnable)
        updateAccount req.userId fun _ => Account.setIpmiUserAccess req p) s
  := by
  unfold setIpmiUserAccess
  rw [exec_bind_ok (exec_get s)]
  cases ipmiSetUserAccessInputCheck env req ctx s with
  | error e => rfl
  | ok r => rfl

/-- Where the role follows the privilege, its guard keeps an operable administrator. -/
theorem setRoleId_spec_stays (env : Env) {id : ℕ} {p : IpmiPrivilege} :
  Spec State.HasOperateAdmin (setRoleId env id (privilegeToRole p).value (some p))
    (fun _ => State.HasAccount (StaysAdmin id p)) State.HasOperateAdmin
  := by
  by_cases hp : p = .admin
  · exact (setRoleId_keeps env id _ (some p)).weaken (fun _ h => h)
      (fun _ _ h => h.imp fun _ _ hop => ⟨hop, fun _ => Or.inl hp⟩) fun _ h => h
  · have hrole := (privilegeToRole_eq_administrator_iff p).not.mpr hp
    exact (setRoleId_spec_other hrole).weaken (fun _ h => h)
      (fun _ _ h => h.imp fun _ _ hop => ⟨hop.2, fun hj => absurd hj hop.1⟩) fun _ h => h

/-- A request that demotes no last administrator leaves one. -/
theorem setIpmiUserAccess_hasOperateAdmin {env : Env} {req : UserAccessReq} {ctx : IpmiCtx}
    {s : State} (hs : s.HasOperateAdmin) (h : ¬ Demotes env req ctx s) :
  (after (setIpmiUserAccess env req ctx) s).HasOperateAdmin
  := by
  unfold after
  rw [exec_setIpmiUserAccess]
  cases hc : ipmiSetUserAccessInputCheck env req ctx s with
  | error e => exact hs
  | ok r =>
    obtain ⟨p, l⟩ := r
    cases hrole : setsRole env req ctx with
    | true =>
      have hspec := Spec.bind (Keeps.refuse (b := !hostUserMgntEnabled s.config ctx)
        (e := Err.hostUserManagementDisabled)) fun _ =>
        Spec.bind (setRoleId_spec_stays env) fun _ =>
          setIpmiUserAccess_tail req ctx (p := p) (l := l)
      exact hspec.after hs
    | false =>
      cases hhost : hostUserMgntEnabled s.config ctx with
      | false => exact hs
      | true =>
        have hstays : s.HasAccount (StaysAdmin req.userId p) := by
          by_contra hno
          apply h
          refine ⟨⟨p, l, hc, ?_⟩, hhost, hrole, ?_, ?_⟩
          · rintro rfl
            exact hno (hs.imp fun _ _ hop => ⟨hop, fun _ => Or.inl rfl⟩)
          · obtain ⟨j, a, ha, hop⟩ := hs
            by_cases hj : j = req.userId
            · subst hj
              refine ⟨a, ha, hop, fun hrole => hno ⟨req.userId, a, ha, hop, fun _ => Or.inr hrole⟩⟩
            · exact absurd ⟨j, a, ha, hop, fun h => absurd h hj⟩ hno
          · intro hother
            exact hno (hother.imp fun _ _ hop => ⟨hop.2, fun hj => absurd hj hop.1⟩)
        exact (setIpmiUserAccess_tail req ctx (l := l) (E := State.HasOperateAdmin)).after hstays

/-- A request that demotes the last administrator leaves none. -/
theorem setIpmiUserAccess_not_hasOperateAdmin {env : Env} {req : UserAccessReq} {ctx : IpmiCtx}
    {s : State} (h : Demotes env req ctx s) :
  ¬ (after (setIpmiUserAccess env req ctx) s).HasOperateAdmin
  := by
  obtain ⟨⟨p, l, hc, hp⟩, hhost, hrole, ⟨a, ha, hop, hna⟩, hlast⟩ := h
  unfold after
  rw [exec_setIpmiUserAccess]
  simp only [hc, hhost, hrole]
  rintro ⟨j, b, hb, hopb⟩
  have hb : (s.accounts.modify req.userId (Account.setIpmiUserAccess req p)).lookup j = some b := hb
  by_cases hj : j = req.userId
  · subst hj
    rw [Table.lookup_modify_self, ha] at hb
    rw [← Option.some_inj.mp hb, isOperateAdmin_setIpmiUserAccess] at hopb
    exact hopb.2.1.elim hp hna
  · rw [Table.lookup_modify_ne hj] at hb
    exact hlast ⟨j, b, hb, hj, hopb⟩

/-! ## Runs -/

/-- The operations that can take an operable administrator away, with their arguments. -/
inductive AdminOp where
  | deleteAccount (id : ℕ) (validationSkipped : Bool)
  | setEnabled (id : ℕ) (status : Bool)
  | setRoleId (id roleId : ℕ)
  | setLoginInterface (id : ℕ) (interfaces : List String)
  | setIpmiUserAccess (req : UserAccessReq) (ctx : IpmiCtx)

/-- A call of an operation, with what it sees of the rest of the system. -/
structure AdminCall where
  env : Env
  op : AdminOp

/-- The program of a call. -/
def AdminCall.prog (c : AdminCall) : M Unit :=
  match c.op with
  | .deleteAccount id skipped => BmcAccount.deleteAccount c.env id skipped
  | .setEnabled id status => BmcAccount.setEnabled c.env id status
  | .setRoleId id roleId => BmcAccount.setRoleId c.env id roleId none
  | .setLoginInterface id interfaces => BmcAccount.setLoginInterface c.env id interfaces
  | .setIpmiUserAccess req ctx => BmcAccount.setIpmiUserAccess c.env req ctx

/-- The state after a call, whether it succeeds or raises. -/
def adminStep (s : State) (c : AdminCall) : State := after c.prog s

/-- The call demotes the last operable administrator behind the guards. -/
def AdminCall.Demotes (s : State) (c : AdminCall) : Prop :=
  match c.op with
  | .setIpmiUserAccess req ctx => BmcAccount.Demotes c.env req ctx s
  | _ => False

/-- One call keeps an operable administrator exactly if it demotes no last one. -/
theorem adminStep_hasOperateAdmin_iff {s : State} (hs : s.HasOperateAdmin) (c : AdminCall) :
  (adminStep s c).HasOperateAdmin ↔ ¬ c.Demotes s
  := by
  obtain ⟨env, op⟩ := c
  cases op with
  | deleteAccount id skipped =>
    exact iff_of_true ((deleteAccount_keeps env id skipped).after hs) not_false
  | setEnabled id status =>
    exact iff_of_true ((setEnabled_keeps env id status).after hs) not_false
  | setRoleId id roleId =>
    exact iff_of_true ((setRoleId_keeps env id roleId none).after hs) not_false
  | setLoginInterface id interfaces =>
    exact iff_of_true ((setLoginInterface_keeps env id interfaces).after hs) not_false
  | setIpmiUserAccess req ctx =>
    constructor
    · intro h hdem
      exact setIpmiUserAccess_not_hasOperateAdmin hdem h
    · exact setIpmiUserAccess_hasOperateAdmin hs

/-- Along every run of calls none of which demotes the last operable administrator, there
is an operable administrator after each call. -/
theorem run_hasOperateAdmin (s : State) (hs : s.HasOperateAdmin) (calls : List AdminCall)
    (h : Run.Along adminStep (fun s c => ¬ c.Demotes s) s calls) :
  ∀ s' ∈ Run.states adminStep s calls, s'.HasOperateAdmin
  := by
  apply Run.invariant _ hs h
  intro s c hs hc
  exact (adminStep_hasOperateAdmin_iff hs c).mpr hc

/-! ### An administrator by privilege -/

/-- An encoder that writes a table of channels as an array, with a `null` in each gap, unless the
table is too sparse or has the key `0`. -/
def cjsonChannels (t : Table ℕ ChannelConfig) : Except Err (List (Option ChannelConfig)) :=
  let top := t.keys.foldl max 0
  if 0 ∈ t.keys then .ok (t.entries.map fun e => some e.2)
  else if 10 < top && 2 * t.keys.length < top then .error .jsonSparseArray
  else .ok ((List.range' 1 top).map t.lookup)

/-- A system with the built-in roles, several channels, and policies that allow everything. -/
def plainEnv : Env where
  now := 1000000000
  roles r := if r ∈ [0, 2, 3, 4] then some [.configureSelf] else none
  checkUserName _ _ := some true
  onlineDeletable _ := some true
  deletable _ := some true
  interChassisInterfaces := 223
  crypt password salt := salt ++ password
  randomBytes _ := 0
  snmpRandomBytes _ := 0
  encryptPassword password := password
  decryptPassword cipher := some cipher
  validate _ _ _ := true
  generateKu _ password := some password
  sshKeyExists _ := false
  removeSshKey _ := true
  multiChannelStatus := 1
  chNumMaps := []
  jsonChannels := cjsonChannels

/-- An enabled local account of the given name, role and login interfaces. -/
def plainAccount (name : String) (roleId interface : ℕ) : Account :=
  let blank := Account.blank ⟨0, name, "", roleId, interface, none, false, false⟩
  { blank with
    data := { blank.data with enabled := true, loginInterface := interface }
    snmp := some ⟨"", none, .sha256, "", none, .aes128, "", "", some true⟩ }

/-- The default configuration, with an inactivity threshold of thirty days. -/
def plainConfig : Config where
  emergencyLoginAccountId := 0
  snmpV3TrapAccountId := 0
  snmpV3TrapAccountChangePolicy := 0
  snmpV3TrapAccountLimitPolicy := .modifiable
  inactiveDaysThreshold := 30
  maxPasswordValidDays := 0
  minPasswordValidDays := 0
  historyPasswordCount := 5
  maxHistoryPasswordCount := 5
  weakPwdDictionaryEnable := false
  weakPwdDictionaryInProcess := false
  weakPasswordDictionary := []
  hostUserManagementEnabled := true
  initialAccountPrivilegeRestrictEnabled := false

/-- A state with the given accounts, each with a configuration of the default channels. -/
def plainState (accounts : List (ℕ × Account)) : State where
  accounts := (accounts.map fun e => ⟨e.1, e.2⟩ : List (Sigma fun _ : ℕ => Account)).toAList
  channels := (accounts.map fun e => ⟨e.1, (defaultChannels.map fun ch =>
    ⟨ch, ⟨ch, (Account.privilegeOfRole e.2.data.roleId).value, 0, 0, true, true⟩⟩).toAList⟩ :
    List (Sigma fun _ : ℕ => Table ℕ ChannelConfig)).toAList
  config := plainConfig
  backup := ∅

/-- A request for a privilege on the second channel. -/
def secondChannelReq (id privilege : ℕ) : UserAccessReq :=
  ⟨id, 2, privilege, [0], 0, 1, 1, 1⟩

/-- An operator is made an administrator on the second channel, the administrator gives up
its role, and the privilege of the operator is taken back. -/
def demotion : List AdminCall :=
  [⟨plainEnv, .setIpmiUserAccess (secondChannelReq 3 4) ⟨some 1, none⟩⟩,
   ⟨plainEnv, .setRoleId 2 2⟩,
   ⟨plainEnv, .setIpmiUserAccess (secondChannelReq 3 2) ⟨some 1, none⟩⟩]

theorem demotion_leaves_no_admin :
  ¬ ∀ (s : State) (calls : List AdminCall), s.HasOperateAdmin →
    ∀ s' ∈ Run.states adminStep s calls, s'.HasOperateAdmin
  := by
  intro h
  have hlast := h
    (plainState [(2, plainAccount "Administrator" 4 223), (3, plainAccount "user" 3 223)])
    demotion ((State.hasOperateAdmin_iff _).mpr (by decide +kernel)) _
    (List.getLast_mem (by simp [demotion, Run.states]))
  rw [State.hasOperateAdmin_iff] at hlast
  revert hlast
  decide +kernel

/-- A run that gives the role of administrator to a second account and takes it from the
first. -/
theorem run_hasOperateAdmin_handover :
  (plainState [(2, plainAccount "Administrator" 4 223), (3, plainAccount "user" 3 223)]).HasOperateAdmin
    ∧ ∀ s' ∈ Run.states adminStep
      (plainState [(2, plainAccount "Administrator" 4 223), (3, plainAccount "user" 3 223)])
      [⟨plainEnv, .setRoleId 3 4⟩, ⟨plainEnv, .setRoleId 2 2⟩], s'.HasOperateAdmin
  := by
  have hstart : (plainState [(2, plainAccount "Administrator" 4 223),
      (3, plainAccount "user" 3 223)]).HasOperateAdmin :=
    (State.hasOperateAdmin_iff _).mpr (by decide +kernel)
  exact ⟨hstart, run_hasOperateAdmin _ hstart _ ⟨not_false, not_false, trivial⟩⟩

end BmcAccount
