import BmcAccount.Account.Emergency
import BmcAccount.Account.View

/-!
# The privileges of an account whose password has expired

An account whose password has expired may only change its password: the check of the ages of
passwords narrows its privileges to `ConfigureSelf`. The narrowing is not recorded. Whatever
recomputes the privileges afterwards narrows them again only if the restriction of initial
accounts is enabled, a change of the password is required, the first login policy forces it
and the account has a role.

The state here is that of the accounts together with the role table, so that a run may also
change what the roles grant.
-/

namespace BmcAccount

open Raise

/-! ## Roles -/

/-- The row of a role: the privileges it grants. -/
abbrev RoleData : Type := PrivilegeType → Bool

/-- The role table. -/
abbrev Roles : Type := ℕ → Option RoleData

/-- The privileges in the order in which they are listed. -/
def privilegeTypes : List PrivilegeType :=
  [.userMgmt, .basicSetting, .kvmMgmt, .readOnly, .vmmMgmt, .securityMgmt, .powerMgmt,
    .diagnoseMgmt, .configureSelf]

/-- `to_array`: the privileges that a role grants. -/
def RoleData.toArray (r : RoleData) : List PrivilegeType := privilegeTypes.filter r

/-- `UNALTERABLE_PRIV`. -/
def unalterablePriv : PrivilegeType → Bool
  | .userMgmt | .readOnly | .configureSelf => true
  | _ => false

/-- `set_privilege` of a role: the built-in ones refuse. -/
def setPrivilege (roleId : ℕ) (p : PrivilegeType) (value : Bool) (role : RoleData) :
    Except Err RoleData :=
  if roleId ≤ RoleType.administrator.value then .error .insufficientPrivilege
  else .ok (Function.update role p value)

/-- `RoleCollection:set_role_privilege`; a name that is no privilege is `none`. Returns the
changed table, or `none` if the role has the value already. -/
def setRolePrivilege (roleId : ℕ) (p : Option PrivilegeType) (value : Bool) (roles : Roles) :
    Except Err (Option Roles) :=
  match roles roleId, p with
  | none, _ => .error (.propertyValueNotInList .roleId)
  | some _, none => .error .privilegeTypeNotInList
  | some role, some p =>
    if unalterablePriv p then .error .insufficientPrivilege
    else if role p = value then .ok none
    else (setPrivilege roleId p value role).map fun role =>
      some (Function.update roles roleId (some role))

/-! ## The operations -/

/-- `AccountCollection:update_privileges`. -/
def updatePrivileges (env : Env) : M Unit :=
  modify fun s =>
    { s with accounts := s.accounts.map fun _ => Account.updatePrivileges env s.config none }

/-- `AccountCollection:set_password_change_required`. -/
def setPasswordChangeRequired (env : Env) (id : ℕ) (required : Bool) : M Unit := do
  let _ ← getAccount id .invalidAccountId
  updateAccount id fun cfg => Account.setPasswordChangeRequired env cfg required

/-- What `set_password_change_required` stores. -/
def Account.requirePasswordChange (required : Bool) (a : Account) : Account :=
  { a with data := { a.data with passwordChangeRequired := required } }

/-- What `set_role_id` stores. -/
def Account.withRole (roleId : ℕ) (a : Account) : Account :=
  { a with data := { a.data with roleId := roleId } }

/-- `set_first_login_policy` of an account. -/
def Account.setFirstLoginPolicy (policy : FirstLoginPolicy) (a : Account) : Account :=
  { a with data := { a.data with firstLoginPolicy := policy } }

/-- `AccountCollection:set_first_login_policy`; `null` stands for every number that is no
policy. -/
def setFirstLoginPolicy (env : Env) (id : ℕ) (policy : FirstLoginPolicy) : M Unit := do
  let _ ← getAccount id .invalidAccountId
  refuse (policy = .null) .firstLoginPolicyNotInList
  updateAccount id fun _ => Account.setFirstLoginPolicy policy
  updateAccount id fun cfg => Account.updatePrivileges env cfg none

/-- The configuration with the restriction of initial accounts switched. -/
def Config.restrictInitial (enable : Bool) (cfg : Config) : Config :=
  { cfg with initialAccountPrivilegeRestrictEnabled := enable }

/-- `set_initial_account_privilege_restrict_enabled`, where `needModify` is the master switch
`InitialPasswordNeedModify`. -/
def setInitialAccountPrivilegeRestrictEnabled (env : Env) (needModify enable : Bool) :
    M Unit := do
  refuse (!needModify && enable) .settingPropertyFailed
  modify fun s => { s with config := s.config.restrictInitial enable }
  updatePrivileges env

/-- The accounts, the roles, and the master switch of the initial password mechanisms. -/
structure PrivilegeSystem where
  state : State
  roles : Roles
  initialPasswordNeedModify : Bool

/-- What a call sees when the roles are those of the system. -/
def PrivilegeSystem.env (sys : PrivilegeSystem) (env : Env) : Env :=
  { env with roles := fun r => (sys.roles r).map RoleData.toArray }

inductive PrivilegeOp where
  | setRoleId (id roleId : ℕ) (ipmiPrivilege : Option IpmiPrivilege)
  | setFirstLoginPolicy (id : ℕ) (policy : FirstLoginPolicy)
  | setPasswordChangeRequired (id : ℕ) (required : Bool)
  | setRolePrivilege (roleId : ℕ) (p : Option PrivilegeType) (value : Bool)
  | setInitialAccountPrivilegeRestrictEnabled (enable : Bool)
  | newAccount (info : Account.Info) (isIpmiOrSnmp : Bool)
  | deleteAccount (id : ℕ) (validationSkipped : Bool)

/-- An operation, and what it sees of the rest of the system. -/
structure PrivilegeCall where
  env : Env
  op : PrivilegeOp

namespace PrivilegeSystem

/-- The system after a program on the accounts. -/
def run (sys : PrivilegeSystem) (m : M Unit) : PrivilegeSystem :=
  { sys with state := after m sys.state }

/-- The system with a changed role table: every account recomputes its privileges. -/
def withRoles (sys : PrivilegeSystem) (env : Env) (roles : Roles) : PrivilegeSystem :=
  let sys' := { sys with roles := roles }
  sys'.run (updatePrivileges (sys'.env env))

/-- One call. -/
def step (sys : PrivilegeSystem) (c : PrivilegeCall) : PrivilegeSystem :=
  match c.op with
  | .setRoleId id roleId p => sys.run (setRoleId (sys.env c.env) id roleId p)
  | .setFirstLoginPolicy id policy => sys.run (setFirstLoginPolicy (sys.env c.env) id policy)
  | .setPasswordChangeRequired id required =>
    sys.run (setPasswordChangeRequired (sys.env c.env) id required)
  | .setRolePrivilege roleId p value =>
    match BmcAccount.setRolePrivilege roleId p value sys.roles with
    | .ok (some roles) => sys.withRoles c.env roles
    | _ => sys
  | .setInitialAccountPrivilegeRestrictEnabled enable =>
    sys.run (setInitialAccountPrivilegeRestrictEnabled (sys.env c.env)
      sys.initialPasswordNeedModify enable)
  | .newAccount info b => sys.run (do let _ ← newAccount (sys.env c.env) info b)
  | .deleteAccount id skipped => sys.run (deleteAccount (sys.env c.env) id skipped)

end PrivilegeSystem

/-! ## Confined accounts -/

/-- The privileges of the account are exactly `ConfigureSelf`. -/
def Account.Confined (a : Account) : Prop :=
  ∀ p, p ∈ a.currentPrivileges ↔ p = .configureSelf

/-- The role grants exactly `ConfigureSelf`. -/
def GrantsOnlySelf (env : Env) (roleId : ℕ) : Prop :=
  ∀ p, p ∈ (env.roles roleId).getD [] ↔ p = .configureSelf

/-- The condition under which `update_privileges` narrows the privileges by itself. -/
def Account.narrowed (cfg : Config) (a : Account) : Bool :=
  cfg.initialAccountPrivilegeRestrictEnabled && a.getPasswordChangeRequired
    && a.data.firstLoginPolicy = .forcePasswordReset && a.data.roleId != RoleType.noAccess.value

/-- Recomputing the privileges of the account confines it. -/
def Account.StaysConfined (env : Env) (cfg : Config) (a : Account) : Prop :=
  a.narrowed cfg = true ∨ GrantsOnlySelf env a.data.roleId

theorem Account.confined_updatePrivileges_iff (env : Env) (cfg : Config) {a : Account}
    (ha : a.cls = .localAccount) :
  (a.updatePrivileges env cfg none).Confined ↔ a.StaysConfined env cfg
  := by
  have hprivileges : (a.updatePrivileges env cfg none).currentPrivileges
      = if a.narrowed cfg then [.configureSelf] else (env.roles a.data.roleId).getD [] := by
    simp [updatePrivileges, narrowed, ha]
  unfold Confined StaysConfined GrantsOnlySelf
  rw [hprivileges]
  cases a.narrowed cfg <;> simp

/-- The account `id` is a local one whose privileges are exactly `ConfigureSelf`. -/
def State.ConfinedAt (s : State) (id : ℕ) : Prop :=
  ∃ a, s.accounts.lookup id = some a ∧ a.cls = .localAccount ∧ a.Confined

/-- What confinement depends on. -/
def Account.privilegeView (a : Account) : AccountClass × List PrivilegeType :=
  (a.cls, a.currentPrivileges)

theorem showsNoFlags_privilegeView :
  ShowsNoFlags Account.privilegeView
  where
  updateDeletable cfg only id a := by
    cases hcls : a.cls <;> simp [Account.privilegeView, Account.updateDeletable, hcls]
  setWithinMinPasswordDaysStatus status a := by
    cases hcls : a.cls <;>
      simp [Account.privilegeView, Account.setWithinMinPasswordDaysStatus, hcls]

theorem confinedAt_iff_of_view {s : State} {id : ℕ} {a : Account} (ha : a.cls = .localAccount)
    (h : s.view Account.privilegeView id = some a.privilegeView) :
  s.ConfinedAt id ↔ a.Confined
  := by
  obtain ⟨b, hb, hview⟩ := Option.map_eq_some_iff.mp h
  obtain ⟨hcls, hprivileges⟩ := Prod.ext_iff.mp hview
  have hconfined : b.Confined ↔ a.Confined := by
    unfold Account.Confined
    rw [show b.currentPrivileges = a.currentPrivileges from hprivileges]
  constructor
  · rintro ⟨c, hc, -, hconf⟩
    rw [hb] at hc
    rw [← hconfined, Option.some_inj.mp hc]
    exact hconf
  · intro hconf
    exact ⟨b, hb, hcls.trans ha, hconfined.mpr hconf⟩

theorem confinedAt_of_view_eq {s s' : State} {id : ℕ} (hs : s.ConfinedAt id)
    (h : s'.view Account.privilegeView id = s.view Account.privilegeView id) :
  s'.ConfinedAt id
  := by
  obtain ⟨a, ha, hcls, hconf⟩ := hs
  rw [confinedAt_iff_of_view hcls]
  · exact hconf
  · rw [h, State.view, ha, Option.map_some]

theorem confinedAt_of_off {s s' : State} {id i : ℕ} (hs : s.ConfinedAt id) (hi : i ≠ id)
    (h : ViewOff Account.privilegeView (s.view Account.privilegeView) i s') :
  s'.ConfinedAt id
  := confinedAt_of_view_eq hs (h id hi.symm)

/-! ## What each operation does -/

section Operations

variable {env : Env} {s : State} {id : ℕ} {a : Account}

/-- The account has had its privileges recomputed. -/
theorem confinedAt_of_recomputed {cfg : Config} {b : Account} (hcls : b.cls = .localAccount)
    (h : s.view Account.privilegeView id
      = some (b.updatePrivileges env cfg none).privilegeView) :
  s.ConfinedAt id ↔ b.StaysConfined env cfg
  := by
  rw [← Account.confined_updatePrivileges_iff env cfg hcls]
  apply confinedAt_iff_of_view _ h
  simp [Account.updatePrivileges, hcls]

theorem confinedAt_updatePrivileges (ha : s.accounts.lookup id = some a)
    (hcls : a.cls = .localAccount) :
  (after (updatePrivileges env) s).ConfinedAt id ↔ a.StaysConfined env s.config
  := by
  apply confinedAt_of_recomputed hcls
  change Option.map _ ((s.accounts.map _).lookup id) = _
  simp [ha]

theorem confinedAt_setPasswordChangeRequired {required : Bool}
    (ha : s.accounts.lookup id = some a) (hcls : a.cls = .localAccount) :
  (after (setPasswordChangeRequired env id required) s).ConfinedAt id ↔
    (a.requirePasswordChange required).StaysConfined env s.config
  := by
  unfold after setPasswordChangeRequired
  rw [exec_bind_ok (exec_getAccount ha)]
  apply confinedAt_of_recomputed (b := a.requirePasswordChange required) hcls
  change (s.modifyAccount id _).view _ id = _
  rw [State.view_modifyAccount, Function.update_self, ha]
  rfl

theorem confinedAt_setFirstLoginPolicy {policy : FirstLoginPolicy}
    (ha : s.accounts.lookup id = some a) (hcls : a.cls = .localAccount) (hconf : a.Confined) :
  (after (setFirstLoginPolicy env id policy) s).ConfinedAt id ↔
    (policy ≠ .null → (a.setFirstLoginPolicy policy).StaysConfined env s.config)
  := by
  unfold after setFirstLoginPolicy
  rw [exec_bind_ok (exec_getAccount ha)]
  by_cases hnull : policy = .null
  · rw [decide_eq_true hnull, exec_bind_error (exec_refuse_true _ s)]
    exact iff_of_true ⟨a, ha, hcls, hconf⟩ fun h => absurd hnull h
  · rw [decide_eq_false hnull, exec_bind_ok (exec_refuse_false _ s), forall_prop_of_true hnull]
    apply confinedAt_of_recomputed (b := a.setFirstLoginPolicy policy) hcls
    change ((s.modifyAccount id _).modifyAccount id _).view _ id = _
    simp [State.view, State.modifyAccount, ha]

/-- A change of the role of an account is accepted. -/
structure RoleChangeAccepted (env : Env) (s : State) (id roleId : ℕ) (a : Account) : Prop where
  known : (RoleType.ofValue roleId).isSome ∧ (env.roles roleId).isSome
  notLast : ¬ (roleId ≠ RoleType.administrator.value ∧ s.IsLastOperateAdmin id)
  notEmergency : id ≠ s.config.emergencyLoginAccountId
  writable : a.getPropertyWritable .roleId = true

theorem exec_setRoleId_refused {roleId : ℕ} {p : Option IpmiPrivilege}
    (ha : s.accounts.lookup id = some a) (h : ¬ RoleChangeAccepted env s id roleId a) :
  ∃ e, exec (setRoleId env id roleId p) s = (.error e, s)
  := by
  unfold setRoleId
  rw [exec_bind_ok (exec_getAccount ha)]
  by_cases hrole : ((RoleType.ofValue roleId).isNone || (env.roles roleId).isNone) = true
  · rw [hrole]
    exact ⟨_, exec_bind_error (exec_refuse_true _ s)⟩
  rw [eq_false_of_ne_true hrole, exec_bind_ok (exec_refuse_false _ s)]
  by_cases hlast : (roleId != RoleType.administrator.value) = true ∧ s.IsLastOperateAdmin id
  · exact ⟨_, exec_bind_error (exec_refuseLastOperateAdmin_error ha hlast)⟩
  rw [exec_bind_ok (exec_refuseLastOperateAdmin_ok ha hlast)]
  rw [exec_bind, exec_refuseEmergencyUser]
  by_cases hemergency : id = s.config.emergencyLoginAccountId
  · use .emergencyLoginUser .roleId
    simp [State.checkIsEmergencyUser, hemergency]
  have hwritable : a.getPropertyWritable .roleId = false := by
    apply eq_false_of_ne_true
    intro hwritable
    apply h
    exact {
      known := by simpa [Option.isSome_iff_ne_none] using hrole
      notLast := by simpa using hlast
      notEmergency := hemergency
      writable := hwritable }
  use .propertyNotWritable .roleId
  have hmethod : a.setRoleId env s.config roleId = .error (.propertyNotWritable .roleId) := by
    unfold Account.setRoleId
    cases hcls : a.cls with
    | localAccount | oemAccount => simp [hwritable]
    | _ => exact absurd hwritable (by simp [Account.getPropertyWritable, hcls])
  simp [State.checkIsEmergencyUser, hemergency, exec_bind, exec_callAccount ha, hmethod]

theorem view_setRoleId_accepted {roleId : ℕ} {p : Option IpmiPrivilege}
    (ha : s.accounts.lookup id = some a) (hcls : a.cls = .localAccount)
    (h : RoleChangeAccepted env s id roleId a) :
  (after (setRoleId env id roleId p) s).view Account.privilegeView id
    = some ((a.withRole roleId).updatePrivileges env s.config none).privilegeView
  := by
  have hrole : ((RoleType.ofValue roleId).isNone || (env.roles roleId).isNone) = false := by
    simpa [Option.isSome_iff_ne_none] using h.known
  have hlast : ¬ ((roleId != RoleType.administrator.value) = true ∧ s.IsLastOperateAdmin id) := by
    simpa using h.notLast
  have hmethod : Account.setRoleId env s.config roleId a
      = .ok ((a.withRole roleId).updatePrivileges env s.config none) := by
    simp [Account.setRoleId, hcls, h.writable, Account.withRole]
  have hview : (s.modifyAccount id fun _ =>
      (a.withRole roleId).updatePrivileges env s.config none).view Account.privilegeView id
      = some ((a.withRole roleId).updatePrivileges env s.config none).privilegeView := by
    rw [State.view_modifyAccount, Function.update_self, ha, Option.map_some]
  have htail (privilege : IpmiPrivilege) (T : ℕ → Option (AccountClass × List PrivilegeType)) :
      Keeps (ViewIs Account.privilegeView T) (do
        updateAccount id fun _ => Account.setIpmiUserPrivilege privilege
        limitFirstChannel id privilege
        updateDeletable) := by
    apply Keeps.bind
    · exact updateAccount_keeps_view fun _ _ => rfl
    intro _
    apply Keeps.bind limitFirstChannel_view
    intro _
    exact updateDeletable_view showsNoFlags_privilegeView
  unfold after setRoleId
  rw [exec_bind_ok (exec_getAccount ha), hrole, exec_bind_ok (exec_refuse_false _ s),
    exec_bind_ok (exec_refuseLastOperateAdmin_ok ha hlast), exec_bind, exec_refuseEmergencyUser]
  simp only [State.checkIsEmergencyUser, decide_eq_false h.notEmergency, Bool.and_false,
    exec_refuse_false]
  rw [exec_bind, exec_callAccount ha, hmethod]
  exact (congrFun ((htail _ _).after rfl) id).trans hview

theorem confinedAt_setRoleId {roleId : ℕ} {p : Option IpmiPrivilege}
    (ha : s.accounts.lookup id = some a) (hcls : a.cls = .localAccount) (hconf : a.Confined) :
  (after (setRoleId env id roleId p) s).ConfinedAt id ↔
    (RoleChangeAccepted env s id roleId a → (a.withRole roleId).StaysConfined env s.config)
  := by
  by_cases h : RoleChangeAccepted env s id roleId a
  · rw [forall_prop_of_true h]
    exact confinedAt_of_recomputed (b := a.withRole roleId) hcls
      (view_setRoleId_accepted ha hcls h)
  · obtain ⟨e, he⟩ := exec_setRoleId_refused (p := p) ha h
    unfold after
    rw [he]
    exact iff_of_true ⟨a, ha, hcls, hconf⟩ fun h' => absurd h' h

theorem confinedAt_setInitialAccountPrivilegeRestrictEnabled {needModify enable : Bool}
    (ha : s.accounts.lookup id = some a) (hcls : a.cls = .localAccount) (hconf : a.Confined) :
  (after (setInitialAccountPrivilegeRestrictEnabled env needModify enable) s).ConfinedAt id ↔
    ((enable = true → needModify = true) →
      a.StaysConfined env (s.config.restrictInitial enable))
  := by
  by_cases h : enable = true → needModify = true
  · rw [forall_prop_of_true h]
    have hpass : (!needModify && enable) = false := by
      cases enable
      · simp
      · simp [h rfl]
    have hexec : after (setInitialAccountPrivilegeRestrictEnabled env needModify enable) s
        = after (updatePrivileges env)
          { s with config := s.config.restrictInitial enable } := by
      unfold after setInitialAccountPrivilegeRestrictEnabled
      rw [hpass, exec_bind_ok (exec_refuse_false _ s), exec_bind_ok (exec_modify _ s)]
    rw [hexec]
    exact confinedAt_updatePrivileges (s := { s with config := s.config.restrictInitial enable })
      ha hcls
  · have hraise : (!needModify && enable) = true := by
      simpa [and_comm] using h
    have hexec : after (setInitialAccountPrivilegeRestrictEnabled env needModify enable) s
        = s := by
      unfold after setInitialAccountPrivilegeRestrictEnabled
      rw [hraise, exec_bind_error (exec_refuse_true _ s)]
    rw [hexec]
    exact iff_of_true ⟨a, ha, hcls, hconf⟩ fun h' => absurd h' h

end Operations

/-! ## Runs -/

/-- The operation does not delete the account `id`. -/
def PrivilegeOp.Spares (id : ℕ) : PrivilegeOp → Prop
  | .deleteAccount i _ => i ≠ id
  | _ => True

namespace PrivilegeSystem

/-- The call keeps a confined account `id` confined: where it recomputes the privileges of the
account, `update_privileges` narrows them by itself, with what the call changes taken into
account, or the role grants nothing but `ConfigureSelf`. -/
def KeepsConfined (id : ℕ) (sys : PrivilegeSystem) (c : PrivilegeCall) : Prop :=
  ∀ a, sys.state.accounts.lookup id = some a →
    match c.op with
    | .setRoleId i roleId _ =>
      i = id → RoleChangeAccepted (sys.env c.env) sys.state id roleId a →
        (a.withRole roleId).StaysConfined (sys.env c.env) sys.state.config
    | .setFirstLoginPolicy i policy =>
      i = id → policy ≠ .null →
        (a.setFirstLoginPolicy policy).StaysConfined (sys.env c.env) sys.state.config
    | .setPasswordChangeRequired i required =>
      i = id →
        (a.requirePasswordChange required).StaysConfined (sys.env c.env) sys.state.config
    | .setRolePrivilege roleId p value =>
      ∀ roles, BmcAccount.setRolePrivilege roleId p value sys.roles = .ok (some roles) →
        a.StaysConfined ({ sys with roles := roles }.env c.env) sys.state.config
    | .setInitialAccountPrivilegeRestrictEnabled enable =>
      (enable = true → sys.initialPasswordNeedModify = true) →
        a.StaysConfined (sys.env c.env) (sys.state.config.restrictInitial enable)
    | .newAccount _ _ => True
    | .deleteAccount _ _ => True

/-- A program on another account. -/
theorem confinedAt_run_of_off {sys : PrivilegeSystem} {id i : ℕ} {m : M Unit}
    (hs : sys.state.ConfinedAt id) (hi : i ≠ id)
    (h : ∀ T, Keeps (ViewOff Account.privilegeView T i) m) :
  (sys.run m).state.ConfinedAt id
  := confinedAt_of_off hs hi ((h _).after fun _ _ => rfl)

/-- A program on the account `i`, which may be the confined one. -/
theorem confinedAt_run_iff {sys : PrivilegeSystem} {id i : ℕ} {m : M Unit} {Q : Prop}
    (hs : sys.state.ConfinedAt id) (hoff : ∀ T, Keeps (ViewOff Account.privilegeView T i) m)
    (hself : i = id → ((sys.run m).state.ConfinedAt id ↔ Q)) :
  (sys.run m).state.ConfinedAt id ↔ (i = id → Q)
  := by
  by_cases hi : i = id
  · rw [hself hi]
    exact ⟨fun h _ => h, fun h => h hi⟩
  · exact iff_of_true (confinedAt_run_of_off hs hi hoff) fun h => absurd h hi

theorem setRoleId_off {T : ℕ → Option (AccountClass × List PrivilegeType)} (env : Env)
    (i roleId : ℕ) (p : Option IpmiPrivilege) :
  Keeps (ViewOff Account.privilegeView T i) (setRoleId env i roleId p)
  := by
  apply Keeps.bind getAccount_keeps
  intro _
  apply Keeps.bind Keeps.refuse
  intro _
  apply Keeps.bind refuseLastOperateAdmin_keeps
  intro _
  apply Keeps.bind refuseEmergencyUser_keeps
  intro _
  apply Keeps.bind callAccount_off
  intro _
  apply Keeps.bind updateAccount_off
  intro _
  apply Keeps.bind limitFirstChannel_off
  intro _
  exact updateDeletable_off showsNoFlags_privilegeView

theorem setFirstLoginPolicy_off {T : ℕ → Option (AccountClass × List PrivilegeType)} (env : Env)
    (i : ℕ) (policy : FirstLoginPolicy) :
  Keeps (ViewOff Account.privilegeView T i) (setFirstLoginPolicy env i policy)
  := by
  apply Keeps.bind getAccount_keeps
  intro _
  apply Keeps.bind Keeps.refuse
  intro _
  apply Keeps.bind updateAccount_off
  intro _
  exact updateAccount_off

theorem setPasswordChangeRequired_off {T : ℕ → Option (AccountClass × List PrivilegeType)}
    (env : Env) (i : ℕ) (required : Bool) :
  Keeps (ViewOff Account.privilegeView T i) (setPasswordChangeRequired env i required)
  := by
  apply Keeps.bind getAccount_keeps
  intro _
  exact updateAccount_off

theorem confinedAt_newAccount {sys : PrivilegeSystem} {id : ℕ} (hs : sys.state.ConfinedAt id)
    (env : Env) (info : Account.Info) (b : Bool) :
  (sys.run (do let _ ← newAccount env info b)).state.ConfinedAt id
  := by
  have hkeeps : Keeps (ViewExtends Account.privilegeView
      (sys.state.view Account.privilegeView)) (do let _ ← newAccount env info b) := by
    apply Keeps.bind (newAccount_extends showsNoFlags_privilegeView env info b)
    intro _
    exact Keeps.pure
  obtain ⟨a, ha, hrest⟩ := hs
  have hs : sys.state.ConfinedAt id := ⟨a, ha, hrest⟩
  have hview : sys.state.view Account.privilegeView id = some a.privilegeView := by
    rw [State.view, ha, Option.map_some]
  apply confinedAt_of_view_eq hs
  rw [hview]
  exact hkeeps.after (fun _ _ h => h) id _ hview

/-- One call leaves a confined account confined exactly when it meets the condition. -/
theorem step_confinedAt_iff {sys : PrivilegeSystem} {id : ℕ} (hs : sys.state.ConfinedAt id)
    (c : PrivilegeCall) (hc : c.op.Spares id) :
  (sys.step c).state.ConfinedAt id ↔ KeepsConfined id sys c
  := by
  obtain ⟨a, ha, hcls, hconf⟩ := hs
  have hs : sys.state.ConfinedAt id := ⟨a, ha, hcls, hconf⟩
  have hall (P : Account → Prop) :
      (∀ b, sys.state.accounts.lookup id = some b → P b) ↔ P a := by simp [ha]
  obtain ⟨env, op⟩ := c
  unfold KeepsConfined
  rw [hall]
  cases op with
  | setRoleId i roleId p =>
    apply confinedAt_run_iff hs fun _ => setRoleId_off _ i roleId p
    rintro rfl
    exact confinedAt_setRoleId ha hcls hconf
  | setFirstLoginPolicy i policy =>
    apply confinedAt_run_iff hs fun _ => setFirstLoginPolicy_off _ i policy
    rintro rfl
    exact confinedAt_setFirstLoginPolicy ha hcls hconf
  | setPasswordChangeRequired i required =>
    apply confinedAt_run_iff hs fun _ => setPasswordChangeRequired_off _ i required
    rintro rfl
    exact confinedAt_setPasswordChangeRequired ha hcls
  | setRolePrivilege roleId p value =>
    unfold step
    simp only
    cases hset : BmcAccount.setRolePrivilege roleId p value sys.roles with
    | error e => simpa using hs
    | ok changed =>
      cases changed with
      | none => simpa using hs
      | some roles => simpa [withRoles, run] using confinedAt_updatePrivileges ha hcls
  | setInitialAccountPrivilegeRestrictEnabled enable =>
    exact confinedAt_setInitialAccountPrivilegeRestrictEnabled ha hcls hconf
  | newAccount info b => exact iff_of_true (confinedAt_newAccount hs _ info b) trivial
  | deleteAccount i skipped =>
    apply iff_of_true _ trivial
    apply confinedAt_run_of_off hs hc
    intro T
    exact deleteAccount_off showsNoFlags_privilegeView _ skipped

end PrivilegeSystem

/-- The check of the ages of passwords finds a local account with a role, which is not the
emergency account, expired. -/
structure FoundExpired (env : Env) (s : State) (id : ℕ) (a : Account) : Prop where
  found : s.accounts.lookup id = some a
  isLocal : a.cls = .localAccount ∧ a.data.accountType = .localUser
  hasRole : a.data.roleId ≠ RoleType.noAccess.value
  notEmergency : id ≠ s.config.emergencyLoginAccountId
  limited : s.config.maxPasswordValidDays ≠ 0
  expired : a.calculatePasswordValidTime env s.config id = 0

/-- The check confines the account. -/
theorem FoundExpired.confinedAt {env : Env} {s : State} {id : ℕ} {a : Account}
    (h : FoundExpired env s id a) :
  (after (checkPasswordValidDays env) s).ConfinedAt id
  := by
  have hcheck : a.checkPasswordValidDays env s.config id
      = (a.updatePasswordExpireStatus env s.config true).setPasswordValidTime 0 := by
    simp [Account.checkPasswordValidDays, h.isLocal.2, h.notEmergency, h.expired]
  refine ⟨a.checkPasswordValidDays env s.config id, ?_, ?_, ?_⟩
  · change (s.accounts.map _).lookup id = _
    rw [Table.lookup_map, h.found, Option.map_some]
  · rw [hcheck]
    simp [Account.setPasswordValidTime, Account.updatePasswordExpireStatus,
      Account.setPasswordChangeRequired, Account.updatePrivileges, h.isLocal.1]
  · rw [hcheck]
    simp [Account.Confined, Account.setPasswordValidTime, Account.updatePasswordExpireStatus,
      Account.setPasswordChangeRequired, Account.updatePrivileges, h.isLocal.1, h.hasRole]

/-- An account that is found expired stays confined in every run whose calls meet the
condition. -/
theorem run_confinedAt (sys : PrivilegeSystem) (env : Env) (id : ℕ) (a : Account)
    (h : FoundExpired (sys.env env) sys.state id a) (calls : List PrivilegeCall)
    (hspares : ∀ c ∈ calls, c.op.Spares id)
    (hok : Run.Along PrivilegeSystem.step (PrivilegeSystem.KeepsConfined id)
      (sys.run (checkPasswordValidDays (sys.env env))) calls) :
  ∀ sys' ∈ Run.states PrivilegeSystem.step (sys.run (checkPasswordValidDays (sys.env env))) calls,
    sys'.state.ConfinedAt id
  := by
  apply Run.invariant (I := fun sys' => sys'.state.ConfinedAt id) _ h.confinedAt
    ((Run.along_of_forall hspares).and hok)
  intro sys' c hs hc
  exact (PrivilegeSystem.step_confinedAt_iff hs c hc.1).mpr hc.2

/-! ### A change of role after the password has expired -/

/-- An administrator and an operator whose password has never been changed, where passwords
are valid for ninety days. The built-in roles grant what everybody may do. -/
def agedSystem (restrict : Bool) : PrivilegeSystem where
  state := { plainState [(2, plainAccount "Administrator" 4 223), (3, plainAccount "user" 3 223)] with
    config := { plainConfig with
      maxPasswordValidDays := 90
      initialAccountPrivilegeRestrictEnabled := restrict } }
  roles r := if r ∈ [2, 3, 4] then some fun p => p = .readOnly || p = .configureSelf else none
  initialPasswordNeedModify := true

theorem agedSystem_foundExpired (restrict : Bool) :
  FoundExpired ((agedSystem restrict).env plainEnv) (agedSystem restrict).state 3
    (plainAccount "user" 3 223)
  where
  found := rfl
  isLocal := ⟨rfl, rfl⟩
  hasRole := by decide
  notEmergency := by decide +revert
  limited := by decide +revert
  expired := by decide +revert

/-- The operator is made a common user. -/
def roleChange : List PrivilegeCall := [⟨plainEnv, .setRoleId 3 2 none⟩]

theorem roleChange_lifts_confinement :
  ¬ ∀ (sys : PrivilegeSystem) (env : Env) (id : ℕ) (a : Account),
    FoundExpired (sys.env env) sys.state id a →
    ∀ calls : List PrivilegeCall, (∀ c ∈ calls, c.op.Spares id) →
    ∀ sys' ∈ Run.states PrivilegeSystem.step
      (sys.run (checkPasswordValidDays (sys.env env))) calls,
      sys'.state.ConfinedAt id
  := by
  intro h
  obtain ⟨a, ha, -, hconf⟩ := h (agedSystem false) plainEnv 3 _ (agedSystem_foundExpired false)
    roleChange (by simp [roleChange, PrivilegeOp.Spares]) _
    (List.getLast_mem (by simp [roleChange, Run.states]))
  have hprivileges : some a.currentPrivileges = some [.readOnly, .configureSelf] :=
    (congrArg (Option.map Account.currentPrivileges) ha).symm.trans (by decide +kernel)
  have hread : PrivilegeType.readOnly ∈ a.currentPrivileges := by
    simp [Option.some_inj.mp hprivileges]
  exact absurd ((hconf _).mp hread) (by decide)

/-- The same change of role where initial accounts are restricted. -/
theorem run_confinedAt_roleChange :
  FoundExpired ((agedSystem true).env plainEnv) (agedSystem true).state 3
      (plainAccount "user" 3 223)
    ∧ ∀ sys' ∈ Run.states PrivilegeSystem.step ((agedSystem true).run
        (checkPasswordValidDays ((agedSystem true).env plainEnv))) roleChange,
      sys'.state.ConfinedAt 3
  := by
  refine ⟨agedSystem_foundExpired true, ?_⟩
  apply run_confinedAt _ plainEnv 3 _ (agedSystem_foundExpired true) roleChange
  · simp [roleChange, PrivilegeOp.Spares]
  · refine ⟨fun a ha _ _ => Or.inl ?_, trivial⟩
    have hnarrowed : Option.map (Account.narrowed (agedSystem true).state.config)
        (some (a.withRole 2)) = some true :=
      (congrArg (Option.map fun a => Account.narrowed (agedSystem true).state.config
        (Account.withRole 2 a)) ha).symm.trans (by decide +kernel)
    exact Option.some_inj.mp hnarrowed

end BmcAccount
