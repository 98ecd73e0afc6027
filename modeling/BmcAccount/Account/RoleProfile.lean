import BmcAccount.Account.RoleRemoval
import BmcAccount.Lib.Profile

/-!
# The profile of the roles

The configuration of the roles is exported to a file and imported elsewhere. A file has an instance
for each role that is there, with its privileges. Before the instances are imported, the extended
roles that are missing are created with the two privileges that every role has, and those that the
file says are disabled are deleted.

Three privileges cannot be changed, and the built-in roles cannot be changed at all. Neither matters
where the file comes from a controller that started with the same roles: there the privileges that
the import would be refused are the same (`Standard`), and what is left alone is not refused. So the
file makes the roles what they are where it has been exported, and leaves the others
(`import_export_roles`).
-/

namespace BmcAccount

open Raise Profile

/-! ## Names -/

/-- The name of a role. -/
def RoleType.name : RoleType → String
  | .noAccess => "NoAccess"
  | .commonUser => "CommonUser"
  | .operator => "Operator"
  | .administrator => "Administrator"
  | .customRole n => "CustomRole" ++ toString (n.val + 1)

/-- The name of a privilege. -/
def PrivilegeType.name : PrivilegeType → String
  | .userMgmt => "UserMgmt"
  | .basicSetting => "BasicSetting"
  | .kvmMgmt => "KVMMgmt"
  | .readOnly => "ReadOnly"
  | .vmmMgmt => "VMMMgmt"
  | .securityMgmt => "SecurityMgmt"
  | .powerMgmt => "PowerMgmt"
  | .diagnoseMgmt => "DiagnoseMgmt"
  | .configureSelf => "ConfigureSelf"

/-- The `instance_ids` of `UserRole`. -/
def roleInstanceIds : List RoleType :=
  [.noAccess, .commonUser, .operator, .administrator] ++ (List.finRange 16).map .customRole

theorem mem_roleInstanceIds (r : RoleType) :
  r ∈ roleInstanceIds
  := by
  unfold roleInstanceIds
  cases r with
  | customRole n => simp
  | _ => simp

theorem RoleType.value_injective :
  Function.Injective RoleType.value
  := by
  intro r r' h
  cases r <;> cases r' <;> simp_all [RoleType.value] <;> omega

/-! ## Properties -/

/-- The errors of an import: `CollectingConfigurationErrorDesc` with a place in the file, and those
of the role collection. -/
inductive ProfileErr where
  | collectingConfiguration (place : String)
  | role (e : RoleErr)
  | account (e : Err)

/-- The system with a changed role table: every account recomputes its privileges. -/
def RoleSystem.withRoles (sys : RoleSystem) (e : Env) (roles : Roles) : RoleSystem :=
  let sys := { sys with roles := roles }
  sys.run (updatePrivileges (sys.env e))

/-- `set_role_privilege`, with what the signal of it does. -/
def RoleSystem.changePrivilege (sys : RoleSystem) (e : Env) (roleId : ℕ) (p : Option PrivilegeType)
    (value : Bool) : Except Err RoleSystem :=
  (setRolePrivilege roleId p value sys.roles).map fun roles => roles.elim sys (sys.withRoles e)

namespace RolePrivilegeProfile

/-- What the functions have in common that export a privilege. -/
def exportPrivilege (p : PrivilegeType) (sys : RoleSystem) (r : RoleType) : Option Bool :=
  (sys.roles r.value).map fun role => role p

/-- What the functions have in common that import a privilege. -/
def importPrivilege (p : PrivilegeType) (e : Env) (r : RoleType) (value : Bool) :
    Prog ProfileErr RoleSystem Unit := do
  let sys ← get
  let sys ← outcome ((sys.changePrivilege e r.value (some p) value).mapError .account)
  set sys

def getUserMgmt := exportPrivilege .userMgmt
def getBasicSetting := exportPrivilege .basicSetting
def getKvmMgmt := exportPrivilege .kvmMgmt
def getVmmMgmt := exportPrivilege .vmmMgmt
def getSecurityMgmt := exportPrivilege .securityMgmt
def getPowerMgmt := exportPrivilege .powerMgmt
def getDiagnoseMgmt := exportPrivilege .diagnoseMgmt
def getReadOnly := exportPrivilege .readOnly
def getConfigureSelf := exportPrivilege .configureSelf

/-- It does nothing. -/
def setUserMgmt (_ : Env) (_ : RoleType) (_ : Bool) : Prog ProfileErr RoleSystem Unit := pure ()
def setBasicSetting := importPrivilege .basicSetting
def setKvmMgmt := importPrivilege .kvmMgmt
def setVmmMgmt := importPrivilege .vmmMgmt
def setSecurityMgmt := importPrivilege .securityMgmt
def setPowerMgmt := importPrivilege .powerMgmt
def setDiagnoseMgmt := importPrivilege .diagnoseMgmt
/-- It does nothing. -/
def setReadOnly (_ : Env) (_ : RoleType) (_ : Bool) : Prog ProfileErr RoleSystem Unit := pure ()
/-- It does nothing. -/
def setConfigureSelf (_ : Env) (_ : RoleType) (_ : Bool) : Prog ProfileErr RoleSystem Unit :=
  pure ()

end RolePrivilegeProfile

open RolePrivilegeProfile

/-- The privileges of `UserRole` in `profile_adapter`. -/
def userRoleAdapter (e : Env) : Adapter RoleSystem ProfileErr (RoleType × PrivilegeType) Bool where
  exports sys k :=
    match k.2 with
    | .userMgmt => getUserMgmt sys k.1
    | .basicSetting => getBasicSetting sys k.1
    | .kvmMgmt => getKvmMgmt sys k.1
    | .readOnly => getReadOnly sys k.1
    | .vmmMgmt => getVmmMgmt sys k.1
    | .securityMgmt => getSecurityMgmt sys k.1
    | .powerMgmt => getPowerMgmt sys k.1
    | .diagnoseMgmt => getDiagnoseMgmt sys k.1
    | .configureSelf => getConfigureSelf sys k.1
  imports k value :=
    match k.2 with
    | .userMgmt => setUserMgmt e k.1 value
    | .basicSetting => setBasicSetting e k.1 value
    | .kvmMgmt => setKvmMgmt e k.1 value
    | .readOnly => setReadOnly e k.1 value
    | .vmmMgmt => setVmmMgmt e k.1 value
    | .securityMgmt => setSecurityMgmt e k.1 value
    | .powerMgmt => setPowerMgmt e k.1 value
    | .diagnoseMgmt => setDiagnoseMgmt e k.1 value
    | .configureSelf => setConfigureSelf e k.1 value
  failure k := .collectingConfiguration ("/UserRole/" ++ k.1.name ++ "/" ++ k.2.name)

/-! ## Files -/

/-- An instance of `UserRole`, with its privileges in the order of `pairs`. -/
structure RoleInstance where
  id : Setting RoleType
  enabledStatus : Setting Bool
  privileges : List (PrivilegeType × Setting Bool)

section Import

variable (e : Env)

/-- The part of `import_precheck` for one instance. -/
def precheckInstance (x : RoleInstance) : Prog ProfileErr RoleSystem Unit := do
  let sys ← get
  onlyIf (x.id.imported && IsExtended x.id.value.value) (
    if x.enabledStatus.value = false then do
      let sys ← outcome ((sys.deleteRole e x.id.value.value).mapError .role)
      set sys
    else
      onlyIf (sys.roles x.id.value.value).isNone (do
        let sys ← outcome ((sys.newRole x.id.value.value ["ReadOnly", "ConfigureSelf"] []).mapError
          .role)
        set sys))

/-- `import_precheck`. -/
def importPrecheck (l : List RoleInstance) : Prog ProfileErr RoleSystem Unit :=
  l.forM (precheckInstance e)

/-- `import_filter`: the extended roles that are disabled are left out. -/
def importFilter (l : List RoleInstance) : List RoleInstance :=
  l.filter fun x => !IsExtended x.id.value.value || x.enabledStatus.value

/-- The part of `import_handle` for one instance. -/
def importInstance (x : RoleInstance) : Prog ProfileErr RoleSystem Unit := do
  let sys ← get
  onlyIf x.id.imported (do
    refuse (sys.roles x.id.value.value).isNone
      (.collectingConfiguration ("/UserRole/" ++ x.id.value.name ++ "/Id"))
    (userRoleAdapter e).importAll (x.privileges.map fun y => ((x.id.value, y.1), y.2)))

/-- `on_import` of a file with roles only. -/
def importRoles (l : List RoleInstance) : Prog ProfileErr RoleSystem Unit := do
  importPrecheck e l
  (importFilter l).forM (importInstance e)

end Import

section Export

variable (e : Env) (sys : RoleSystem) (order : RoleType → List PrivilegeType)

/-- The instance of a role, as a file has it. -/
def RoleSystem.exportInstance (r : RoleType) : RoleInstance where
  id := ⟨true, r⟩
  enabledStatus := ⟨true, true⟩
  privileges := (order r).filterMap fun p =>
    ((userRoleAdapter e).exports sys (r, p)).map fun v => (p, ⟨true, v⟩)

/-- `on_export` of the roles: an instance for each role that is there. -/
def RoleSystem.exportRoles : List RoleInstance :=
  roleInstanceIds.filterMap fun r =>
    (sys.roles r.value).map fun _ => sys.exportInstance e order r

end Export

/-! ## What cannot be changed -/

/-- The privileges of a role that cannot be changed. -/
def RoleData.fixed (d : RoleData) : Bool × Bool × Bool :=
  (d .userMgmt, d .readOnly, d .configureSelf)

theorem RoleData.eq_of_fixed {d d' : RoleData} (h : d.fixed = d'.fixed) {p : PrivilegeType}
    (hp : unalterablePriv p = true) :
  d p = d' p
  := by
  simp only [fixed, Prod.mk.injEq] at h
  obtain ⟨huser, hread, hself⟩ := h
  cases p with
  | userMgmt => exact huser
  | readOnly => exact hread
  | configureSelf => exact hself
  | _ => cases hp

theorem RoleData.fixed_update (d : RoleData) {p : PrivilegeType} (hp : unalterablePriv p = false)
    (value : Bool) :
  RoleData.fixed (Function.update d p value) = d.fixed
  := by
  have hne : ∀ q, unalterablePriv q = true → q ≠ p := by
    rintro q hq rfl
    rw [hq] at hp
    cases hp
  unfold fixed
  rw [Function.update_of_ne (hne _ rfl), Function.update_of_ne (hne _ rfl),
    Function.update_of_ne (hne _ rfl)]

/-- The roles come from the given ones by what can be changed of them. -/
structure RoleSystem.Standard (roles₀ : Roles) (sys : RoleSystem) : Prop where
  builtin : ∀ r, r ≤ RoleType.administrator.value → sys.roles r = roles₀ r
  fixed : ∀ r, ¬ IsExtended r → (sys.roles r).map RoleData.fixed = (roles₀ r).map RoleData.fixed
  extended : ∀ r, IsExtended r → ∀ d ∈ sys.roles r, RoleData.fixed d = (false, true, true)

theorem RoleData.grant_apply {tab : List (String × PrivilegeType)} {property : String}
    {names : List String} {r r' : RoleData} (h : r.grant tab property names = .ok r')
    {p : PrivilegeType} (hp : p ∉ tab.map Prod.snd) :
  r' p = r p
  := by
  induction names generalizing r with
  | nil =>
    cases h
    rfl
  | cons name names ih =>
    unfold grant at h
    rw [List.foldlM_cons] at h
    cases hname : tab.lookup name with
    | none =>
      rw [hname] at h
      cases h
    | some q =>
      rw [hname] at h
      have hq : p ≠ q := by
        rintro rfl
        obtain ⟨l₁, l₂, rfl, -⟩ := List.lookup_eq_some_iff.mp hname
        exact hp (List.mem_map_of_mem (List.mem_append_right l₁ List.mem_cons_self))
      rw [ih h, Function.update_of_ne hq]

namespace RoleSystem

variable {roles₀ : Roles} {sys sys' : RoleSystem}

/-- The accounts do not matter. -/
theorem Standard.congr (h : sys.Standard roles₀) (hroles : sys'.roles = sys.roles) :
  sys'.Standard roles₀
  := by
  obtain ⟨hbuiltin, hfixed, hextended⟩ := h
  rw [← hroles] at hbuiltin hfixed hextended
  exact ⟨hbuiltin, hfixed, hextended⟩

/-- An extended role may be removed, or replaced. -/
theorem Standard.update (h : sys.Standard roles₀) {r : ℕ} (hr : IsExtended r) {d : Option RoleData}
    (hd : ∀ d' ∈ d, RoleData.fixed d' = (false, true, true))
    (hroles : sys'.roles = Function.update sys.roles r d) :
  sys'.Standard roles₀
  := by
  have hne : ∀ {r'}, ¬ IsExtended r' → sys'.roles r' = sys.roles r' := by
    intro r' hr'
    rw [hroles]
    apply Function.update_of_ne
    rintro rfl
    exact hr' hr
  refine ⟨?_, ?_, ?_⟩
  · intro r' hr'
    rw [hne, h.builtin r' hr']
    rintro ⟨hle, -⟩
    exact absurd (hle.trans hr') (by decide)
  · intro r' hr'
    rw [hne hr', h.fixed r' hr']
  · intro r' hr' d' hd'
    rw [hroles] at hd'
    by_cases heq : r' = r
    · subst heq
      rw [Function.update_self] at hd'
      exact hd d' hd'
    · rw [Function.update_of_ne heq] at hd'
      exact h.extended r' hr' d' hd'

/-- What `new_role` makes of the table. -/
theorem roles_newRole {roleId : ℕ} {assignedPrivs oemPrivs : List String}
    (h : sys.newRole roleId assignedPrivs oemPrivs = .ok sys') :
  IsExtended roleId ∧ ∃ d : RoleData, d.fixed = (false, true, true)
    ∧ sys'.roles = Function.update sys.roles roleId (some d)
  := by
  unfold newRole at h
  simp only [bind, Except.bind, pure, Except.pure, throw, throwThe, MonadExceptOf.throw] at h
  repeat' split at h
  all_goals cases h
  next hext _ _ d₁ hassigned _ d hoem hbasic =>
    have huser : d .userMgmt = false := by
      rw [RoleData.grant_apply hoem (by decide), RoleData.grant_apply hassigned (by decide)]
    rw [Bool.not_eq_true, Bool.not_eq_false', Bool.and_eq_true] at hbasic
    refine ⟨not_not.mp hext, d, ?_, rfl⟩
    rw [RoleData.fixed, huser, hbasic.1, hbasic.2]

theorem standard_newRole (h : sys.Standard roles₀) {roleId : ℕ}
    {assignedPrivs oemPrivs : List String}
    (hnew : sys.newRole roleId assignedPrivs oemPrivs = .ok sys') :
  sys'.Standard roles₀
  := by
  obtain ⟨hext, d, hd, hroles⟩ := roles_newRole hnew
  apply h.update hext _ hroles
  rintro d' ⟨⟩
  exact hd

theorem standard_removeRole (h : sys.Standard roles₀) (e : Env) {roleId : ℕ}
    (hext : IsExtended roleId) :
  (sys.removeRole e roleId).Standard roles₀
  := by
  have hnone : ∀ d' ∈ (none : Option RoleData), RoleData.fixed d' = (false, true, true) := by
    rintro d' ⟨⟩
  exact h.update hext hnone rfl

theorem standard_deleteRole (h : sys.Standard roles₀) {e : Env} {roleId : ℕ}
    (hdelete : sys.deleteRole e roleId = .ok sys') :
  sys'.Standard roles₀
  := by
  obtain ⟨henabled, hpresent, hext⟩ := accepted_of_deleteRole_eq_ok hdelete
  have hremove : sys.deleteRole e roleId = .ok (sys.removeRole e roleId) := by
    unfold deleteRole
    simp [henabled, Option.isSome_iff_ne_none.mp hpresent, hext, pure, Except.pure]
  obtain rfl := Except.ok.inj (hremove.symm.trans hdelete)
  exact standard_removeRole h e hext

theorem standard_clearExtendedCustomRole (h : sys.Standard roles₀) (e : Env) :
  (sys.clearExtendedCustomRole e).Standard roles₀
  := by
  unfold clearExtendedCustomRole
  have hext : ∀ r ∈ List.range' 9 12, IsExtended r := by
    intro r hr
    rw [List.mem_range'_1] at hr
    unfold IsExtended
    omega
  generalize List.range' 9 12 = l at hext
  induction l generalizing sys with
  | nil => exact h
  | cons r l ih =>
    rw [List.foldl_cons]
    apply ih _ fun r' hr' => hext r' (List.mem_cons_of_mem r hr')
    split
    · exact standard_removeRole h e (hext r List.mem_cons_self)
    · exact h

/-- What `set_role_privilege` changes: a privilege of a custom role that can be changed. -/
theorem setRolePrivilege_eq_some {r : ℕ} {p : Option PrivilegeType} {value : Bool}
    {roles roles' : Roles} (h : setRolePrivilege r p value roles = .ok (some roles')) :
  ∃ d q, roles r = some d ∧ p = some q ∧ unalterablePriv q = false
    ∧ RoleType.administrator.value < r
    ∧ roles' = Function.update roles r (some (Function.update d q value))
  := by
  unfold setRolePrivilege at h
  cases hd : roles r with
  | none =>
    rw [hd] at h
    cases h
  | some d =>
    cases p with
    | none =>
      rw [hd] at h
      cases h
    | some q =>
      rw [hd] at h
      dsimp only at h
      split_ifs at h with hq hvalue
      · cases h
      · unfold setPrivilege at h
        split_ifs at h with hr
        · cases h
        · cases h
          exact ⟨d, q, rfl, rfl, Bool.eq_false_iff.mpr hq, not_le.mp hr, rfl⟩

theorem standard_setRolePrivilege (h : sys.Standard roles₀) {r : ℕ} {p : Option PrivilegeType}
    {value : Bool} {roles : Roles} (hset : setRolePrivilege r p value sys.roles = .ok (some roles))
    (hroles : sys'.roles = roles) :
  sys'.Standard roles₀
  := by
  obtain ⟨d, q, hd, -, hq, hr, rfl⟩ := setRolePrivilege_eq_some hset
  have hfixed := d.fixed_update hq value
  refine ⟨?_, ?_, ?_⟩
  · intro r' hr'
    rw [hroles, Function.update_of_ne (hr'.trans_lt hr).ne, h.builtin r' hr']
  · intro r' hr'
    rw [hroles, ← h.fixed r' hr']
    by_cases heq : r' = r
    · subst heq
      rw [Function.update_self, hd, Option.map_some, Option.map_some, hfixed]
    · rw [Function.update_of_ne heq]
  · intro r' hr' d' hd'
    rw [hroles] at hd'
    by_cases heq : r' = r
    · subst heq
      rw [Function.update_self] at hd'
      cases hd'
      rw [hfixed]
      exact h.extended r' hr' d hd
    · rw [Function.update_of_ne heq] at hd'
      exact h.extended r' hr' d' hd'

theorem standard_changePrivilege (h : sys.Standard roles₀) {e : Env} {r : ℕ}
    {p : Option PrivilegeType} {value : Bool} (hset : sys.changePrivilege e r p value = .ok sys') :
  sys'.Standard roles₀
  := by
  unfold changePrivilege at hset
  cases hroles : setRolePrivilege r p value sys.roles with
  | error err =>
    rw [hroles] at hset
    cases hset
  | ok roles =>
    rw [hroles] at hset
    cases roles with
    | none =>
      cases hset
      exact h
    | some roles =>
      cases hset
      exact standard_setRolePrivilege h hroles rfl

end RoleSystem

/-! ## Importing a file of another controller -/

theorem exports_userRoleAdapter (e : Env) (sys : RoleSystem) (r : RoleType) (p : PrivilegeType) :
  (userRoleAdapter e).exports sys (r, p) = (sys.roles r.value).map fun d => d p
  := by
  cases p <;> rfl

theorem imports_userRoleAdapter (e : Env) (r : RoleType) (p : PrivilegeType) (value : Bool) :
  (userRoleAdapter e).imports (r, p) value
    = if unalterablePriv p = true then pure () else importPrivilege p e r value
  := by
  cases p <;> rfl

/-- The roles that the file has are there, and are those of the file but for what can be changed. -/
def RoleSystem.Ready (roles : Roles) (sys : RoleSystem) : Prop :=
  ∀ r d, roles r = some d → ∃ d', sys.roles r = some d' ∧ d'.fixed = d.fixed
    ∧ (r ≤ RoleType.administrator.value → d' = d)

/-- Each of their privileges can then be given its value. -/
theorem takes_userRoleAdapter (e : Env) {roles : Roles} {r : RoleType} {d : RoleData}
    (hd : roles r.value = some d) (p : PrivilegeType) :
  (userRoleAdapter e).Takes (RoleSystem.Ready roles) (r, p) (d p)
  := by
  intro sys hready hvalue
  obtain ⟨d', hd', hfixed, hbuiltin⟩ := hready r.value d hd
  rw [exports_userRoleAdapter, hd', Option.map_some] at hvalue
  have hchange : d' p ≠ d p := fun h => hvalue (congrArg some h)
  have halterable : unalterablePriv p = false := by
    rw [← Bool.not_eq_true]
    intro hp
    exact hchange (RoleData.eq_of_fixed hfixed hp)
  have hcustom : ¬ r.value ≤ RoleType.administrator.value := by
    intro hr
    rw [hbuiltin hr] at hchange
    exact hchange rfl
  have hset : setRolePrivilege r.value (some p) (d p) sys.roles
      = .ok (some (Function.update sys.roles r.value (some (Function.update d' p (d p))))) := by
    unfold setRolePrivilege BmcAccount.setPrivilege
    rw [hd']
    simp [halterable, hchange, hcustom, Except.map]
  obtain ⟨sys', hsys', hroles⟩ : ∃ sys', exec (importPrivilege p e r (d p)) sys = (.ok (), sys')
      ∧ sys'.roles = Function.update sys.roles r.value (some (Function.update d' p (d p))) := by
    unfold importPrivilege RoleSystem.changePrivilege
    rw [exec_bind_ok (exec_get sys), hset]
    exact ⟨_, rfl, rfl⟩
  refine ⟨sys', ?_, ?_, ?_⟩
  · rw [imports_userRoleAdapter, halterable, if_neg Bool.false_ne_true]
    exact hsys'
  · intro r' d₁ hd₁
    rw [hroles]
    by_cases heq : r' = r.value
    · subst heq
      rw [hd] at hd₁
      cases hd₁
      rw [Function.update_self]
      refine ⟨_, rfl, ?_, fun hr => absurd hr hcustom⟩
      rw [d'.fixed_update halterable, hfixed]
    · rw [Function.update_of_ne heq]
      exact hready r' d₁ hd₁
  · funext k
    obtain ⟨r', p'⟩ := k
    rw [exports_userRoleAdapter, hroles]
    by_cases heq : r' = r
    · subst heq
      rw [Function.update_self, Option.map_some]
      by_cases hp : p' = p
      · subst hp
        rw [Function.update_self, Function.update_self]
      · have hk : (r', p') ≠ (r', p) := fun hk => hp (Prod.mk.inj hk).2
        rw [Function.update_of_ne hp, Function.update_of_ne hk, exports_userRoleAdapter, hd',
          Option.map_some]
    · have hk : (r', p') ≠ (r, p) := fun hk => heq (Prod.mk.inj hk).1
      have hvalue' : r'.value ≠ r.value := fun h => heq (RoleType.value_injective h)
      rw [Function.update_of_ne hvalue', Function.update_of_ne hk, exports_userRoleAdapter]

/-! ### The instances -/

/-- The entries of an instance. -/
def RoleInstance.entries (x : RoleInstance) : List ((RoleType × PrivilegeType) × Setting Bool) :=
  x.privileges.map fun y => ((x.id.value, y.1), y.2)

/-- The instances are those of a file that has been exported of the roles. -/
def RoleInstance.IsOf (roles : Roles) (x : RoleInstance) : Prop :=
  x.id.imported = true ∧ x.enabledStatus.value = true
    ∧ ∃ d, roles x.id.value.value = some d ∧ ∀ y ∈ x.privileges, y.2.value = d y.1

theorem importFilter_of_isOf {roles : Roles} {l : List RoleInstance} (hl : ∀ x ∈ l, x.IsOf roles) :
  importFilter l = l
  := by
  unfold importFilter
  rw [List.filter_eq_self]
  intro x hx
  rw [(hl x hx).2.1, Bool.or_true]

/-- A missing role can be created with the privileges that every role has. -/
theorem newRole_eq_ok_of_missing {sys : RoleSystem} {r : ℕ}
    (henabled : sys.extendedCustomRoleEnabled = true) (hext : IsExtended r)
    (hmissing : sys.roles r = none) :
  ∃ sys', sys.newRole r ["ReadOnly", "ConfigureSelf"] [] = .ok sys'
    ∧ sys'.extendedCustomRoleEnabled = true
  := by
  have hassigned : RoleData.grant assignedPrivTab "AssignedPrivileges"
      ["ReadOnly", "ConfigureSelf"] (fun _ => false)
      = .ok (Function.update (Function.update (fun _ => false) .readOnly true) .configureSelf true)
    := rfl
  unfold RoleSystem.newRole
  simp only [henabled, hext, hmissing, hassigned]
  exact ⟨_, rfl, rfl⟩

/-- An extended role that is missing is created. -/
theorem exec_precheckInstance (e : Env) {roles₀ roles : Roles} {x : RoleInstance}
    (hx : x.IsOf roles) {sys : RoleSystem} (henabled : sys.extendedCustomRoleEnabled = true)
    (hstd : sys.Standard roles₀) :
  ∃ sys', exec (precheckInstance e x) sys = (.ok (), sys')
    ∧ sys'.extendedCustomRoleEnabled = true ∧ sys'.Standard roles₀
    ∧ (IsExtended x.id.value.value → (sys'.roles x.id.value.value).isSome = true)
    ∧ ∀ r, r ≠ x.id.value.value ∨ (sys.roles r).isSome = true → sys'.roles r = sys.roles r
  := by
  obtain ⟨himported, hstatus, -⟩ := hx
  unfold precheckInstance
  rw [exec_bind_ok (exec_get sys), himported, Bool.true_and, hstatus,
    if_neg Bool.false_ne_true.symm]
  by_cases hext : IsExtended x.id.value.value
  · rw [decide_eq_true hext]
    cases hrole : sys.roles x.id.value.value with
    | some d =>
      have hpresent : (sys.roles x.id.value.value).isSome = true := by
        rw [hrole, Option.isSome_some]
      exact ⟨sys, rfl, henabled, hstd, fun _ => hpresent, fun _ _ => rfl⟩
    | none =>
      obtain ⟨sys', hnew, henabled'⟩ := newRole_eq_ok_of_missing henabled hext hrole
      obtain ⟨-, d, -, hroles⟩ := RoleSystem.roles_newRole hnew
      refine ⟨sys', ?_, henabled', RoleSystem.standard_newRole hstd hnew, ?_, ?_⟩
      · change exec (outcome ((sys.newRole _ _ _).mapError ProfileErr.role)
          >>= fun sys => set sys) sys = _
        rw [hnew]
        rfl
      · intro _
        rw [hroles, Function.update_self, Option.isSome_some]
      · rintro r (hr | hr)
        · rw [hroles, Function.update_of_ne hr]
        · rw [hroles, Function.update_of_ne]
          rintro rfl
          rw [hrole] at hr
          cases hr
  · refine ⟨sys, ?_, henabled, hstd, fun h => absurd h hext, fun _ _ => rfl⟩
    rw [decide_eq_false hext, exec_onlyIf_false]

/-- The extended roles of the file are there afterwards, and roles that were there are the same. -/
theorem exec_importPrecheck (e : Env) {roles₀ roles : Roles} {l : List RoleInstance}
    (hl : ∀ x ∈ l, x.IsOf roles) {sys : RoleSystem}
    (henabled : sys.extendedCustomRoleEnabled = true) (hstd : sys.Standard roles₀) :
  ∃ sys', exec (importPrecheck e l) sys = (.ok (), sys') ∧ sys'.Standard roles₀
    ∧ (∀ x ∈ l, IsExtended x.id.value.value → (sys'.roles x.id.value.value).isSome = true)
    ∧ ∀ r, (∀ x ∈ l, r ≠ x.id.value.value) ∨ (sys.roles r).isSome = true →
      sys'.roles r = sys.roles r
  := by
  induction l generalizing sys with
  | nil => exact ⟨sys, rfl, hstd, fun x hx => absurd hx List.not_mem_nil, fun _ _ => rfl⟩
  | cons x l ih =>
    obtain ⟨sys₁, hexec₁, henabled₁, hstd₁, hext₁, hsame₁⟩ :=
      exec_precheckInstance e (hl x List.mem_cons_self) henabled hstd
    obtain ⟨sys₂, hexec₂, hstd₂, hext₂, hsame₂⟩ :=
      ih (fun y hy => hl y (List.mem_cons_of_mem x hy)) henabled₁ hstd₁
    refine ⟨sys₂, ?_, hstd₂, ?_, ?_⟩
    · unfold importPrecheck at hexec₂ ⊢
      rw [exec_forM_cons, exec_bind_ok hexec₁, hexec₂]
    · intro y hy hext
      rcases List.mem_cons.mp hy with rfl | hy
      · rw [hsame₂ _ (Or.inr (hext₁ hext))]
        exact hext₁ hext
      · exact hext₂ y hy hext
    · rintro r (hr | hr)
      · have hfirst := hsame₁ r (Or.inl (hr x List.mem_cons_self))
        have hrest := hsame₂ r (Or.inl fun y hy => hr y (List.mem_cons_of_mem x hy))
        rw [hrest, hfirst]
      · have hfirst := hsame₁ r (Or.inr hr)
        rw [hsame₂ r (Or.inr (by rw [hfirst]; exact hr)), hfirst]

/-- The instances are laid over the roles. -/
theorem exec_importInstances (e : Env) {roles : Roles} {l : List RoleInstance}
    (hl : ∀ x ∈ l, x.IsOf roles) {sys : RoleSystem} (hready : sys.Ready roles) :
  ∃ sys', exec (l.forM (importInstance e)) sys = (.ok (), sys')
    ∧ (userRoleAdapter e).exports sys'
      = overlay ((userRoleAdapter e).exports sys) (l.flatMap RoleInstance.entries)
  := by
  induction l generalizing sys with
  | nil => exact ⟨sys, rfl, rfl⟩
  | cons x l ih =>
    obtain ⟨himported, -, d, hd, hvalues⟩ := hl x List.mem_cons_self
    obtain ⟨d', hd', -⟩ := hready _ d hd
    have htakes : ∀ y ∈ x.entries, y.2.imported = true →
        (userRoleAdapter e).Takes (RoleSystem.Ready roles) y.1 y.2.value := by
      intro y hy _
      obtain ⟨z, hz, rfl⟩ := List.mem_map.mp hy
      rw [hvalues z hz]
      exact takes_userRoleAdapter e hd z.1
    obtain ⟨sys₁, hexec₁, hready₁, hexports₁⟩ := Adapter.exec_importAll htakes hready
    obtain ⟨sys₂, hexec₂, hexports₂⟩ := ih (fun y hy => hl y (List.mem_cons_of_mem x hy)) hready₁
    have hfirst : exec (importInstance e x) sys = (.ok (), sys₁) := by
      unfold importInstance
      rw [exec_bind_ok (exec_get sys), himported, hd', Option.isNone_some]
      exact hexec₁
    refine ⟨sys₂, ?_, ?_⟩
    · rw [exec_forM_cons, exec_bind_ok hfirst, hexec₂]
    · rw [hexports₂, hexports₁, List.flatMap_cons, overlay_append]

/-! ### The file -/

theorem mem_exportRoles {e : Env} {sys : RoleSystem} {order : RoleType → List PrivilegeType}
    {x : RoleInstance} (hx : x ∈ sys.exportRoles e order) :
  ∃ d, sys.roles x.id.value.value = some d ∧ x.id.imported = true ∧ x.enabledStatus.value = true
    ∧ x.privileges = (order x.id.value).map fun p => (p, ⟨true, d p⟩)
  := by
  obtain ⟨r, -, hr⟩ := List.mem_filterMap.mp hx
  obtain ⟨d, hd, rfl⟩ := Option.map_eq_some_iff.mp hr
  refine ⟨d, hd, rfl, rfl, ?_⟩
  unfold RoleSystem.exportInstance
  rw [← List.filterMap_eq_map']
  apply List.filterMap_congr
  intro p _
  rw [exports_userRoleAdapter, hd, Option.map_some, Option.map_some]

theorem isOf_of_mem_exportRoles {e : Env} {sys : RoleSystem}
    {order : RoleType → List PrivilegeType} {x : RoleInstance} (hx : x ∈ sys.exportRoles e order) :
  x.IsOf sys.roles
  := by
  obtain ⟨d, hd, himported, hstatus, hprivileges⟩ := mem_exportRoles hx
  refine ⟨himported, hstatus, d, hd, fun y hy => ?_⟩
  rw [hprivileges] at hy
  obtain ⟨p, -, rfl⟩ := List.mem_map.mp hy
  rfl

theorem exists_mem_exportRoles (e : Env) {sys : RoleSystem} (order : RoleType → List PrivilegeType)
    {r : RoleType} {d : RoleData} (hd : sys.roles r.value = some d) :
  ∃ x ∈ sys.exportRoles e order, x.id.value = r
  := by
  refine ⟨sys.exportInstance e order r, List.mem_filterMap.mpr ⟨r, mem_roleInstanceIds r, ?_⟩, rfl⟩
  rw [hd, Option.map_some]

/-- What the file is laid over, it makes what it is where the file comes from. -/
theorem overlay_exportRoles (e : Env) {sys : RoleSystem} {order : RoleType → List PrivilegeType}
    (horder : ∀ r p, p ∈ order r) (f : RoleType × PrivilegeType → Option Bool) (r : RoleType)
    (p : PrivilegeType) :
  overlay f ((sys.exportRoles e order).flatMap RoleInstance.entries) (r, p)
    = ((userRoleAdapter e).exports sys (r, p)).or (f (r, p))
  := by
  have hentry : ∀ y ∈ (sys.exportRoles e order).flatMap RoleInstance.entries,
      y.2.imported = true ∧ some y.2.value = (userRoleAdapter e).exports sys y.1 := by
    intro y hy
    obtain ⟨x, hx, hy⟩ := List.mem_flatMap.mp hy
    obtain ⟨d, hd, -, -, hprivileges⟩ := mem_exportRoles hx
    unfold RoleInstance.entries at hy
    rw [hprivileges, List.map_map] at hy
    obtain ⟨q, -, rfl⟩ := List.mem_map.mp hy
    refine ⟨rfl, ?_⟩
    change some (d q) = (userRoleAdapter e).exports sys (x.id.value, q)
    rw [exports_userRoleAdapter, hd, Option.map_some]
  have hvalue : ∀ y ∈ (sys.exportRoles e order).flatMap RoleInstance.entries, y.1 = (r, p) →
      y.2.imported = true → some y.2.value = (userRoleAdapter e).exports sys (r, p) := by
    intro y hy hkey _
    rw [(hentry y hy).2, hkey]
  rw [overlay_apply hvalue]
  cases hd : sys.roles r.value with
  | none =>
    have hnone : (userRoleAdapter e).exports sys (r, p) = none := by
      rw [exports_userRoleAdapter, hd, Option.map_none]
    rw [if_neg, hnone, Option.none_or]
    rintro ⟨y, hy, hkey, himported⟩
    have hsome := hvalue y hy hkey himported
    rw [hnone] at hsome
    cases hsome
  | some d =>
    obtain ⟨x, hx, rfl⟩ := exists_mem_exportRoles e order hd
    obtain ⟨d', hd', -, -, hprivileges⟩ := mem_exportRoles hx
    rw [if_pos, exports_userRoleAdapter, hd, Option.map_some, Option.some_or]
    refine ⟨((x.id.value, p), ⟨true, d' p⟩), List.mem_flatMap.mpr ⟨x, hx, ?_⟩, rfl, rfl⟩
    unfold RoleInstance.entries
    rw [hprivileges, List.map_map]
    exact List.mem_map.mpr ⟨p, horder _ p, rfl⟩

theorem eq_of_privileges {o o' : Option RoleData} (h : ∀ p, o.map (· p) = o'.map (· p)) :
  o = o'
  := by
  cases o with
  | none =>
    cases o' with
    | none => rfl
    | some d' => cases h .userMgmt
  | some d =>
    cases o' with
    | none => cases h .userMgmt
    | some d' => exact congrArg some (funext fun p => Option.some.inj (h p))

theorem RoleType.exists_value_eq {r : ℕ} (h : IsExtended r) :
  ∃ t : RoleType, t.value = r
  := by
  obtain ⟨hmin, hmax⟩ := h
  refine ⟨.customRole ⟨r - 5, by omega⟩, ?_⟩
  change 5 + (r - 5) = r
  omega

/-- Once the missing roles are created, the file can be imported. -/
theorem ready_of_standard {roles₀ : Roles} {sys there : RoleSystem} (hstd : sys.Standard roles₀)
    (hthere : there.Standard roles₀)
    (hext : ∀ r, IsExtended r → (there.roles r).isSome = true → (sys.roles r).isSome = true) :
  sys.Ready there.roles
  := by
  intro r d hd
  by_cases hr : IsExtended r
  · obtain ⟨d', hd'⟩ := Option.isSome_iff_exists.mp (hext r hr (by rw [hd, Option.isSome_some]))
    refine ⟨d', hd', ?_, fun hle => absurd (hr.1.trans hle) (by decide)⟩
    rw [hstd.extended r hr d' hd', hthere.extended r hr d hd]
  · have hfixed : (sys.roles r).map RoleData.fixed = some d.fixed := by
      rw [hstd.fixed r hr, ← hthere.fixed r hr, hd, Option.map_some]
    obtain ⟨d', hd', heq⟩ := Option.map_eq_some_iff.mp hfixed
    refine ⟨d', hd', heq, fun hle => ?_⟩
    have hsame : some d' = some d := by
      rw [← hd', ← hd, hstd.builtin r hle, hthere.builtin r hle]
    exact Option.some.inj hsame

/-- The file of other roles makes the roles what they are there, if both come from the same ones. -/
theorem exec_importRoles (e : Env) {roles₀ : Roles} {sys there : RoleSystem}
    (hstd : sys.Standard roles₀) (hthere : there.Standard roles₀)
    (henabled : sys.extendedCustomRoleEnabled = true) {order : RoleType → List PrivilegeType}
    (horder : ∀ r p, p ∈ order r) :
  ∃ sys', exec (importRoles e (there.exportRoles e order)) sys = (.ok (), sys')
    ∧ ∀ r : RoleType, sys'.roles r.value = (there.roles r.value).or (sys.roles r.value)
  := by
  have hl : ∀ x ∈ there.exportRoles e order, x.IsOf there.roles :=
    fun x hx => isOf_of_mem_exportRoles hx
  obtain ⟨sys₁, hexec₁, hstd₁, hext₁, hsame₁⟩ := exec_importPrecheck e hl henabled hstd
  have hready : sys₁.Ready there.roles := by
    apply ready_of_standard hstd₁ hthere
    intro r hr hsome
    obtain ⟨t, rfl⟩ := RoleType.exists_value_eq hr
    obtain ⟨d, hd⟩ := Option.isSome_iff_exists.mp hsome
    obtain ⟨x, hx, rfl⟩ := exists_mem_exportRoles e order hd
    exact hext₁ x hx hr
  obtain ⟨sys₂, hexec₂, hexports₂⟩ := exec_importInstances e hl hready
  refine ⟨sys₂, ?_, fun r => ?_⟩
  · unfold importRoles
    rw [exec_bind_ok hexec₁, importFilter_of_isOf hl, hexec₂]
  · apply eq_of_privileges
    intro p
    have hvalue := congrFun hexports₂ (r, p)
    rw [overlay_exportRoles e horder] at hvalue
    simp only [exports_userRoleAdapter] at hvalue
    rw [hvalue]
    cases hd : there.roles r.value with
    | none =>
      have hsame : sys₁.roles r.value = sys.roles r.value := by
        refine hsame₁ _ (Or.inl fun x hx heq => ?_)
        obtain ⟨d, hd', -⟩ := mem_exportRoles hx
        rw [← heq, hd] at hd'
        cases hd'
      rw [Option.map_none, Option.none_or, Option.none_or, hsame]
    | some d => rfl

/-! ## Runs -/

/-- The operations on the roles. -/
inductive RoleTableOp where
  | role (c : RoleCall)
  | setRolePrivilege (e : Env) (roleId : ℕ) (p : Option PrivilegeType) (value : Bool)
  | setExtendedCustomRoleEnabled (e : Env) (value : Bool)
  | importRoles (e : Env) (l : List RoleInstance)

/-- `watch_property_hook`: to disable the extended roles is to clear them. -/
def RoleSystem.setExtendedCustomRoleEnabled (e : Env) (sys : RoleSystem) (value : Bool) :
    RoleSystem :=
  let sys := { sys with extendedCustomRoleEnabled := value }
  if value = false then sys.clearExtendedCustomRole e else sys

/-- The state after an operation, whether it returns or raises. -/
def RoleSystem.afterOp (sys : RoleSystem) : RoleTableOp → RoleSystem
  | .role c => sys.step c
  | .setRolePrivilege e roleId p value => (sys.changePrivilege e roleId p value).toOption.getD sys
  | .setExtendedCustomRoleEnabled e value => sys.setExtendedCustomRoleEnabled e value
  | .importRoles e l => after (BmcAccount.importRoles e l) sys

section Runs

variable {roles₀ : Roles}

/-- The system is set to what is computed of it, or an error is raised. -/
theorem keeps_outcome_set {x : RoleSystem → Except ProfileErr RoleSystem}
    {I : RoleSystem → Prop} (h : ∀ sys sys', I sys → x sys = .ok sys' → I sys') {sys : RoleSystem}
    (hsys : I sys) :
  Spec (· = sys) (outcome (x sys) >>= fun sys => set sys) (fun _ => I) I
  := by
  apply Spec.outcome_bind
  · rintro _ rfl
    exact hsys
  · rintro sys' hsys' _ rfl
    exact h _ _ hsys hsys'

theorem mapError_eq_ok {ε ε' α : Type} {f : ε → ε'} {x : Except ε α} {a : α}
    (h : x.mapError f = .ok a) :
  x = .ok a
  := by
  cases x with
  | error e => cases h
  | ok a' =>
    cases h
    rfl

theorem keeps_importPrivilege (p : PrivilegeType) (e : Env) (r : RoleType) (value : Bool) :
  Keeps (RoleSystem.Standard roles₀) (importPrivilege p e r value)
  := by
  apply keeps_get_bind
  intro sys hsys
  apply keeps_outcome_set
    (x := fun sys => (sys.changePrivilege e r.value (some p) value).mapError .account) _ hsys
  intro sys sys' h hset
  exact RoleSystem.standard_changePrivilege h (mapError_eq_ok hset)

theorem keeps_precheckInstance (e : Env) (x : RoleInstance) :
  Keeps (RoleSystem.Standard roles₀) (precheckInstance e x)
  := by
  apply keeps_get_bind
  intro sys hsys
  have hpure : ∀ sys', sys' = sys → RoleSystem.Standard roles₀ sys' := by
    rintro _ rfl
    exact hsys
  apply Spec.onlyIf (fun _ => _) fun _ => hpure
  intro _
  apply Spec.ite
  · intro _
    apply keeps_outcome_set (x := fun sys => (sys.deleteRole e x.id.value.value).mapError .role) _
      hsys
    intro sys sys' h hdelete
    exact RoleSystem.standard_deleteRole h (mapError_eq_ok hdelete)
  · intro _
    apply Spec.onlyIf (fun _ => _) fun _ => hpure
    intro _
    apply keeps_outcome_set (x := fun sys =>
      (sys.newRole x.id.value.value ["ReadOnly", "ConfigureSelf"] []).mapError .role) _ hsys
    intro sys sys' h hnew
    exact RoleSystem.standard_newRole h (mapError_eq_ok hnew)

theorem keeps_importInstance (e : Env) (x : RoleInstance) :
  Keeps (RoleSystem.Standard roles₀) (importInstance e x)
  := by
  apply keeps_get_bind
  intro sys hsys
  have hkeeps : Keeps (RoleSystem.Standard roles₀)
      ((userRoleAdapter e).importAll (x.privileges.map fun y => ((x.id.value, y.1), y.2))) := by
    apply Adapter.keeps_importAll
    intro y _
    rw [imports_userRoleAdapter]
    exact Keeps.ite Keeps.pure (keeps_importPrivilege y.1.2 e y.1.1 y.2.value)
  have hbody := (Keeps.refuse (I := RoleSystem.Standard roles₀)
    (b := (sys.roles x.id.value.value).isNone)
    (e := ProfileErr.collectingConfiguration ("/UserRole/" ++ x.id.value.name ++ "/Id"))).bind
      fun _ => hkeeps
  intro sys' hsys'
  subst hsys'
  exact (Keeps.onlyIf (c := x.id.imported) hbody) _ hsys

theorem keeps_importRoles (e : Env) (l : List RoleInstance) :
  Keeps (RoleSystem.Standard roles₀) (importRoles e l)
  := by
  apply Keeps.bind
  · exact Keeps.forM fun x _ => keeps_precheckInstance e x
  · intro _
    exact Keeps.forM fun x _ => keeps_importInstance e x

theorem standard_afterOp {sys : RoleSystem} (h : sys.Standard roles₀) (op : RoleTableOp) :
  (sys.afterOp op).Standard roles₀
  := by
  cases op with
  | role c =>
    obtain ⟨e, op⟩ := c
    cases op with
    | newRole roleId assignedPrivs oemPrivs =>
      change RoleSystem.Standard _ ((sys.newRole roleId assignedPrivs oemPrivs).toOption.getD sys)
      cases hnew : sys.newRole roleId assignedPrivs oemPrivs with
      | error err => exact h
      | ok sys' => exact RoleSystem.standard_newRole h hnew
    | deleteRole roleId =>
      change RoleSystem.Standard _ ((sys.deleteRole e roleId).toOption.getD sys)
      cases hdelete : sys.deleteRole e roleId with
      | error err => exact h
      | ok sys' => exact RoleSystem.standard_deleteRole h hdelete
    | clearExtendedCustomRole => exact RoleSystem.standard_clearExtendedCustomRole h e
    | newAccount info isIpmiOrSnmp => exact h.congr rfl
    | setRoleId id roleId p => exact h.congr rfl
  | setRolePrivilege e roleId p value =>
    change RoleSystem.Standard _ ((sys.changePrivilege e roleId p value).toOption.getD sys)
    cases hset : sys.changePrivilege e roleId p value with
    | error err => exact h
    | ok sys' => exact RoleSystem.standard_changePrivilege h hset
  | setExtendedCustomRoleEnabled e value =>
    have henabled : RoleSystem.Standard roles₀ { sys with extendedCustomRoleEnabled := value } :=
      h.congr rfl
    change RoleSystem.Standard _ (if value = false then _ else _)
    split_ifs
    · exact RoleSystem.standard_clearExtendedCustomRole henabled e
    · exact henabled
  | importRoles e l => exact (keeps_importRoles e l).after h

/-- The state after operations. -/
def RoleSystem.afterOps (sys : RoleSystem) (ops : List RoleTableOp) : RoleSystem :=
  ops.foldl RoleSystem.afterOp sys

theorem standard_afterOps {sys : RoleSystem} (h : sys.Standard roles₀) (ops : List RoleTableOp) :
  (sys.afterOps ops).Standard roles₀
  := by
  induction ops generalizing sys with
  | nil => exact h
  | cons op ops ih => exact ih (standard_afterOp h op)

/-- The roles that a controller starts with. -/
theorem standard_self {sys : RoleSystem}
    (h : ∀ r, IsExtended r → ∀ d ∈ sys.roles r, RoleData.fixed d = (false, true, true)) :
  sys.Standard sys.roles
  := ⟨fun _ _ => rfl, fun _ _ => rfl, h⟩

/-- Of two controllers that start with the same roles, whatever is done on them, one can import the
file that is exported of the other one, in whatever order the file lists the privileges. It then has
the roles of the other one as they are there, and its own roles that are not there as they were. -/
theorem import_export_roles {here there : RoleSystem} (hroles : here.roles = there.roles)
    (hextended : ∀ r, IsExtended r → ∀ d ∈ here.roles r, RoleData.fixed d = (false, true, true))
    (ops ops' : List RoleTableOp) (henabled : (here.afterOps ops).extendedCustomRoleEnabled = true)
    (e : Env) {order : RoleType → List PrivilegeType} (horder : ∀ r p, p ∈ order r) :
  ∃ sys', exec (importRoles e ((there.afterOps ops').exportRoles e order)) (here.afterOps ops)
      = (.ok (), sys')
    ∧ ∀ r : RoleType, sys'.roles r.value
      = ((there.afterOps ops').roles r.value).or ((here.afterOps ops).roles r.value)
  := by
  have hhere := standard_afterOps (standard_self hextended) ops
  have hthere : (there.afterOps ops').Standard here.roles :=
    standard_afterOps ((standard_self hextended).congr hroles.symm) ops'
  exact exec_importRoles e hhere hthere henabled horder

end Runs

/-- The roles up to `CustomRole4`, with the privileges that every role has. -/
def shippedRoleSystem : RoleSystem where
  state := plainState [(2, plainAccount "Administrator" 4 223)]
  roles r := if r ∈ [0, 2, 3, 4, 5, 6, 7, 8] then
    some fun p => p = .readOnly || p = .configureSelf else none
  extendedCustomRoleEnabled := true

theorem import_export_roles_shippedRoleSystem :
  ∃ sys', exec (importRoles plainEnv ((shippedRoleSystem.afterOps
        [.role ⟨plainEnv, .newRole 9 ["ReadOnly", "ConfigureSelf"] ["KVMMgmt"]⟩]).exportRoles
          plainEnv fun _ => privilegeTypes))
      (shippedRoleSystem.afterOps [.setRolePrivilege plainEnv 5 (some .vmmMgmt) true])
      = (.ok (), sys')
    ∧ ∀ r : RoleType, sys'.roles r.value
      = (RoleSystem.roles (shippedRoleSystem.afterOps
          [.role ⟨plainEnv, .newRole 9 ["ReadOnly", "ConfigureSelf"] ["KVMMgmt"]⟩]) r.value).or
        (RoleSystem.roles (shippedRoleSystem.afterOps
          [.setRolePrivilege plainEnv 5 (some .vmmMgmt) true]) r.value)
  := by
  apply import_export_roles rfl _ _ _ rfl plainEnv
  · intro _ p
    cases p <;> decide
  · intro r hr d hd
    have hmissing : shippedRoleSystem.roles r = none := by
      apply if_neg
      obtain ⟨hmin, -⟩ := hr
      simp only [List.mem_cons, List.not_mem_nil, or_false, not_or]
      omega
    rw [hmissing] at hd
    cases hd

end BmcAccount
