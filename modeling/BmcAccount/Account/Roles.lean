import BmcAccount.Account.Expiry

/-!
# The roles that accounts refer to

An extended custom role may be created, deleted, and cleared together with all the others.
When a role is removed, every account that has it is given the role of a common user, by the
operation that changes roles, and whatever that operation refuses is ignored. So an account
is left with a role that is not there when its role is not writable, when it is the emergency
account, and when it is the last administrator that can operate.

What a removal does is followed in rows that show, of each account, what these refusals look
at. Here are the operations, and the removals of roles among rows.
-/

namespace BmcAccount

open Raise

/-! ## The role collection -/

/-- The errors of the role collection. -/
inductive RoleErr where
  | actionNotSupported (action : String)
  | roleIdNotInList (roleId : ℕ)
  | resourceAlreadyExists
  | privilegeNotInList (value property : String)
  | propertyMissing (name : String)

/-- `ASSIGNED_PRIV_TAB`, the privileges that it allows. -/
def assignedPrivTab : List (String × PrivilegeType) :=
  [("ReadOnly", .readOnly), ("ConfigureSelf", .configureSelf), ("BasicSetting", .basicSetting)]

/-- `OEM_PRIV_TAB`. -/
def oemPrivTab : List (String × PrivilegeType) :=
  [("PowerMgmt", .powerMgmt), ("SecurityMgmt", .securityMgmt), ("KVMMgmt", .kvmMgmt),
    ("VMMMgmt", .vmmMgmt), ("DiagnoseMgmt", .diagnoseMgmt)]

/-- The privileges of a table that are asked for by name are granted. -/
def RoleData.grant (tab : List (String × PrivilegeType)) (property : String)
    (names : List String) (r : RoleData) : Except RoleErr RoleData :=
  names.foldlM (fun r name =>
    match tab.lookup name with
    | none => .error (.privilegeNotInList name property)
    | some p => .ok (Function.update r p true)) r

/-- The identifiers of the extended custom roles, from `CustomRole5` to `CustomRole16`. -/
def IsExtended (roleId : ℕ) : Prop := 9 ≤ roleId ∧ roleId ≤ 20

instance (roleId : ℕ) : Decidable (IsExtended roleId) := inferInstanceAs (Decidable (_ ∧ _))

/-- The accounts and the roles, and whether extended custom roles are enabled. -/
structure RoleSystem where
  state : State
  roles : Roles
  extendedCustomRoleEnabled : Bool

namespace RoleSystem

/-- What a call on the accounts sees when the roles are those of the system. -/
def env (sys : RoleSystem) (env : Env) : Env :=
  { env with roles := fun r => (sys.roles r).map RoleData.toArray }

/-- A program on the accounts. -/
def run {α : Type} (sys : RoleSystem) (m : M α) : RoleSystem :=
  { sys with state := after m sys.state }

/-- `new_role`. -/
def newRole (roleId : ℕ) (assignedPrivs oemPrivs : List String) (sys : RoleSystem) :
    Except RoleErr RoleSystem := do
  if !sys.extendedCustomRoleEnabled then throw (.actionNotSupported "Create Custom Role")
  if ¬ IsExtended roleId then throw (.roleIdNotInList roleId)
  if (sys.roles roleId).isSome then throw .resourceAlreadyExists
  let r ← RoleData.grant assignedPrivTab "AssignedPrivileges" assignedPrivs fun _ => false
  let r ← RoleData.grant oemPrivTab "OemPrivileges" oemPrivs r
  if !(r .readOnly && r .configureSelf) then
    throw (.propertyMissing "ReadOnly or ConfigureSelf privilege")
  return { sys with roles := Function.update sys.roles roleId (some r) }

end RoleSystem

/-- What `update_role_after_removed` does with one account: a refusal is only logged. -/
def leaveRole (env : Env) (roleId id : ℕ) : M Unit := do
  let s ← get
  match s.accounts.lookup id with
  | none => pure ()
  | some a =>
    onlyIf (a.data.roleId = roleId)
      (protect (setRoleId env id RoleType.commonUser.value none) fun _ => pure ())

/-- `update_role_after_removed`. -/
def updateRoleAfterRemoved (env : Env) (roleId : ℕ) : M Unit := do
  let s ← get
  s.accounts.keys.forM (leaveRole env roleId)

namespace RoleSystem

/-- A role is removed, and the accounts that have it leave it. -/
def removeRole (e : Env) (sys : RoleSystem) (roleId : ℕ) : RoleSystem :=
  let sys := { sys with roles := Function.update sys.roles roleId none }
  sys.run (updateRoleAfterRemoved (sys.env e) roleId)

/-- `delete_role`. -/
def deleteRole (e : Env) (roleId : ℕ) (sys : RoleSystem) : Except RoleErr RoleSystem := do
  if !sys.extendedCustomRoleEnabled then throw (.actionNotSupported "Delete Custom Role")
  if (sys.roles roleId).isNone then throw (.roleIdNotInList roleId)
  if ¬ IsExtended roleId then throw (.roleIdNotInList roleId)
  return sys.removeRole e roleId

/-- `clear_extended_custom_role`. -/
def clearExtendedCustomRole (e : Env) (sys : RoleSystem) : RoleSystem :=
  (List.range' 9 12).foldl (fun sys roleId =>
    if (sys.roles roleId).isSome then sys.removeRole e roleId else sys) sys

end RoleSystem

/-- The operations on the roles and on what refers to them. -/
inductive RoleOp where
  | newRole (roleId : ℕ) (assignedPrivs oemPrivs : List String)
  | deleteRole (roleId : ℕ)
  | clearExtendedCustomRole
  | newAccount (info : Account.Info) (isIpmiOrSnmp : Bool)
  | setRoleId (id roleId : ℕ) (ipmiPrivilege : Option IpmiPrivilege)

/-- An operation, and what it sees of the rest of the system. -/
structure RoleCall where
  env : Env
  op : RoleOp

/-- The system after a call, whether it is accepted or refused. -/
def RoleSystem.step (sys : RoleSystem) (c : RoleCall) : RoleSystem :=
  match c.op with
  | .newRole roleId assignedPrivs oemPrivs =>
      (sys.newRole roleId assignedPrivs oemPrivs).toOption.getD sys
  | .deleteRole roleId => (sys.deleteRole c.env roleId).toOption.getD sys
  | .clearExtendedCustomRole => sys.clearExtendedCustomRole c.env
  | .newAccount info isIpmiOrSnmp => sys.run (newAccount (sys.env c.env) info isIpmiOrSnmp)
  | .setRoleId id roleId p => sys.run (setRoleId (sys.env c.env) id roleId p)

/-! ## Rows -/

/-- What is followed of an account: its standing, and whether its role can be changed. -/
structure RoleRow where
  standing : Standing
  roleIdWritable : Bool

/-- The role row of an account. -/
def Account.roleRow (a : Account) : RoleRow := ⟨a.standing, a.getPropertyWritable .roleId⟩

/-- The rows of the accounts. -/
abbrev RoleRows : Type := ℕ → Option RoleRow

namespace RoleRow

/-- The account is a local or an OEM one. -/
def IsTied (r : RoleRow) : Prop :=
  r.standing.cls = .localAccount ∨ r.standing.cls = .oemAccount

/-- The account is an administrator that can operate. -/
def Operates (r : RoleRow) : Prop :=
  (r.standing.cls = .localAccount
      ∧ (r.standing.privilege1 = .admin ∨ r.standing.roleId = RoleType.administrator.value)
      ∧ r.standing.enabled = true)
    ∧ r.standing.loginInterface ≠ LoginInterface.invalid.value
    ∧ r.standing.loginInterface ≠ LoginInterface.sftp.value

/-- The row with another role, where the class of the account has a role to set, and another
privilege. -/
def assign (roleId : ℕ) (p : IpmiPrivilege) (r : RoleRow) : RoleRow :=
  { r with standing := { r.standing with
    roleId := match r.standing.cls with
      | .vncAccount | .snmpCommunity => r.standing.roleId
      | _ => roleId
    privilege1 := if p = .noAccess then .reserved else p } }

/-- The row of an account that has become a common user. -/
def demote (r : RoleRow) : RoleRow := r.assign RoleType.commonUser.value .user

theorem IsTied.roleId_assign {r : RoleRow} (h : r.IsTied) (roleId : ℕ) (p : IpmiPrivilege) :
  (r.assign roleId p).standing.roleId = roleId
  := by
  obtain h | h := h <;> simp [assign, h]

theorem Operates.isTied {r : RoleRow} (h : r.Operates) :
  r.IsTied
  := Or.inl h.1.1

/-- A common user does not operate. -/
theorem not_operates_demote (r : RoleRow) :
  ¬ r.demote.Operates
  := by
  intro h
  have hrole := (show r.IsTied from h.isTied).roleId_assign RoleType.commonUser.value .user
  obtain hp | hr := h.1.2.1
  · simp [demote, assign] at hp
  · rw [demote, hrole] at hr
    exact absurd hr (by decide)

theorem IsTied.roleId_demote {r : RoleRow} (h : r.demote.IsTied) :
  r.demote.standing.roleId = RoleType.commonUser.value
  := (show r.IsTied from h).roleId_assign ..

theorem demote_demote (r : RoleRow) :
  r.demote.demote = r.demote
  := by
  unfold demote assign
  cases r.standing.cls <;> simp

end RoleRow

/-! ## Removals

A removal is followed as a relation between the rows before and after it, which composes. -/

/-- The account `id` is the only one that operates. -/
def RoleRows.LastOperates (T : RoleRows) (id : ℕ) : Prop :=
  (∃ r, T id = some r ∧ r.Operates) ∧ ∀ j r, T j = some r → r.Operates → j = id

/-- What a removal does to an account that has the role is not refused: `c` says whether there
is a role of a common user, and `e` is the emergency account. -/
structure Leaves (c : Prop) (e : ℕ) (T : RoleRows) (id : ℕ) (r : RoleRow) : Prop where
  commonUser : c
  notLast : ¬ T.LastOperates id
  notEmergency : id ≠ e
  writable : r.roleIdWritable = true

/-- `T'` is what `T` becomes when the accounts leave the roles of `S`, which says of which
account which role is left. -/
structure Removed (c : Prop) (e : ℕ) (S : ℕ → ℕ → Prop) (T T' : RoleRows) : Prop where
  rows : ∀ id, T' id = T id ∨ ∃ r, T id = some r ∧ S id r.standing.roleId ∧
    (c ∧ id ≠ e ∧ r.roleIdWritable = true) ∧ T' id = some r.demote
  operates : (∃ id r, T id = some r ∧ r.Operates) → ∃ id r, T' id = some r ∧ r.Operates
  stuck : ∀ id r, T' id = some r → r.IsTied → S id r.standing.roleId → ¬ Leaves c e T' id r

namespace Removed

variable {c : Prop} {e : ℕ} {S S' : ℕ → ℕ → Prop} {T T' T'' : RoleRows}

/-- What operates after a removal is as it was before. -/
theorem eq_of_operates (h : Removed c e S T T') {id : ℕ} {r : RoleRow} (hr : T' id = some r)
    (hop : r.Operates) :
  T id = some r
  := by
  obtain hsame | ⟨x, -, -, -, hx⟩ := h.rows id
  · exact hsame ▸ hr
  · obtain rfl := Option.some_inj.mp (hr.symm.trans hx)
    exact absurd hop x.not_operates_demote

theorem congr (h : Removed c e S T T')
    (hS : ∀ id role, (T' id).isSome = true → (S id role ↔ S' id role)) :
  Removed c e S' T T'
  where
  rows id := by
    obtain hsame | ⟨r, hr, hs, hleaves, hx⟩ := h.rows id
    · exact .inl hsame
    · exact .inr ⟨r, hr, (hS id _ (by simp [hx])).mp hs, hleaves, hx⟩
  operates := h.operates
  stuck id r hr htied hs := h.stuck id r hr htied ((hS id _ (by simp [hr])).mpr hs)

/-- Nothing is left, where nothing is asked for. -/
theorem refl (T : RoleRows) :
  Removed c e (fun _ _ => False) T T
  where
  rows _ := .inl rfl
  operates := id
  stuck _ _ _ _ h := h.elim

/-- One removal after another. -/
theorem trans (h : Removed c e S T T') (h' : Removed c e S' T' T'')
    (hS : ∀ id, ¬ S id RoleType.commonUser.value) :
  Removed c e (fun id role => S id role ∨ S' id role) T T''
  where
  rows id := by
    obtain hsame' | ⟨r', hr', hs', hleaves', hx'⟩ := h'.rows id
    · rw [hsame']
      obtain hsame | ⟨r, hr, hs, hleaves, hx⟩ := h.rows id
      · exact .inl hsame
      · exact .inr ⟨r, hr, .inl hs, hleaves, hx⟩
    · obtain hsame | ⟨r, hr, hs, hleaves, hx⟩ := h.rows id
      · exact .inr ⟨r', hsame ▸ hr', .inr hs', hleaves', hx'⟩
      · obtain rfl := Option.some_inj.mp (hr'.symm.trans hx)
        refine .inr ⟨r, hr, .inl hs, hleaves, ?_⟩
        rw [hx', RoleRow.demote_demote]
  operates hop := h'.operates (h.operates hop)
  stuck id r hr htied hs := by
    obtain hs | hs := hs
    · intro hleaves
      have hr' : T' id = some r := by
        obtain hsame | ⟨x, -, -, -, hx⟩ := h'.rows id
        · exact hsame ▸ hr
        · obtain rfl := Option.some_inj.mp (hr.symm.trans hx)
          rw [htied.roleId_demote] at hs
          exact absurd hs (hS id)
      refine h.stuck id r hr' htied hs { hleaves with notLast := ?_ }
      rintro ⟨⟨x, hx, hop⟩, hothers⟩
      obtain rfl := Option.some_inj.mp (hr'.symm.trans hx)
      exact hleaves.notLast ⟨⟨r, hr, hop⟩, fun j y hy hyop =>
        hothers j y (h'.eq_of_operates hy hyop) hyop⟩
    · exact h'.stuck id r hr htied hs

/-- The account `id` does not leave the role. -/
theorem stay {id roleId : ℕ}
    (h : ∀ r, T id = some r → r.standing.roleId = roleId → ¬ Leaves c e T id r) :
  Removed c e (fun i role => i = id ∧ role = roleId) T T
  where
  rows _ := .inl rfl
  operates hop := hop
  stuck := by
    rintro i r hr - ⟨rfl, hrole⟩
    exact h r hr hrole

/-- The account `id` leaves the role. -/
theorem leave {id : ℕ} {r : RoleRow} (hr : T id = some r) (h : Leaves c e T id r)
    (hne : r.standing.roleId ≠ RoleType.commonUser.value) :
  Removed c e (fun i role => i = id ∧ role = r.standing.roleId) T
    (Function.update T id (some r.demote))
  where
  rows i := by
    by_cases hi : i = id
    · subst hi
      exact .inr ⟨r, hr, ⟨rfl, rfl⟩, ⟨h.commonUser, h.notEmergency, h.writable⟩,
        Function.update_self ..⟩
    · exact .inl (Function.update_of_ne hi ..)
  operates := by
    rintro ⟨j, x, hx, hop⟩
    obtain ⟨k, y, hy, hyop, hk⟩ : ∃ k y, T k = some y ∧ y.Operates ∧ k ≠ id := by
      by_contra hnone
      push Not at hnone
      obtain rfl := hnone j x hx hop
      exact h.notLast ⟨⟨x, hx, hop⟩, hnone⟩
    exact ⟨k, y, by rw [Function.update_of_ne hk, hy], hyop⟩
  stuck := by
    rintro i x hx htied ⟨rfl, hrole⟩
    rw [Function.update_self, Option.some_inj] at hx
    subst hx
    rw [htied.roleId_demote] at hrole
    exact absurd hrole.symm hne

end Removed

/-- The accounts of `T` can all leave the roles of `R`: the last administrator that can operate
does not have one of them. -/
def Removable (c : Prop) (e : ℕ) (R : ℕ → Prop) (T : RoleRows) : Prop :=
  ∀ id r, T id = some r → r.IsTied → R r.standing.roleId →
    c ∧ id ≠ e ∧ r.roleIdWritable = true ∧
      (r.Operates → ∃ j x, T j = some x ∧ x.Operates ∧ ¬ R x.standing.roleId)

/-- No local or OEM account is left with a role of `R`, exactly where they can all leave. -/
theorem Removed.left_iff {c : Prop} {e : ℕ} {R : ℕ → Prop} {T T' : RoleRows}
    (h : Removed c e (fun _ => R) T T') (hR : ¬ R RoleType.commonUser.value) :
  (∀ id r, T' id = some r → r.IsTied → ¬ R r.standing.roleId) ↔ Removable c e R T
  := by
  constructor
  · intro hleft id r hr htied hrole
    obtain hsame | ⟨x, hx, -, ⟨hc, hid, hwritable⟩, -⟩ := h.rows id
    · exact absurd hrole (hleft id r (hsame.trans hr) htied)
    obtain rfl := Option.some_inj.mp (hr.symm.trans hx)
    refine ⟨hc, hid, hwritable, fun hop => ?_⟩
    obtain ⟨j, y, hy, hyop⟩ := h.operates ⟨id, r, hr, hop⟩
    exact ⟨j, y, h.eq_of_operates hy hyop, hyop, hleft j y hy hyop.isTied⟩
  · intro hleave id r hr htied hrole
    have hr' : T id = some r := by
      obtain hsame | ⟨x, -, -, -, hx⟩ := h.rows id
      · exact hsame ▸ hr
      · obtain rfl := Option.some_inj.mp (hr.symm.trans hx)
        rw [htied.roleId_demote] at hrole
        exact absurd hrole hR
    obtain ⟨hc, hid, hwritable, hother⟩ := hleave id r hr' htied hrole
    refine h.stuck id r hr htied hrole ⟨hc, ?_, hid, hwritable⟩
    rintro ⟨⟨x, hx, hop⟩, hlast⟩
    obtain rfl := Option.some_inj.mp (hr.symm.trans hx)
    obtain ⟨j, y, hy, hyop, hyrole⟩ := hother hop
    have hy' : T' j = some y := by
      obtain hsame | ⟨z, hz, hzrole, -, -⟩ := h.rows j
      · rw [hsame, hy]
      · obtain rfl := Option.some_inj.mp (hy.symm.trans hz)
        exact absurd hzrole hyrole
    obtain rfl := hlast j y hy' hyop
    obtain rfl := Option.some_inj.mp (hr.symm.trans hy')
    exact hyrole hrole

end BmcAccount
