import BmcAccount.Account.Roles
import BmcAccount.Lib.Run

/-!
# The roles of the accounts are there

The operations on roles and accounts do on the rows what a removal does, and every local and
OEM account has a role that is there in every state of a run, exactly when the accounts can
leave whatever role is deleted or cleared.
-/

namespace BmcAccount

open Raise

/-! ## Rows of the state -/

theorem Account.operates_roleRow_iff (a : Account) :
  a.roleRow.Operates ↔ a.isOperateAdmin = true
  := by
  rw [Account.isOperateAdmin_iff, Account.checkIsEnabledAdmin_iff]
  exact Iff.rfl

theorem showsStored_roleRow :
  ShowsStored Account.roleRow
  where
  history _ _ := rfl
  inTable _ _ := rfl
  updatePrivileges env cfg given a := by
    unfold Account.updatePrivileges
    simp only
    split <;> rfl
  updateInactiveUserStartTime env cfg a := by
    unfold Account.updateInactiveUserStartTime
    split
    · split_ifs <;> rfl
    · rfl
  updateDeletable cfg only id a := by
    unfold Account.updateDeletable
    split <;> rfl
  setWithinMinPasswordDaysStatus status a := by
    unfold Account.setWithinMinPasswordDaysStatus
    split <;> rfl

/-! ## Setting a role -/

/-- An account that takes a role takes it in its row; its privilege comes next. -/
theorem roleRow_setRoleId {env : Env} {cfg : Config} {roleId : ℕ} {a a' : Account}
    (h : a.setRoleId env cfg roleId = .ok a') (p : IpmiPrivilege) :
  (a'.setIpmiUserPrivilege p).roleRow = a.roleRow.assign roleId p
  := by
  have hstored (b : Account) : ((b.updatePrivileges env cfg none).setIpmiUserPrivilege p).roleRow
      = (b.setIpmiUserPrivilege p).roleRow := by
    unfold Account.updatePrivileges
    simp only
    split <;> rfl
  unfold Account.setRoleId at h
  cases hcls : a.cls <;> simp only [hcls] at h
  all_goals first
    | split_ifs at h
    | skip
  all_goals
    cases h
    try rw [hstored]
    simp [Account.roleRow, Account.standing, Account.setIpmiUserPrivilege, RoleRow.assign,
      Account.getPropertyWritable, Property.writable, hcls]

/-- The state shows the rows `T`, and has the configuration `cfg`. -/
def ShowsRows (T : RoleRows) (cfg : Config) (s : State) : Prop :=
  s.view Account.roleRow = T ∧ s.config = cfg

/-- What follows the method of the account in `set_role_id` does not raise. -/
theorem setRoleId_tail_rows {T : RoleRows} {cfg : Config} {id : ℕ} {p : IpmiPrivilege}
    {E : State → Prop} :
  Spec (ShowsRows T cfg) (do limitFirstChannel id p; updateDeletable)
    (fun _ => ShowsRows T cfg) E
  := by
  have hdeletable : Spec (ShowsRows T cfg) updateDeletable (fun _ => ShowsRows T cfg) E := by
    apply Spec.modify
    rintro s ⟨hview, hcfg⟩
    exact ⟨(State.view_mapAccounts fun _ _ =>
      showsStored_roleRow.updateDeletable ..).trans hview, hcfg⟩
  have hlimit : Spec (ShowsRows T cfg) (limitFirstChannel id p) (fun _ => ShowsRows T cfg) E := by
    unfold limitFirstChannel
    apply Spec.bind (Q := fun _ => ShowsRows T cfg) (Spec.get.weaken (fun _ h => h)
      (fun _ _ h => h.2) fun _ h => h)
    intro s
    apply Spec.ite
    · intro _
      cases s.channel id 1 with
      | none => exact Spec.pure fun _ h => h
      | some row => exact Spec.modify fun _ h => h
    · exact fun _ => Spec.pure fun _ h => h
  exact Spec.bind hlimit fun _ => hdeletable

/-- A change of role that is accepted. -/
theorem exec_setRoleId_accepted {env : Env} {s : State} {id roleId : ℕ} {a : Account}
    (p : Option IpmiPrivilege) (ha : s.accounts.lookup id = some a)
    (h : RoleChangeAccepted env s id roleId a) :
  ∃ s', exec (setRoleId env id roleId p) s = (.ok (), s') ∧
    ShowsRows (Function.update (s.view Account.roleRow) id
      (some (a.roleRow.assign roleId (p.getD (Account.privilegeOfRole roleId))))) s.config s'
  := by
  have hrole : ((RoleType.ofValue roleId).isNone || (env.roles roleId).isNone) = false := by
    simpa [Option.isSome_iff_ne_none] using h.known
  have hlast : ¬ ((roleId != RoleType.administrator.value) = true ∧ s.IsLastOperateAdmin id) := by
    simpa using h.notLast
  obtain ⟨a', ha'⟩ : ∃ a', a.setRoleId env s.config roleId = .ok a' := by
    unfold Account.setRoleId
    cases a.cls <;> simp [h.writable]
  have hemergency : exec (refuseEmergencyUser true id (.emergencyLoginUser .roleId)) s
      = (.ok (), s) := by
    rw [exec_refuseEmergencyUser]
    simp [State.checkIsEmergencyUser, h.notEmergency]
  have hcall : exec (callAccount id fun cfg => Account.setRoleId env cfg roleId) s
      = (.ok (), s.modifyAccount id fun _ => a') := by
    rw [exec_callAccount ha, ha']
  unfold setRoleId
  rw [exec_bind_ok (exec_getAccount ha), hrole, exec_bind_ok (exec_refuse_false _ s),
    exec_bind_ok (exec_refuseLastOperateAdmin_ok ha hlast), exec_bind_ok hemergency,
    exec_bind_ok hcall]
  generalize p.getD (Account.privilegeOfRole roleId) = q
  have hupdate : exec (updateAccount id fun _ => Account.setIpmiUserPrivilege q)
        (s.modifyAccount id fun _ => a')
      = (.ok (), (s.modifyAccount id fun _ => a').modifyAccount id
          (Account.setIpmiUserPrivilege q)) := rfl
  rw [exec_bind_ok hupdate]
  have hshows : ShowsRows (Function.update (s.view Account.roleRow) id
      (some (a.roleRow.assign roleId q))) s.config
      ((s.modifyAccount id fun _ => a').modifyAccount id (Account.setIpmiUserPrivilege q)) := by
    refine ⟨?_, rfl⟩
    have hlookup : (s.modifyAccount id fun _ => a').accounts.lookup id = some a' := by
      simp [State.modifyAccount, ha]
    rw [State.view_modifyAccount, hlookup, State.view_modifyAccount, Function.update_idem,
      Option.map_some, roleRow_setRoleId ha']
  obtain ⟨⟨⟩, s', hexec, hs'⟩ := setRoleId_tail_rows.returns hshows
  exact ⟨s', hexec, hs'⟩

/-! ## Accounts leave a role -/

/-- An account is the last administrator that can operate as its row is. -/
theorem isLastOperateAdmin_iff_rows (s : State) (id : ℕ) :
  s.IsLastOperateAdmin id ↔ RoleRows.LastOperates (s.view Account.roleRow) id
  := by
  have hat (j : ℕ) : s.OperateAdminAt j
      ↔ ∃ r, s.view Account.roleRow j = some r ∧ r.Operates := by
    unfold State.OperateAdminAt State.view
    cases ha : s.accounts.lookup j with
    | none => simp
    | some a => simp [Account.operates_roleRow_iff]
  unfold State.IsLastOperateAdmin RoleRows.LastOperates
  rw [hat, State.otherOperateAdmin_iff]
  apply and_congr_right
  rintro -
  push Not
  apply forall_congr'
  intro j
  rw [hat]
  constructor
  · intro h r hr hop
    by_contra hj
    exact h hj ⟨r, hr, hop⟩
  · rintro h hj ⟨r, hr, hop⟩
    exact hj (h r hr hop)

/-- Taking the role of a common user is accepted where the row leaves its role. -/
theorem roleChangeAccepted_commonUser_iff {env : Env} {s : State} {id : ℕ} {a : Account} :
  RoleChangeAccepted env s id RoleType.commonUser.value a ↔
    Leaves ((env.roles RoleType.commonUser.value).isSome = true)
      s.config.emergencyLoginAccountId (s.view Account.roleRow) id a.roleRow
  := by
  have hne : RoleType.commonUser.value ≠ RoleType.administrator.value := by decide
  constructor
  · intro h
    exact {
      commonUser := h.known.2
      notLast := fun hlast => h.notLast ⟨hne, (isLastOperateAdmin_iff_rows s id).mpr hlast⟩
      notEmergency := h.notEmergency
      writable := h.writable }
  · intro h
    exact {
      known := ⟨by decide, h.commonUser⟩
      notLast := fun hlast => h.notLast ((isLastOperateAdmin_iff_rows s id).mp hlast.2)
      notEmergency := h.notEmergency
      writable := h.writable }

/-- What `update_role_after_removed` does with one account. -/
theorem exec_leaveRole (env : Env) {T : RoleRows} {cfg : Config} {s : State} {roleId : ℕ}
    (hne : roleId ≠ RoleType.commonUser.value) (hs : ShowsRows T cfg s) (id : ℕ) :
  ∃ s' T', exec (leaveRole env roleId id) s = (.ok (), s') ∧ ShowsRows T' cfg s' ∧
    Removed ((env.roles RoleType.commonUser.value).isSome = true) cfg.emergencyLoginAccountId
      (fun i role => i = id ∧ role = roleId) T T'
  := by
  obtain ⟨rfl, rfl⟩ := hs
  unfold leaveRole
  rw [exec_bind_ok (exec_get s)]
  cases ha : s.accounts.lookup id with
  | none =>
    refine ⟨s, _, rfl, ⟨rfl, rfl⟩, Removed.stay fun r hr => ?_⟩
    simp [State.view, ha] at hr
  | some a =>
    have hrow : s.view Account.roleRow id = some a.roleRow := by
      rw [State.view, ha, Option.map_some]
    by_cases hrole : a.data.roleId = roleId
    · simp only [hrole, decide_true, onlyIf, if_true]
      rw [exec_protect]
      by_cases hacc : RoleChangeAccepted env s id RoleType.commonUser.value a
      · obtain ⟨s', hexec, hs'⟩ := exec_setRoleId_accepted none ha hacc
        rw [hexec]
        refine ⟨s', _, rfl, hs', ?_⟩
        subst hrole
        exact Removed.leave hrow (roleChangeAccepted_commonUser_iff.mp hacc) hne
      · obtain ⟨err, hexec⟩ := exec_setRoleId_refused (p := none) ha hacc
        rw [hexec]
        refine ⟨s, _, rfl, ⟨rfl, rfl⟩, Removed.stay fun r hr _ hleaves => hacc ?_⟩
        obtain rfl := Option.some_inj.mp (hrow.symm.trans hr)
        exact roleChangeAccepted_commonUser_iff.mpr hleaves
    · simp only [hrole, decide_false, exec_onlyIf_false]
      refine ⟨s, _, rfl, ⟨rfl, rfl⟩, Removed.stay fun r hr hr' => ?_⟩
      obtain rfl := Option.some_inj.mp (hrow.symm.trans hr)
      exact absurd hr' hrole

/-- The loop of `update_role_after_removed` over some of the accounts. -/
theorem exec_forM_leaveRole (env : Env) {T : RoleRows} {cfg : Config} {s : State} {roleId : ℕ}
    (hne : roleId ≠ RoleType.commonUser.value) (hs : ShowsRows T cfg s) (ids : List ℕ) :
  ∃ s' T', exec (ids.forM (leaveRole env roleId)) s = (.ok (), s') ∧ ShowsRows T' cfg s' ∧
    Removed ((env.roles RoleType.commonUser.value).isSome = true) cfg.emergencyLoginAccountId
      (fun i role => i ∈ ids ∧ role = roleId) T T'
  := by
  induction ids generalizing s T with
  | nil => exact ⟨s, T, rfl, hs, (Removed.refl T).congr (by simp)⟩
  | cons id ids ih =>
    obtain ⟨s₁, T₁, hexec₁, hs₁, hremoved₁⟩ := exec_leaveRole env hne hs id
    obtain ⟨s₂, T₂, hexec₂, hs₂, hremoved₂⟩ := ih hs₁
    refine ⟨s₂, T₂, ?_, hs₂, ?_⟩
    · rw [exec_forM_cons, exec_bind_ok hexec₁, hexec₂]
    · apply (hremoved₁.trans hremoved₂ fun _ h => hne h.2.symm).congr
      intro i role _
      rw [List.mem_cons, or_and_right]

namespace RoleSystem

/-- The rows of the accounts of the system. -/
def rows (sys : RoleSystem) : RoleRows := sys.state.view Account.roleRow

/-- Whether there is a role of a common user. -/
def HasCommonUser (sys : RoleSystem) : Prop :=
  (sys.roles RoleType.commonUser.value).isSome = true

/-- The accounts have left the roles of `R`, and so are the roles that there were. -/
structure Rid (R : ℕ → Prop) (sys sys' : RoleSystem) : Prop where
  roles : ∀ r, (sys'.roles r).isSome = true ↔ (sys.roles r).isSome = true ∧ ¬ R r
  config : sys'.state.config = sys.state.config
  removed : Removed sys.HasCommonUser sys.state.config.emergencyLoginAccountId (fun _ => R)
    sys.rows sys'.rows

theorem not_isExtended_commonUser :
  ¬ IsExtended RoleType.commonUser.value
  := by
  decide

theorem isSome_update_none_iff {roles : Roles} {roleId r : ℕ} :
  (Function.update roles roleId none r).isSome = true ↔ (roles r).isSome = true ∧ ¬ r = roleId
  := by
  by_cases hr : r = roleId
  · simp [hr]
  · simp [hr]

/-- A role is removed. -/
theorem removeRole_rid (sys : RoleSystem) {roleId : ℕ} (e : Env) (hext : IsExtended roleId) :
  Rid (· = roleId) sys (sys.removeRole e roleId)
  := by
  have hne : roleId ≠ RoleType.commonUser.value := by
    rintro rfl
    exact not_isExtended_commonUser hext
  let e' := RoleSystem.env { sys with roles := Function.update sys.roles roleId none } e
  have hshows : ShowsRows sys.rows sys.state.config sys.state := ⟨rfl, rfl⟩
  obtain ⟨s', T', hexec, ⟨hview, hcfg⟩, hremoved⟩ :=
    exec_forM_leaveRole e' hne hshows sys.state.accounts.keys
  have hafter : (sys.removeRole e roleId).state = s' := by
    have hloop : exec (updateRoleAfterRemoved e' roleId) sys.state = (.ok (), s') := by
      unfold updateRoleAfterRemoved
      rw [exec_bind_ok (exec_get sys.state), hexec]
    exact congrArg Prod.snd hloop
  have hcommon : (e'.roles RoleType.commonUser.value).isSome = true ↔ sys.HasCommonUser := by
    simp [e', RoleSystem.env, Function.update_of_ne hne.symm, HasCommonUser]
  have hrows : (sys.removeRole e roleId).rows = T' := by
    rw [rows, hafter, hview]
  refine ⟨fun r => isSome_update_none_iff, by rw [hafter, hcfg], ?_⟩
  rw [hrows, ← hcommon]
  apply hremoved.congr
  intro id role hid
  rw [and_iff_right_of_imp]
  rintro -
  have hid' : (sys.rows id).isSome = true := by
    obtain hsame | ⟨r, hr, -⟩ := hremoved.rows id
    · rw [← hsame, hid]
    · rw [hr, Option.isSome_some]
  apply AList.lookup_isSome.mp
  simpa [rows, State.view] using hid'

variable {R R' : ℕ → Prop} {sys sys' sys'' : RoleSystem}

theorem Rid.hasCommonUser_iff (h : Rid R sys sys') (hR : ¬ R RoleType.commonUser.value) :
  sys'.HasCommonUser ↔ sys.HasCommonUser
  := by
  unfold HasCommonUser
  rw [h.roles, and_iff_left hR]

theorem Rid.trans (h : Rid R sys sys') (h' : Rid R' sys' sys'')
    (hR : ¬ R RoleType.commonUser.value) :
  Rid (fun r => R r ∨ R' r) sys sys''
  where
  roles r := by rw [h'.roles, h.roles, and_assoc, not_or]
  config := h'.config.trans h.config
  removed := by
    have hremoved' := h'.removed
    rw [h.config, h.hasCommonUser_iff hR] at hremoved'
    exact h.removed.trans hremoved' fun _ => hR

theorem Rid.congr (h : Rid R sys sys') (hR : ∀ r, R r ↔ R' r) :
  Rid R' sys sys'
  := by
  obtain rfl : R = R' := funext fun r => propext (hR r)
  exact h

/-- The loop of `clear_extended_custom_role` over some of the roles. -/
theorem clear_rid (e : Env) {l : List ℕ} (hl : ∀ r ∈ l, IsExtended r) (sys : RoleSystem) :
  Rid (fun r => r ∈ l ∧ (sys.roles r).isSome = true) sys
    (l.foldl (fun sys roleId =>
      if (sys.roles roleId).isSome then sys.removeRole e roleId else sys) sys)
  := by
  induction l generalizing sys with
  | nil =>
    have hnone : Rid (fun _ => False) sys sys :=
      ⟨fun r => by simp, rfl, Removed.refl sys.rows⟩
    exact hnone.congr (by simp)
  | cons roleId l ih =>
    have hl' : ∀ r ∈ l, IsExtended r := fun r hr => hl r (List.mem_cons_of_mem roleId hr)
    rw [List.foldl_cons]
    by_cases hpresent : (sys.roles roleId).isSome = true
    · rw [if_pos hpresent]
      have hroleId := hl roleId List.mem_cons_self
      have hfirst := removeRole_rid sys e hroleId
      have hcommon : ¬ RoleType.commonUser.value = roleId := by
        rintro rfl
        exact not_isExtended_commonUser hroleId
      apply (hfirst.trans (ih hl' _) hcommon).congr
      intro r
      rw [hfirst.roles, List.mem_cons]
      by_cases hr : r = roleId
      · simp [hr, hpresent]
      · simp [hr]
    · rw [if_neg hpresent]
      apply (ih hl' sys).congr
      intro r
      rw [List.mem_cons]
      constructor
      · exact fun h => ⟨.inr h.1, h.2⟩
      · rintro ⟨rfl | hr, hsome⟩
        · exact absurd hsome hpresent
        · exact ⟨hr, hsome⟩

/-! ## The roles of the accounts are there -/

/-- Every local and OEM account has a role that is there. -/
def RolesPresent (sys : RoleSystem) : Prop :=
  ∀ id a, sys.state.accounts.lookup id = some a → a.cls = .localAccount ∨ a.cls = .oemAccount →
    (sys.roles a.data.roleId).isSome = true

instance (sys : RoleSystem) : Decidable sys.RolesPresent :=
  decidable_of_iff (∀ e ∈ sys.state.accounts.entries,
    e.2.cls = .localAccount ∨ e.2.cls = .oemAccount → (sys.roles e.2.data.roleId).isSome = true)
    ⟨fun h id a ha => h ⟨id, a⟩ (Table.mem_entries_iff.mpr ha),
      fun h e he => h e.1 e.2 (Table.mem_entries_iff.mp he)⟩

theorem rolesPresent_iff_rows :
  sys.RolesPresent ↔
    ∀ id r, sys.rows id = some r → r.IsTied → (sys.roles r.standing.roleId).isSome = true
  := by
  constructor
  · intro h id r hr htied
    obtain ⟨a, ha, rfl⟩ := Option.map_eq_some_iff.mp hr
    exact h id a ha htied
  · intro h id a ha htied
    exact h id a.roleRow (by rw [rows, State.view, ha, Option.map_some]) htied

/-- The accounts can all leave the roles of `R`. -/
def CanLeave (R : ℕ → Prop) (sys : RoleSystem) : Prop :=
  Removable sys.HasCommonUser sys.state.config.emergencyLoginAccountId R sys.rows

theorem Rid.rolesPresent_iff (h : Rid R sys sys') (hR : ¬ R RoleType.commonUser.value)
    (hs : sys.RolesPresent) :
  sys'.RolesPresent ↔ sys.CanLeave R
  := by
  unfold CanLeave
  rw [← h.removed.left_iff hR, rolesPresent_iff_rows]
  rw [rolesPresent_iff_rows] at hs
  apply forall_congr'
  intro id
  apply forall_congr'
  intro r
  apply forall_congr'
  intro hr
  apply forall_congr'
  intro htied
  rw [h.roles]
  apply and_iff_right
  obtain hsame | ⟨x, -, -, ⟨hc, -, -⟩, hx⟩ := h.removed.rows id
  · exact hs id r (hsame ▸ hr) htied
  · obtain rfl := Option.some_inj.mp (hr.symm.trans hx)
    rw [htied.roleId_demote]
    exact hc

/-- Only the roles that are there count, where the accounts have no others. -/
theorem canLeave_congr (hs : sys.RolesPresent)
    (hR : ∀ r, (sys.roles r).isSome = true → (R r ↔ R' r)) :
  sys.CanLeave R ↔ sys.CanLeave R'
  := by
  rw [rolesPresent_iff_rows] at hs
  have key : ∀ P Q : ℕ → Prop, (∀ r, (sys.roles r).isSome = true → (P r ↔ Q r)) →
      sys.CanLeave P → sys.CanLeave Q := by
    intro P Q hPQ h id r hr htied hrole
    obtain ⟨hc, hid, hwritable, hother⟩ := h id r hr htied ((hPQ _ (hs id r hr htied)).mpr hrole)
    refine ⟨hc, hid, hwritable, fun hop => ?_⟩
    obtain ⟨j, x, hx, hxop, hxrole⟩ := hother hop
    exact ⟨j, x, hx, hxop, fun hq => hxrole ((hPQ _ (hs j x hx hxop.isTied)).mpr hq)⟩
  exact ⟨key R R' hR, key R' R fun r hr => (hR r hr).symm⟩

theorem newRole_eq_ok {roleId : ℕ} {assignedPrivs oemPrivs : List String}
    (h : sys.newRole roleId assignedPrivs oemPrivs = .ok sys') :
  ∃ r, sys' = { sys with roles := Function.update sys.roles roleId (some r) }
  := by
  unfold newRole at h
  simp only [bind, Except.bind, pure, Except.pure, throw, throwThe, MonadExceptOf.throw] at h
  repeat' split at h
  all_goals cases h
  exact ⟨_, rfl⟩

theorem rolesPresent_newRole (hs : sys.RolesPresent) (roleId : ℕ)
    (assignedPrivs oemPrivs : List String) :
  ((sys.newRole roleId assignedPrivs oemPrivs).toOption.getD sys).RolesPresent
  := by
  cases h : sys.newRole roleId assignedPrivs oemPrivs with
  | error err => exact hs
  | ok sys' =>
    obtain ⟨r, rfl⟩ := newRole_eq_ok h
    intro id a ha htied
    change (Function.update sys.roles roleId (some r) a.data.roleId).isSome = true
    by_cases hrole : a.data.roleId = roleId
    · rw [hrole, Function.update_self, Option.isSome_some]
    · rw [Function.update_of_ne hrole]
      exact hs id a ha htied

/-- A program that keeps the rows, but for one whose role is there. -/
theorem rolesPresent_run {α : Type} {m : M α} (hs : sys.RolesPresent)
    (h : (sys.run m).rows = sys.rows ∨ ∃ id r,
      (r.IsTied → (sys.roles r.standing.roleId).isSome = true) ∧
        (sys.run m).rows = Function.update sys.rows id (some r)) :
  (sys.run m).RolesPresent
  := by
  rw [rolesPresent_iff_rows] at *
  obtain h | ⟨id, r, hrole, h⟩ := h
  · rw [h]
    exact hs
  · rw [h]
    intro j x hx htied
    by_cases hj : j = id
    · subst hj
      rw [Function.update_self, Option.some_inj] at hx
      subst hx
      exact hrole htied
    · rw [Function.update_of_ne hj] at hx
      exact hs j x hx htied

theorem rolesPresent_setRoleId (hs : sys.RolesPresent) (e : Env) (id roleId : ℕ)
    (p : Option IpmiPrivilege) :
  (sys.run (setRoleId (sys.env e) id roleId p)).RolesPresent
  := by
  cases ha : sys.state.accounts.lookup id with
  | none =>
    have hexec : ∃ err, exec (setRoleId (sys.env e) id roleId p) sys.state
        = (.error err, sys.state) := by
      unfold setRoleId
      exact ⟨_, exec_bind_error (exec_getAccount_none ha)⟩
    obtain ⟨err, hexec⟩ := hexec
    have hstate : sys.run (setRoleId (sys.env e) id roleId p) = sys := by
      unfold run after
      rw [hexec]
    rw [hstate]
    exact hs
  | some a =>
    by_cases hacc : RoleChangeAccepted (sys.env e) sys.state id roleId a
    · obtain ⟨s', hexec, hview, -⟩ := exec_setRoleId_accepted p ha hacc
      have hrows : (sys.run (setRoleId (sys.env e) id roleId p)).rows = s'.view Account.roleRow := by
        unfold rows run after
        rw [hexec]
      refine rolesPresent_run hs (.inr ⟨id, _, ?_, hrows.trans hview⟩)
      intro htied
      rw [RoleRow.IsTied.roleId_assign (r := a.roleRow) htied]
      simpa [RoleSystem.env] using hacc.known.2
    · obtain ⟨err, hexec⟩ := exec_setRoleId_refused (p := p) ha hacc
      have hstate : sys.run (setRoleId (sys.env e) id roleId p) = sys := by
        unfold run after
        rw [hexec]
      rw [hstate]
      exact hs

end RoleSystem

theorem roleId_roleRow_init {env : Env} {info : Account.Info} {a : Account}
    (h : Account.init env info = .ok a) :
  a.roleRow.standing.roleId = info.roleId
  := by
  unfold Account.init at h
  split at h
  · cases h
  · split at h
    · cases h
    · cases h
      rfl

namespace RoleSystem

variable {sys : RoleSystem}

/-- A new account has a role that is there. -/
theorem rolesPresent_newAccount (hs : sys.RolesPresent) (e : Env) (info : Account.Info)
    (isIpmiOrSnmp : Bool) :
  (sys.run (newAccount (sys.env e) info isIpmiOrSnmp)).RolesPresent
  := by
  have hspec : Spec (ViewIs Account.roleRow sys.rows) (newAccount (sys.env e) info isIpmiOrSnmp)
      (fun _ s => s.view Account.roleRow = sys.rows ∨ ∃ i r,
        (r.IsTied → (sys.roles r.standing.roleId).isSome = true) ∧
          s.view Account.roleRow = Function.update sys.rows i (some r))
      (fun s => s.view Account.roleRow = sys.rows ∨ ∃ i r,
        (r.IsTied → (sys.roles r.standing.roleId).isSome = true) ∧
          s.view Account.roleRow = Function.update sys.rows i (some r)) := by
    apply (newAccount_init showsStored_roleRow (sys.env e) info isIpmiOrSnmp).weaken fun _ h => h
    · rintro i s ⟨-, hknown, a, ha, hview⟩
      refine .inr ⟨i, a.roleRow, fun _ => ?_, hview⟩
      rw [roleId_roleRow_init ha]
      simpa [RoleSystem.env] using hknown
    · exact fun s hs => .inl hs
  exact rolesPresent_run hs (hspec.after rfl)

end RoleSystem

/-! ## Runs -/

/-- An operation keeps the roles of the accounts in the collection: the accounts can leave the
role that is deleted, or the roles that are cleared. -/
def KeepsRoles (sys : RoleSystem) (c : RoleCall) : Prop :=
  match c.op with
  | .newRole _ _ _ => True
  | .deleteRole roleId =>
      sys.extendedCustomRoleEnabled = true → (sys.roles roleId).isSome = true →
        IsExtended roleId → sys.CanLeave (· = roleId)
  | .clearExtendedCustomRole => sys.CanLeave IsExtended
  | .newAccount _ _ => True
  | .setRoleId _ _ _ => True

namespace RoleSystem

variable {sys : RoleSystem}

theorem accepted_of_deleteRole_eq_ok {sys' : RoleSystem} {e : Env} {roleId : ℕ}
    (h : sys.deleteRole e roleId = .ok sys') :
  sys.extendedCustomRoleEnabled = true ∧ (sys.roles roleId).isSome = true ∧ IsExtended roleId
  := by
  unfold deleteRole at h
  simp only [bind, Except.bind, pure, Except.pure, throw, throwThe, MonadExceptOf.throw] at h
  repeat' split at h
  all_goals cases h
  rename_i henabled hpresent hext
  refine ⟨by simpa using henabled, ?_, not_not.mp hext⟩
  simpa [Option.isSome_iff_ne_none] using hpresent

theorem rolesPresent_deleteRole_iff (hs : sys.RolesPresent) (e : Env) (roleId : ℕ) :
  ((sys.deleteRole e roleId).toOption.getD sys).RolesPresent ↔
    (sys.extendedCustomRoleEnabled = true → (sys.roles roleId).isSome = true →
      IsExtended roleId → sys.CanLeave (· = roleId))
  := by
  by_cases hacc : sys.extendedCustomRoleEnabled = true ∧ (sys.roles roleId).isSome = true ∧
      IsExtended roleId
  · obtain ⟨henabled, hpresent, hext⟩ := hacc
    have hdelete : sys.deleteRole e roleId = .ok (sys.removeRole e roleId) := by
      unfold deleteRole
      simp [henabled, Option.isSome_iff_ne_none.mp hpresent, hext, pure, Except.pure]
    have hcommon : ¬ RoleType.commonUser.value = roleId := by
      rintro rfl
      exact not_isExtended_commonUser hext
    rw [hdelete]
    simp only [henabled, hpresent, hext, forall_const]
    exact (removeRole_rid _ e hext).rolesPresent_iff hcommon hs
  · have hdelete : (sys.deleteRole e roleId).toOption.getD sys = sys := by
      cases hdelete : sys.deleteRole e roleId with
      | error err => rfl
      | ok sys' => exact absurd (accepted_of_deleteRole_eq_ok hdelete) hacc
    rw [hdelete]
    exact iff_of_true hs fun h₁ h₂ h₃ => absurd ⟨h₁, h₂, h₃⟩ hacc

theorem rolesPresent_clearExtendedCustomRole_iff (hs : sys.RolesPresent) (e : Env) :
  (sys.clearExtendedCustomRole e).RolesPresent ↔ sys.CanLeave IsExtended
  := by
  have hext (r : ℕ) : r ∈ List.range' 9 12 ↔ IsExtended r := by
    rw [List.mem_range'_1, IsExtended]
    omega
  have hrid := clear_rid e (fun r hr => (hext r).mp hr) sys
  have hcommon : ¬ (RoleType.commonUser.value ∈ List.range' 9 12 ∧
      (sys.roles RoleType.commonUser.value).isSome = true) :=
    fun h => not_isExtended_commonUser ((hext _).mp h.1)
  apply (hrid.rolesPresent_iff hcommon hs).trans
  apply canLeave_congr hs
  intro r hr
  rw [hext, and_iff_left hr]

/-- One operation leaves every local and OEM account with a role that is there, exactly when it
meets the condition. -/
theorem step_rolesPresent_iff (hs : sys.RolesPresent) (c : RoleCall) :
  (sys.step c).RolesPresent ↔ KeepsRoles sys c
  := by
  obtain ⟨e, op⟩ := c
  cases op with
  | newRole roleId assignedPrivs oemPrivs =>
    exact iff_of_true (rolesPresent_newRole hs roleId assignedPrivs oemPrivs) trivial
  | deleteRole roleId => exact rolesPresent_deleteRole_iff hs e roleId
  | clearExtendedCustomRole => exact rolesPresent_clearExtendedCustomRole_iff hs e
  | newAccount info isIpmiOrSnmp =>
    exact iff_of_true (rolesPresent_newAccount hs e info isIpmiOrSnmp) trivial
  | setRoleId id roleId p =>
    exact iff_of_true (rolesPresent_setRoleId hs e id roleId p) trivial

/-- Every local and OEM account has a role that is there in every state of a run, exactly when
it has one at first and the accounts can leave whatever role is deleted or cleared. -/
theorem run_rolesPresent_iff (sys : RoleSystem) (cs : List RoleCall) :
  (∀ sys' ∈ Run.states step sys cs, sys'.RolesPresent) ↔
    sys.RolesPresent ∧ Run.Along step KeepsRoles sys cs
  := by
  constructor
  · intro h
    have hs : sys.RolesPresent := by
      apply h
      cases cs <;> exact List.mem_cons_self
    exact ⟨hs, (Run.invariant_iff (I := RolesPresent)
      (fun _ c hs => step_rolesPresent_iff hs c) hs).mp h⟩
  · rintro ⟨hs, hl⟩
    exact (Run.invariant_iff (I := RolesPresent)
      (fun _ c hs => step_rolesPresent_iff hs c) hs).mpr hl

/-- An administrator, and an account with an extended custom role that cannot be written. -/
def fixedRoleSystem : RoleSystem where
  state :=
    let user := plainAccount "user" 9 223
    plainState [(2, plainAccount "Administrator" 4 223),
      (3, { user with data := { user.data with roleIdWritable := false } })]
  roles r := if r ∈ [0, 2, 3, 4, 9] then some fun _ => false else none
  extendedCustomRoleEnabled := true

/-- An account whose role cannot be written keeps a role that is deleted. -/
theorem deleteRole_leaves_role :
  ¬ ∀ (sys : RoleSystem) (cs : List RoleCall), sys.RolesPresent →
    ∀ sys' ∈ Run.states step sys cs, sys'.RolesPresent
  := by
  intro h
  have hlast := h fixedRoleSystem [⟨plainEnv, .deleteRole 9⟩] (by decide +kernel) _
    (List.getLast_mem (by simp [Run.states]))
  revert hlast
  decide +kernel

end RoleSystem

end BmcAccount
