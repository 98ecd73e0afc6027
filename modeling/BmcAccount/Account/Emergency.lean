import BmcAccount.Account.Inactive
import BmcAccount.Account.RecoverAdmin

/-!
# The emergency account

The configuration names at most one emergency account, which must be an enabled
administrator. Every operation that could delete, demote or disable it has its own guard,
except that a recovery covers the account with whatever its record holds.

`Emergency R s` says that the configuration names no account or a valid one, and that `R`
holds of its identifier. The guards are triples that strengthen `R`.
-/

namespace BmcAccount

open Raise

/-! ## Setting the emergency account -/

/-- `check_password_valid_days`, for one account. -/
def Account.checkPasswordValidDays (env : Env) (cfg : Config) (id : ℕ) (a : Account) : Account :=
  if a.data.accountType != .localUser && a.data.accountType != .vnc then a
  else if cfg.maxPasswordValidDays != 0 && id = cfg.emergencyLoginAccountId then a
  else
    let remainDays := a.calculatePasswordValidTime env cfg id
    (a.updatePasswordExpireStatus env cfg (remainDays = 0)).setPasswordValidTime remainDays

/-- `check_password_valid_days`. -/
def checkPasswordValidDays (env : Env) : M Unit :=
  modify fun s =>
    { s with accounts := s.accounts.map (Account.checkPasswordValidDays env s.config) }

/-- The checks of `set_emergency_account` on the account it is given. -/
def acceptEmergencyAccount (env : Env) (id : ℕ) : M Unit := do
  refuse (id < minUserNum || maxUserNum < id) .emergencyLoginUserSettingFail
  let account ← getAccount id .invalidAccountId
  refuse (account.data.roleId != RoleType.administrator.value || !account.data.enabled)
    .emergencyLoginUserSettingFail
  updateAccount id fun cfg => Account.updatePasswordExpireStatus env cfg false

/-- `set_emergency_account`; the identifier `0` stands for no account. -/
def setEmergencyAccount (env : Env) (id : ℕ) : M Unit := do
  onlyIf (id != 0) (acceptEmergencyAccount env id)
  let s ← get
  let old := s.config.emergencyLoginAccountId
  modify fun s => { s with config := { s.config with emergencyLoginAccountId := id } }
  onlyIf (old != 0) (callAccount old fun _ a => .ok (a.setPasswordValidStartTime env.now))
  updateDeletable
  checkPasswordValidDays env

/-! ## The invariant -/

/-- The account is an enabled administrator by its role. -/
def Account.Guardian (a : Account) : Prop :=
  a.data.roleId = RoleType.administrator.value ∧ a.data.enabled = true

/-- The identifier is that of an account of the state that is an enabled administrator. -/
structure GuardedBy (s : State) (id : ℕ) : Prop where
  lower : 2 ≤ id
  upper : id ≤ 17
  guardian : ∃ a, s.accounts.lookup id = some a ∧ a.Guardian

/-- The configuration names no emergency account, or one that is an enabled administrator. -/
def State.EmergencyOk (s : State) : Prop :=
  s.config.emergencyLoginAccountId = 0 ∨ GuardedBy s s.config.emergencyLoginAccountId

/-- The emergency account is valid and its identifier satisfies `R`. -/
structure Emergency (R : ℕ → Prop) (s : State) : Prop where
  ok : s.EmergencyOk
  rest : R s.config.emergencyLoginAccountId

/-- The emergency account is valid. -/
abbrev AnyEmergency : State → Prop := Emergency fun _ => True

/-- The emergency account is valid and is not `id`. -/
abbrev OtherEmergency (id : ℕ) : State → Prop := Emergency fun e => e = 0 ∨ e ≠ id

section Blocks

variable {R : ℕ → Prop} {id : ℕ}

/-- Account by account, what a change must keep. -/
theorem Emergency.congr {s s' : State} (hs : Emergency R s)
    (hcfg : s'.config.emergencyLoginAccountId = s.config.emergencyLoginAccountId)
    (hacc : ∀ e a, e = s.config.emergencyLoginAccountId → e ≠ 0 → R e →
      s.accounts.lookup e = some a → a.Guardian →
      ∃ a', s'.accounts.lookup e = some a' ∧ a'.Guardian) :
  Emergency R s'
  := by
  refine ⟨?_, by rw [hcfg]; exact hs.rest⟩
  unfold State.EmergencyOk
  rw [hcfg]
  obtain hzero | ⟨hlo, hhi, a, ha, hg⟩ := hs.ok
  · exact Or.inl hzero
  · exact Or.inr ⟨hlo, hhi, hacc _ a rfl (by omega) hs.rest ha hg⟩

theorem Emergency.of_accounts_eq {s s' : State} (hs : Emergency R s)
    (hcfg : s'.config.emergencyLoginAccountId = s.config.emergencyLoginAccountId)
    (hacc : s'.accounts = s.accounts) :
  Emergency R s'
  := hs.congr hcfg fun _ a _ _ _ ha hg => ⟨a, by rw [hacc, ha], hg⟩

/-- A change of the account `id` keeps the invariant if it keeps an enabled administrator
one, where `id` can be the emergency account at all. -/
theorem Emergency.modifyAccount {f : Account → Account} {s : State} (hs : Emergency R s)
    (hself : id = s.config.emergencyLoginAccountId → id ≠ 0 → R id → ∀ a,
      s.accounts.lookup id = some a → a.Guardian → (f a).Guardian) :
  Emergency R (s.modifyAccount id f)
  := by
  refine hs.congr ?_ ?_
  · rfl
  intro e a he hzero hR ha hg
  by_cases hid : e = id
  · subst hid
    exact ⟨f a, by simp [State.modifyAccount, ha], hself he hzero hR a ha hg⟩
  · refine ⟨a, ?_, hg⟩
    simp only [State.modifyAccount]
    rw [Table.lookup_modify_ne hid, ha]

theorem updateAccount_keeps_emergency {f : Config → Account → Account}
    (hself : ∀ cfg a, R id → id ≠ 0 → Account.Guardian a → (f cfg a).Guardian) :
  Keeps (Emergency R) (updateAccount id f)
  := Keeps.modify fun _ hs => hs.modifyAccount fun _ hzero hR a _ => hself _ a hR hzero

theorem callAccount_keeps_emergency {f : Config → Account → Except Err Account}
    (hself : ∀ cfg a a', R id → id ≠ 0 → f cfg a = .ok a' → a.Guardian → a'.Guardian) :
  Keeps (Emergency R) (callAccount id f)
  := by
  unfold callAccount
  refine Spec.bind Spec.get fun s => ?_
  cases ha : s.accounts.lookup id with
  | none => exact Spec.throw fun _ h => h.2
  | some a =>
    simp only
    cases hf : f s.config a with
    | error e => exact Spec.throw fun _ h => h.2
    | ok a' =>
      apply Spec.modify
      rintro _ ⟨rfl, hs⟩
      apply hs.modifyAccount
      intro _ hzero hR b hb hg
      rw [ha, Option.some_inj] at hb
      subst hb
      exact hself _ a a' hR hzero hf hg

/-- Whatever is done to an account that is not the emergency account. -/
theorem updateAccount_keeps_otherEmergency {f : Config → Account → Account} :
  Keeps (OtherEmergency id) (updateAccount id f)
  := updateAccount_keeps_emergency fun _ _ hR hzero => absurd rfl (hR.resolve_left hzero)

theorem callAccount_keeps_otherEmergency {f : Config → Account → Except Err Account} :
  Keeps (OtherEmergency id) (callAccount id f)
  := callAccount_keeps_emergency fun _ _ _ hR hzero => absurd rfl (hR.resolve_left hzero)

theorem modify_keeps_emergency {f : State → State}
    (hcfg : ∀ s, (f s).config.emergencyLoginAccountId = s.config.emergencyLoginAccountId)
    (hacc : ∀ s, (f s).accounts = s.accounts) :
  Keeps (Emergency R) (modify f : M Unit)
  := Keeps.modify fun s hs => hs.of_accounts_eq (hcfg s) (hacc s)

theorem Account.Guardian.of_standing {a b : Account} (h : b.standing = a.standing)
    (hg : a.Guardian) :
  b.Guardian
  := by
  simp only [Account.standing, Standing.mk.injEq] at h
  unfold Account.Guardian
  rw [h.2.2.1, h.2.2.2.1]
  exact hg

theorem mapAccounts_keeps_emergency {f : Config → Bool → ℕ → Account → Account}
    {g : State → Bool} (hf : ∀ cfg b id a, (f cfg b id a).standing = a.standing) :
  Keeps (Emergency R) (modify fun s =>
    { s with accounts := s.accounts.map (f s.config (g s)) } : M Unit)
  := by
  apply Keeps.modify
  intro s hs
  refine hs.congr ?_ ?_
  · rfl
  intro e a _ _ _ ha hg
  exact ⟨f s.config (g s) e a, by simp [ha], hg.of_standing (hf ..)⟩

theorem updateDeletable_keeps_emergency :
  Keeps (Emergency R) updateDeletable
  := mapAccounts_keeps_emergency fun _ _ _ _ => Account.standing_updateDeletable ..

/-- Past the guard the account is not the emergency account. -/
theorem refuseEmergencyUser_spec {e : Err} :
  Spec AnyEmergency (refuseEmergencyUser true id e) (fun _ => OtherEmergency id) AnyEmergency
  := by
  unfold refuseEmergencyUser
  refine Spec.bind Spec.get fun s => Spec.refuse ?_ ?_
  · exact fun _ h => h.2
  · rintro _ ⟨rfl, hs⟩ hne
    refine ⟨hs.ok, Or.inr fun heq => ?_⟩
    simp [State.checkIsEmergencyUser, heq] at hne

theorem Emergency.any {s : State} (hs : Emergency R s) :
  AnyEmergency s
  := ⟨hs.ok, trivial⟩

/-- A program that keeps the account out of the emergency keeps the invariant. -/
theorem spec_any_of_keeps {α : Type} {m : M α} (h : Keeps (Emergency R) m) :
  Spec (Emergency R) m (fun _ => AnyEmergency) AnyEmergency
  := h.weaken (fun _ hs => hs) (fun _ _ hs => hs.any) fun _ hs => hs.any

end Blocks

/-! ## The guarded operations -/

theorem standing_updatePasswordExpireStatus (env : Env) (cfg : Config) (status : Bool)
    (a : Account) :
  (a.updatePasswordExpireStatus env cfg status).standing = a.standing
  := by
  unfold Account.updatePasswordExpireStatus
  split_ifs
  all_goals simp [Account.setPasswordChangeRequired, Account.standing_updatePrivileges]
  all_goals rfl

theorem standing_checkPasswordValidDays (env : Env) (cfg : Config) (id : ℕ) (a : Account) :
  (a.checkPasswordValidDays env cfg id).standing = a.standing
  := by
  unfold Account.checkPasswordValidDays
  split_ifs
  · rfl
  · rfl
  · exact standing_updatePasswordExpireStatus ..

/-- Past the checks the account is an enabled administrator. -/
theorem acceptEmergencyAccount_spec (env : Env) (id : ℕ) :
  Spec AnyEmergency (acceptEmergencyAccount env id)
    (fun _ s => AnyEmergency s ∧ GuardedBy s id) AnyEmergency
  := by
  unfold acceptEmergencyAccount
  refine Spec.bind (Q := fun _ s => AnyEmergency s ∧ 2 ≤ id ∧ id ≤ 17) (Spec.refuse ?_ ?_) ?_
  · exact fun _ h => h
  · intro s hs hrange
    rw [Bool.or_eq_false_iff, decide_eq_false_iff_not, decide_eq_false_iff_not, not_lt, not_lt]
      at hrange
    exact ⟨hs, hrange⟩
  intro _
  refine Spec.bind (getAccount_spec fun _ h => h.1) fun a => ?_
  refine Spec.bind (Spec.refuse (S := fun s => AnyEmergency s ∧ GuardedBy s id) ?_ ?_) fun _ => ?_
  · exact fun _ h => h.2.1
  · rintro s ⟨ha, hs, hlo, hhi⟩ hadmin
    refine ⟨hs, hlo, hhi, a, ha, ?_⟩
    simpa [Account.Guardian] using hadmin
  · apply Spec.modify
    rintro s ⟨hs, hlo, hhi, b, hb, hg⟩
    refine ⟨hs.modifyAccount fun _ _ _ a _ hg => hg.of_standing ?_, hlo, hhi, ?_⟩
    · exact standing_updatePasswordExpireStatus ..
    · refine ⟨b.updatePasswordExpireStatus env s.config false, ?_, hg.of_standing ?_⟩
      · simp [State.modifyAccount, hb]
      · exact standing_updatePasswordExpireStatus ..

theorem setEmergencyAccount_keeps (env : Env) (id : ℕ) :
  Keeps AnyEmergency (setEmergencyAccount env id)
  := by
  unfold setEmergencyAccount
  have haccept : Spec AnyEmergency (onlyIf (id != 0) (acceptEmergencyAccount env id))
      (fun _ s => AnyEmergency s ∧ (id = 0 ∨ GuardedBy s id)) AnyEmergency := by
    apply Spec.onlyIf
    · intro _
      exact (acceptEmergencyAccount_spec env id).weaken (fun _ h => h)
        (fun _ _ h => ⟨h.1, Or.inr h.2⟩) fun _ h => h
    · intro hzero s hs
      exact ⟨hs, Or.inl (by simpa using hzero)⟩
  refine Spec.bind haccept fun _ => Spec.bind Spec.get fun s => ?_
  refine Spec.bind (Q := fun _ => AnyEmergency) (Spec.modify ?_) fun _ => ?_
  · rintro _ ⟨rfl, -, hid⟩
    exact ⟨hid.imp (fun h => h) fun h => ⟨h.lower, h.upper, h.guardian⟩, trivial⟩
  refine Keeps.bind (Keeps.onlyIf ?_) fun _ => Keeps.bind updateDeletable_keeps_emergency fun _ => ?_
  · apply callAccount_keeps_emergency
    rintro cfg a a' - - h hg
    cases h
    exact hg
  · exact mapAccounts_keeps_emergency (f := fun cfg _ => Account.checkPasswordValidDays env cfg)
      (g := fun _ => true) fun _ _ _ _ => standing_checkPasswordValidDays ..

theorem leaveTrapAccount_keeps_emergency {R : ℕ → Prop} {id : ℕ} :
  Keeps (Emergency R) (leaveTrapAccount id)
  := by
  unfold leaveTrapAccount changeSnmpV3TrapAccount
  refine Keeps.bind Keeps.get fun s => Keeps.ite Keeps.throw (Keeps.ite ?_ Keeps.pure)
  refine Keeps.bind Keeps.get fun s => Keeps.bind Keeps.refuse fun _ => ?_
  exact modify_keeps_emergency (fun _ => rfl) fun _ => rfl

theorem removeAccount_keeps_emergency {id : ℕ} :
  Keeps (OtherEmergency id) (removeAccount id)
  := by
  unfold removeAccount
  refine Keeps.bind updateAccount_keeps_otherEmergency fun _ => ?_
  refine Keeps.bind ?_ fun _ => ?_
  · exact modify_keeps_emergency (fun _ => rfl) fun _ => rfl
  refine Keeps.bind updateAccount_keeps_otherEmergency fun _ => ?_
  refine Keeps.bind getAccount_keeps fun a => ?_
  refine Keeps.bind Keeps.refuse fun _ => Keeps.bind (Keeps.modify ?_) fun _ => ?_
  · intro s hs
    refine hs.congr ?_ ?_
    · rfl
    intro e a _ hzero hR ha hg
    refine ⟨a, ?_, hg⟩
    rw [AList.lookup_erase_ne (hR.resolve_left hzero)]
    exact ha
  · exact updateDeletable_keeps_emergency

/-- The inter-chassis account is none of those that the emergency account is chosen from. -/
theorem otherEmergency_interChassis {s : State} (hs : AnyEmergency s) :
  OtherEmergency interChassisAccountId s
  := by
  refine ⟨hs.ok, hs.ok.imp id fun h heq => ?_⟩
  have hupper := h.upper
  rw [heq] at hupper
  revert hupper
  decide

theorem deleteAccount_keeps_emergency (env : Env) (id : ℕ) (skipped : Bool) :
  Keeps AnyEmergency (deleteAccount env id skipped)
  := by
  unfold deleteAccount
  apply Keeps.ite
  · have hinter : Keeps (OtherEmergency interChassisAccountId)
        (recoverInterChassisAccountToDefault env) := by
      unfold recoverInterChassisAccountToDefault
      refine Keeps.bind callAccount_keeps_otherEmergency fun _ => ?_
      refine Keeps.bind getAccount_keeps fun a => Keeps.onlyIf ?_
      exact Keeps.bind Keeps.refuse fun _ => callAccount_keeps_otherEmergency
    exact hinter.weaken (fun _ => otherEmergency_interChassis) (fun _ _ h => h.any)
      fun _ h => h.any
  · refine Keeps.bind getAccount_keeps fun a => Keeps.bind Keeps.refuse fun _ => ?_
    refine Keeps.bind Keeps.refuse fun _ => Spec.bind refuseEmergencyUser_spec fun _ => ?_
    apply spec_any_of_keeps
    refine Keeps.bind refuseLastOperateAdmin_keeps fun _ => ?_
    refine Keeps.bind leaveTrapAccount_keeps_emergency fun _ => Keeps.bind Keeps.refuse fun _ => ?_
    exact Keeps.bind Keeps.refuse fun _ => removeAccount_keeps_emergency

theorem limitFirstChannel_keeps_emergency {R : ℕ → Prop} {id : ℕ} {p : IpmiPrivilege} :
  Keeps (Emergency R) (limitFirstChannel id p)
  := by
  unfold limitFirstChannel
  refine Keeps.bind Keeps.get fun s => Keeps.ite ?_ Keeps.pure
  cases s.channel id 1 with
  | none => exact Keeps.pure
  | some row => exact modify_keeps_emergency (fun _ => rfl) fun _ => rfl

theorem setRoleId_keeps_emergency (env : Env) (id roleId : ℕ) (p : Option IpmiPrivilege) :
  Keeps AnyEmergency (setRoleId env id roleId p)
  := by
  unfold setRoleId
  refine Keeps.bind getAccount_keeps fun _ => Keeps.bind Keeps.refuse fun _ => ?_
  refine Keeps.bind refuseLastOperateAdmin_keeps fun _ => ?_
  refine Spec.bind refuseEmergencyUser_spec fun _ => spec_any_of_keeps ?_
  refine Keeps.bind callAccount_keeps_otherEmergency fun _ => ?_
  refine Keeps.bind updateAccount_keeps_otherEmergency fun _ => ?_
  exact Keeps.bind limitFirstChannel_keeps_emergency fun _ => updateDeletable_keeps_emergency

/-- Enabling an account makes no enabled administrator anything else. -/
theorem Account.Guardian.setEnabled {env : Env} {a a' : Account}
    (h : a.setEnabled env true = .ok a') (hg : a.Guardian) :
  a'.Guardian
  := by
  unfold Account.setEnabled at h
  simp only [hg.2, Bool.not_true, Bool.false_and, Bool.false_eq_true, if_false] at h
  split at h
  · split_ifs at h
    cases h
    exact ⟨hg.1, rfl⟩
  · split_ifs at h
    cases h
    exact ⟨hg.1, rfl⟩
  · cases h
    exact hg

theorem setEnabled_keeps_emergency (env : Env) (id : ℕ) (status : Bool) :
  Keeps AnyEmergency (setEnabled env id status)
  := by
  unfold setEnabled
  refine Keeps.bind refuseLastOperateAdmin_keeps fun _ => ?_
  cases status with
  | true =>
    refine Keeps.bind refuseEmergencyUser_keeps fun _ => Keeps.bind ?_ fun _ => Keeps.onlyIf ?_
    · exact callAccount_keeps_emergency fun _ _ _ _ _ h hg => hg.setEnabled h
    · apply updateAccount_keeps_emergency
      exact fun _ _ _ _ hg => hg.of_standing (Account.standing_updateInactiveUserStartTime ..)
  | false =>
    refine Spec.bind refuseEmergencyUser_spec fun _ => spec_any_of_keeps ?_
    exact Keeps.bind callAccount_keeps_otherEmergency fun _ =>
      Keeps.onlyIf updateAccount_keeps_otherEmergency

theorem setIpmiUserAccess_keeps_emergency (env : Env) (req : UserAccessReq) (ctx : IpmiCtx) :
  Keeps AnyEmergency (setIpmiUserAccess env req ctx)
  := by
  unfold setIpmiUserAccess
  refine Keeps.bind Keeps.get fun s => ?_
  cases ipmiSetUserAccessInputCheck env req ctx s with
  | error e => exact Keeps.throw
  | ok r =>
    refine Keeps.bind Keeps.refuse fun _ => ?_
    refine Keeps.bind (Keeps.onlyIf ?_) fun _ => Keeps.bind ?_ fun _ => ?_
    · exact setRoleId_keeps_emergency env req.userId _ _
    · exact modify_keeps_emergency (fun _ => rfl) fun _ => rfl
    · apply updateAccount_keeps_emergency
      intro cfg a _ _ hg
      have hst := standing_setIpmiUserAccess req r.1 a
      simp only [Account.standing, Standing.mk.injEq] at hst
      unfold Account.Guardian
      rw [hst.2.2.1, hst.2.2.2.1]
      exact hg

/-- The sweep passes over the emergency account. -/
theorem updateInactiveStatus_keeps_emergency {env : Env} {s : State} (order : List ℕ)
    (hs : AnyEmergency s) :
  AnyEmergency (after (updateInactiveStatus env order) s)
  := by
  apply updateInactiveStatus_keeps _ order hs
  intro s' id a hcfg hs' _ hidle _
  apply hs'.modifyAccount
  intro he
  rw [hcfg] at he
  exact absurd he hidle.notEmergency

/-! ## Recovery -/

section Config

variable {C : Config → Prop}

theorem updateAccount_keeps_config {id : ℕ} {f : Config → Account → Account} :
  Keeps (fun s => C s.config) (updateAccount id f)
  := Keeps.modify fun _ h => h

theorem callAccount_keeps_config {id : ℕ} {f : Config → Account → Except Err Account} :
  Keeps (fun s => C s.config) (callAccount id f)
  := by
  unfold callAccount
  refine Keeps.bind Keeps.get fun s => ?_
  cases s.accounts.lookup id with
  | none => exact Keeps.throw
  | some a =>
    simp only
    cases f s.config a with
    | error e => exact Keeps.throw
    | ok a' => exact Keeps.modify fun _ h => h

theorem changeUserName_keeps_config (env : Env) (id : ℕ) (name : String) :
  Keeps (fun s => C s.config) (changeUserName env id name)
  := by
  unfold changeUserName
  refine Keeps.bind getAccount_keeps fun a => ?_
  cases env.checkUserName a.data.accountType name with
  | none => exact Keeps.throw
  | some allowed =>
    refine Keeps.bind Keeps.refuse fun _ => Keeps.bind callAccount_keeps_config fun _ => ?_
    exact Keeps.bind callAccount_keeps_config fun _ => updateAccount_keeps_config

theorem forDup_keeps {I : State → Prop} {dup : Option ℕ} {m : ℕ → M Unit}
    (h : ∀ d, Keeps I (m d)) :
  Keeps I (forDup dup m)
  := by
  cases dup with
  | none => exact Keeps.pure
  | some d => exact h d

theorem renameDup_keeps_config (env : Env) (b : BackupRecord) (d : ℕ) :
  Keeps (fun s => C s.config) (renameDup env b d)
  := Keeps.bind refuseLastOperateAdmin_keeps fun _ => changeUserName_keeps_config env d _

theorem coverAccountInfo_keeps_config (env : Env) (id : ℕ) (b : BackupRecord) :
  Keeps (fun s => C s.config) (coverAccountInfo env id b)
  := by
  unfold coverAccountInfo recover
  refine Keeps.bind getAccount_keeps fun a => Keeps.bind refuseLastOperateAdmin_keeps fun _ => ?_
  refine Keeps.bind ?_ fun _ => updateAccount_keeps_config
  refine Keeps.bind updateAccount_keeps_config fun _ => Keeps.bind callAccount_keeps_config fun _ => ?_
  unfold recoverIpmiChannelData
  cases b.ipmiChannelData with
  | none => exact Keeps.forM fun _ _ => Keeps.modify fun _ h => h
  | some l =>
    apply Keeps.forM
    intro c _
    cases c with
    | none => exact Keeps.throw
    | some c => exact Keeps.modify fun _ h => h

theorem forceDeleteAccount_keeps_config (id : ℕ) :
  Keeps (fun s => C s.config) (forceDeleteAccount id)
  := by
  unfold forceDeleteAccount removeAccount
  refine Keeps.bind getAccount_keeps fun _ => Keeps.bind updateAccount_keeps_config fun _ => ?_
  refine Keeps.bind (Keeps.modify fun _ h => h) fun _ => ?_
  refine Keeps.bind updateAccount_keeps_config fun _ => Keeps.bind getAccount_keeps fun _ => ?_
  refine Keeps.bind Keeps.refuse fun _ => Keeps.bind (Keeps.modify fun _ h => h) fun _ => ?_
  exact Keeps.modify fun _ h => h

theorem newAccountToDbAndMdb_keeps_config (env : Env) (id : ℕ) (info : Account.Info)
    (isIpmiOrSnmp : Bool) :
  Keeps (fun s => C s.config) (newAccountToDbAndMdb env id info isIpmiOrSnmp)
  := by
  unfold newAccountToDbAndMdb
  refine Keeps.bind Keeps.get fun s => Keeps.bind (Keeps.onlyIf (require_keeps _)) fun _ => ?_
  cases Account.init env info with
  | error e => exact Keeps.throw
  | ok a =>
    refine Keeps.bind (Keeps.modify fun _ h => h) fun _ => Keeps.bind (Keeps.modify ?_) fun _ => ?_
    · intro s h
      rw [config_newAccountChannels]
      exact h
    refine Keeps.bind updateAccount_keeps_config fun _ => ?_
    exact Keeps.bind (Keeps.modify fun _ h => h) fun _ => Keeps.modify fun _ h => h

theorem newAccount_keeps_config (env : Env) (info : Account.Info) (isIpmiOrSnmp : Bool) :
  Keeps (fun s => C s.config) (newAccount env info isIpmiOrSnmp)
  := by
  unfold newAccount
  cases env.checkUserName (if info.oem then .oem else .localUser) info.name with
  | none => exact Keeps.throw
  | some allowed =>
    refine Keeps.bind Keeps.refuse fun _ => Keeps.bind Keeps.refuse fun _ => ?_
    refine Keeps.bind Keeps.get fun s => ?_
    cases getValidAccountId s info.id info.oem with
    | error e => exact Keeps.throw
    | ok id =>
      refine Keeps.bind Keeps.refuse fun _ => Keeps.bind ?_ fun _ => Keeps.pure
      exact newAccountToDbAndMdb_keeps_config env id info isIpmiOrSnmp

/-- A recovery changes the configuration only by forgetting an account. -/
theorem recoverAccount_keeps_config (hC : ∀ cfg id, C cfg → C (cfg.forget id)) (env : Env)
    (order : List ℕ) (id : ℕ) :
  Keeps (fun s => C s.config) (recoverAccount env order id)
  := by
  have hback (dup : Option ℕ) (name : String) (e : Err) : Keeps (fun s : State => C s.config)
      (do forDup dup (fun d => changeUserName env d name); throw e : M Unit) :=
    Keeps.bind (forDup_keeps fun d => changeUserName_keeps_config env d name) fun _ => Keeps.throw
  have hdelete (dup : Option ℕ) : Keeps (fun s : State => C s.config) (forDup dup deleteUser) :=
    forDup_keeps fun _ => Keeps.bind (Keeps.modify fun _ h => hC _ _ h) fun _ =>
      forceDeleteAccount_keeps_config _
  unfold recoverAccount
  refine Keeps.bind Keeps.refuse fun _ => Keeps.bind Keeps.get fun s => ?_
  cases s.backup.lookup id with
  | none => exact Keeps.throw
  | some b =>
    apply Keeps.ite
    · unfold recoverAccountWhileIdNotExist
      refine Keeps.bind Keeps.get fun s => Keeps.bind (forDup_keeps (renameDup_keeps_config env b))
        fun _ => ?_
      refine Keeps.bind (Keeps.protect ?_ fun e => hback _ _ e) fun _ => ?_
      · exact Keeps.bind (newAccount_keeps_config env _ _) fun _ => Keeps.pure
      refine Keeps.bind (Keeps.protect (coverAccountInfo_keeps_config env id b) fun e => ?_) fun _ =>
        hdelete _
      exact Keeps.bind (forceDeleteAccount_keeps_config id) fun _ => hback _ _ e
    · unfold recoverAccountWhileIdExist
      refine Keeps.bind Keeps.get fun s => Keeps.bind (forDup_keeps (renameDup_keeps_config env b))
        fun _ => ?_
      exact Keeps.bind (Keeps.protect (coverAccountInfo_keeps_config env id b) fun e => hback _ _ e)
        fun _ => hdelete _

end Config

/-- The record makes the account an enabled administrator. -/
def BackupRecord.Guardian (b : BackupRecord) : Prop :=
  b.accountData.roleId = RoleType.administrator.value ∧ b.accountData.enabled = true

/-- A recovery of the emergency account is stopped, or its record is one of an enabled
administrator. -/
def RecoverHarmless (env : Env) (order : List ℕ) (s : State) (id : ℕ) : Prop :=
  id = s.config.emergencyLoginAccountId → ∀ b, s.backup.lookup id = some b →
    ExistRefused env order s id b ∨ b.Guardian

theorem guardedBy_iff_core (s : State) (e : ℕ) :
  GuardedBy s e ↔ 2 ≤ e ∧ e ≤ 17 ∧ ∃ c, s.core e = some c ∧
    c.standing.roleId = RoleType.administrator.value ∧ c.standing.enabled = true
  := by
  constructor
  · rintro ⟨hlo, hhi, a, ha, hg⟩
    exact ⟨hlo, hhi, a.core, by simp [State.core, ha], hg⟩
  · rintro ⟨hlo, hhi, c, hc, hg⟩
    obtain ⟨a, ha, rfl⟩ := Option.map_eq_some_iff.mp hc
    exact ⟨hlo, hhi, a, ha, hg⟩

theorem guardedBy_congr {s s' : State} {e : ℕ} (h : s'.core e = s.core e) :
  GuardedBy s' e ↔ GuardedBy s e
  := by
  rw [guardedBy_iff_core, guardedBy_iff_core, h]

/-- After a recovery that is not stopped the emergency account is guarded as before, unless
it has been covered or deleted. -/
theorem Recovered.guardedBy {order : List ℕ} {s s' : State} {id e : ℕ} {b : BackupRecord} {c : Core}
    (h : Recovered order s id b (c.covered b) s') (hs : GuardedBy s e) (hid : id = e → b.Guardian)
    (hcfg : s'.config.emergencyLoginAccountId = e) :
  GuardedBy s' e
  := by
  by_cases heq : e = id
  · subst heq
    obtain ⟨hlo, hhi, -⟩ := hs
    exact (guardedBy_iff_core _ _).mpr ⟨hlo, hhi, _, h.self, hid rfl⟩
  · by_cases hrem : DupRemoved order s id b e
    · have hzero : s'.config.emergencyLoginAccountId = 0 ∨
          s'.config.emergencyLoginAccountId ≠ e := by
        rw [h.config e hrem]
        simp only [Config.forget]
        split_ifs with he
        · exact Or.inl rfl
        · exact Or.inr fun h => he h.symm
      have hlo := hs.lower
      omega
    · exact (guardedBy_congr (h.others e heq hrem)).mpr hs

/-- A harmless recovery keeps the emergency account valid. -/
theorem recoverAccount_emergencyOk {env : Env} {order : List ℕ} {s : State} {id : ℕ}
    (hs : s.EmergencyOk) (h : RecoverHarmless env order s id) :
  (after (recoverAccount env order id) s).EmergencyOk
  := by
  have hcfg : (after (recoverAccount env order id) s).config.emergencyLoginAccountId = 0 ∨
      (after (recoverAccount env order id) s).config.emergencyLoginAccountId
        = s.config.emergencyLoginAccountId := by
    refine (recoverAccount_keeps_config (C := fun cfg => cfg.emergencyLoginAccountId = 0 ∨
      cfg.emergencyLoginAccountId = s.config.emergencyLoginAccountId) ?_ env order id).after
      (Or.inr rfl)
    intro cfg d hd
    simp only [Config.forget]
    split_ifs
    · exact Or.inl rfl
    · exact hd
  unfold State.EmergencyOk
  refine or_iff_not_imp_left.mpr fun hne => ?_
  have heq := hcfg.resolve_left hne
  rw [heq] at hne ⊢
  have hguard : GuardedBy s s.config.emergencyLoginAccountId := hs.resolve_left hne
  by_cases hid : 2 ≤ id ∧ id ≤ 17
  swap
  · have hrange : (decide (id < 2) || decide (17 < id)) = true := by
      simp only [Bool.or_eq_true, decide_eq_true_eq]
      omega
    unfold recoverAccount after
    rw [hrange, exec_bind_error (exec_refuse_true _ s)]
    exact hguard
  cases hb : s.backup.lookup id with
  | none =>
    have hrange : (decide (id < 2) || decide (17 < id)) = false := by
      simp only [Bool.or_eq_false_iff, decide_eq_false_iff_not]
      omega
    unfold recoverAccount after
    rw [hrange, exec_bind_ok (exec_refuse_false _ s), exec_bind_ok (exec_get s)]
    simp only [hb]
    exact hguard
  | some b =>
    revert heq
    unfold after
    rw [exec_recoverAccount hid hb]
    cases hlook : s.accounts.lookup id with
    | none =>
      have hnone : s.core id = none := by simp [State.core, hlook]
      rw [if_pos Option.isNone_none]
      intro heq
      by_cases href : NotExistRefused env order s id b
      · have hcore := recoverAccountWhileIdNotExist_refused hid hnone href
        exact (guardedBy_congr (congrFun hcore _)).mpr hguard
      · refine (recoverAccountWhileIdNotExist_recovered hid hnone href).guardedBy hguard ?_ heq
        intro he
        obtain ⟨a, ha, -⟩ := hguard.guardian
        rw [← he, hlook] at ha
        cases ha
    | some a =>
      have hc : s.core id = some a.core := by simp [State.core, hlook]
      rw [if_neg (by simp)]
      intro heq
      by_cases href : ExistRefused env order s id b
      · have hcore := recoverAccountWhileIdExist_refused href
        exact (guardedBy_congr (congrFun hcore _)).mpr hguard
      · refine (recoverAccountWhileIdExist_recovered hc href).guardedBy hguard ?_ heq
        exact fun he => (h he b hb).resolve_left href

/-! ## Runs -/

/-- The operations that can concern the emergency account, with their arguments. The
accounts are visited in the given orders. -/
inductive EmergencyOp where
  | setEmergencyAccount (id : ℕ)
  | deleteAccount (id : ℕ) (validationSkipped : Bool)
  | setEnabled (id : ℕ) (status : Bool)
  | setRoleId (id roleId : ℕ)
  | setIpmiUserAccess (req : UserAccessReq) (ctx : IpmiCtx)
  | updateInactiveStatus (order : List ℕ)
  | recoverAccount (order : List ℕ) (id : ℕ)

/-- A call of an operation, with what it sees of the rest of the system. -/
structure EmergencyCall where
  env : Env
  op : EmergencyOp

/-- The program of a call. -/
def EmergencyCall.prog (c : EmergencyCall) : M Unit :=
  match c.op with
  | .setEmergencyAccount id => BmcAccount.setEmergencyAccount c.env id
  | .deleteAccount id skipped => BmcAccount.deleteAccount c.env id skipped
  | .setEnabled id status => BmcAccount.setEnabled c.env id status
  | .setRoleId id roleId => BmcAccount.setRoleId c.env id roleId none
  | .setIpmiUserAccess req ctx => BmcAccount.setIpmiUserAccess c.env req ctx
  | .updateInactiveStatus order => BmcAccount.updateInactiveStatus c.env order
  | .recoverAccount order id => BmcAccount.recoverAccount c.env order id

/-- The state after a call, whether it succeeds or raises. -/
def emergencyStep (s : State) (c : EmergencyCall) : State := after c.prog s

/-- The call is no recovery that spoils the emergency account. -/
def EmergencyCall.Harmless (s : State) (c : EmergencyCall) : Prop :=
  match c.op with
  | .recoverAccount order id => RecoverHarmless c.env order s id
  | _ => True

/-- A harmless call keeps the emergency account valid. -/
theorem emergencyStep_emergencyOk {s : State} (hs : s.EmergencyOk) {c : EmergencyCall}
    (hc : c.Harmless s) :
  (emergencyStep s c).EmergencyOk
  := by
  have hany : AnyEmergency s := ⟨hs, trivial⟩
  obtain ⟨env, op⟩ := c
  cases op with
  | setEmergencyAccount id => exact ((setEmergencyAccount_keeps env id).after hany).ok
  | deleteAccount id skipped => exact ((deleteAccount_keeps_emergency env id skipped).after hany).ok
  | setEnabled id status => exact ((setEnabled_keeps_emergency env id status).after hany).ok
  | setRoleId id roleId => exact ((setRoleId_keeps_emergency env id roleId none).after hany).ok
  | setIpmiUserAccess req ctx =>
    exact ((setIpmiUserAccess_keeps_emergency env req ctx).after hany).ok
  | updateInactiveStatus order => exact (updateInactiveStatus_keeps_emergency order hany).ok
  | recoverAccount order id => exact recoverAccount_emergencyOk hs hc

/-- Along every run of harmless calls the emergency account is valid after each call. -/
theorem run_emergencyOk (s : State) (hs : s.EmergencyOk) (calls : List EmergencyCall)
    (h : Run.Along emergencyStep (fun s c => c.Harmless s) s calls) :
  ∀ s' ∈ Run.states emergencyStep s calls, s'.EmergencyOk
  := by
  apply Run.invariant _ hs h
  intro s c hs hc
  exact emergencyStep_emergencyOk hs hc

instance (a : Account) : Decidable a.Guardian := inferInstanceAs (Decidable (_ ∧ _))

/-- The same as `EmergencyOk`, as a test. -/
def State.emergencyCheck (s : State) : Bool :=
  s.config.emergencyLoginAccountId = 0 ||
    (2 ≤ s.config.emergencyLoginAccountId && s.config.emergencyLoginAccountId ≤ 17 &&
      (s.accounts.lookup s.config.emergencyLoginAccountId).any fun a => decide a.Guardian)

theorem emergencyCheck_iff (s : State) :
  s.emergencyCheck = true ↔ s.EmergencyOk
  := by
  unfold State.emergencyCheck State.EmergencyOk
  simp only [Bool.or_eq_true, Bool.and_eq_true, decide_eq_true_eq, Option.any_eq_true]
  refine or_congr_right ⟨fun h => ⟨h.1.1, h.1.2, h.2⟩, fun h => ⟨⟨h.lower, h.upper⟩, h.guardian⟩⟩

/-- An administrator and an operator, whose records have been written. -/
def operatorRecord : State :=
  after (backupAccountInfo plainEnv)
    (plainState [(2, plainAccount "Administrator" 4 223), (3, plainAccount "user" 3 1)])

/-- The operator is made an administrator and the emergency account, and is then given back
the role that its record holds. -/
def spoiltEmergency : List EmergencyCall :=
  [⟨plainEnv, .setRoleId 3 4⟩, ⟨plainEnv, .setEmergencyAccount 3⟩,
   ⟨plainEnv, .recoverAccount [2, 3] 3⟩]

theorem recovery_spoils_emergency :
  ¬ ∀ (s : State) (calls : List EmergencyCall), s.EmergencyOk →
    ∀ s' ∈ Run.states emergencyStep s calls, s'.EmergencyOk
  := by
  intro h
  have hlast := h operatorRecord spoiltEmergency ((emergencyCheck_iff _).mp (by decide +kernel)) _
    (List.getLast_mem (by simp [spoiltEmergency, Run.states]))
  rw [← emergencyCheck_iff] at hlast
  revert hlast
  decide +kernel

/-- The same run with the recovery of the other account. -/
theorem run_emergencyOk_other_recovered :
  operatorRecord.EmergencyOk
    ∧ ∀ s' ∈ Run.states emergencyStep operatorRecord
      [⟨plainEnv, .setRoleId 3 4⟩, ⟨plainEnv, .setEmergencyAccount 3⟩,
       ⟨plainEnv, .recoverAccount [2, 3] 2⟩], s'.EmergencyOk
  := by
  have hstart : operatorRecord.EmergencyOk := (emergencyCheck_iff _).mp (by decide +kernel)
  refine ⟨hstart, run_emergencyOk _ hstart _ ?_⟩
  refine ⟨trivial, trivial, fun h => absurd h ?_, trivial⟩
  decide +kernel

end BmcAccount
