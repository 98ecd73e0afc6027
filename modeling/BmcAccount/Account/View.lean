import BmcAccount.Account.Admin
import BmcAccount.Account.Create

/-!
# Views of the collection

A property of the collection often looks only at a part of each account: its name, or its
role and privileges. A view is a function on accounts, and `s.view v` is what it shows of
each account of the state. What the operations on states do to a view follows from what they
do to the accounts, whatever the view is.
-/

namespace BmcAccount

open Raise

variable {β : Type} {v : Account → β}

namespace State

/-- What `v` shows of each account. -/
def view (v : Account → β) (s : State) (id : ℕ) : Option β :=
  (s.accounts.lookup id).map v

theorem view_modifyAccount (s : State) (id : ℕ) (f : Account → Account) :
  (s.modifyAccount id f).view v
    = Function.update (s.view v) id ((s.accounts.lookup id).map fun a => v (f a))
  := by
  funext j
  by_cases hj : j = id
  · subst hj
    simp [view, modifyAccount, Function.comp_def]
  · simp [view, modifyAccount, hj, Table.lookup_modify_ne hj]

/-- A change of one account that the view does not show. -/
theorem view_modifyAccount_same {s : State} {id : ℕ} {f : Account → Account}
    (h : ∀ a, s.accounts.lookup id = some a → v (f a) = v a) :
  (s.modifyAccount id f).view v = s.view v
  := by
  rw [view_modifyAccount, Function.update_eq_self_iff]
  cases ha : s.accounts.lookup id with
  | none => simp [view, ha]
  | some a => simp [view, ha, h a ha]

/-- A change of all accounts that the view does not show. -/
theorem view_mapAccounts {s : State} {f : ℕ → Account → Account}
    (h : ∀ id a, v (f id a) = v a) :
  { s with accounts := s.accounts.map f }.view v = s.view v
  := by
  funext id
  simp only [view, Table.lookup_map, Option.map_map]
  cases s.accounts.lookup id with
  | none => rfl
  | some a => simp [h]

theorem view_insertAccount (s : State) (id : ℕ) (a : Account) :
  { s with accounts := s.accounts.insert id a }.view v
    = Function.update (s.view v) id (some (v a))
  := by
  funext j
  by_cases hj : j = id
  · subst hj
    simp [view]
  · simp [view, hj, AList.lookup_insert_ne hj]

theorem view_eraseAccount (s : State) (id : ℕ) :
  { s with accounts := s.accounts.erase id }.view v = Function.update (s.view v) id none
  := by
  funext j
  by_cases hj : j = id
  · subst hj
    simp [view, AList.lookup_erase]
  · simp [view, hj, AList.lookup_erase_ne hj]

theorem view_eq_none_iff {s : State} {id : ℕ} :
  s.view v id = none ↔ s.accounts.lookup id = none
  := Option.map_eq_none_iff

end State

/-- The view shows `T`. -/
def ViewIs (v : Account → β) (T : ℕ → Option β) (s : State) : Prop :=
  s.view v = T

section Rules

variable {T : ℕ → Option β} {id : ℕ} {E : State → Prop}

/-- A change of the state that leaves the accounts alone. -/
theorem modify_view {f : State → State} (h : ∀ s, (f s).accounts = s.accounts) :
  Spec (ViewIs v T) (modify f : M Unit) (fun _ => ViewIs v T) E
  := by
  apply Spec.modify
  intro s hs
  unfold ViewIs State.view at *
  rw [h s, hs]

/-- A change of one account that the view shows as `g`. -/
theorem updateAccount_view {f : Config → Account → Account} {g : β → β}
    (h : ∀ cfg a, v (f cfg a) = g (v a)) :
  Spec (ViewIs v T) (updateAccount id f)
    (fun _ => ViewIs v (Function.update T id ((T id).map g))) E
  := by
  apply Spec.modify
  intro s hs
  change (s.modifyAccount id (f s.config)).view v = _
  rw [State.view_modifyAccount, ← hs]
  simp [State.view, h, Function.comp_def]

/-- A change of one account that the view does not show. -/
theorem updateAccount_keeps_view {f : Config → Account → Account}
    (h : ∀ cfg a, v (f cfg a) = v a) :
  Spec (ViewIs v T) (updateAccount id f) (fun _ => ViewIs v T) E
  := by
  apply Spec.modify
  intro s hs
  exact (State.view_modifyAccount_same fun a _ => h s.config a).trans hs

/-- A method that raises or changes what the view shows by `g`. -/
theorem callAccount_view {f : Config → Account → Except Err Account} {g : β → β}
    (h : ∀ cfg a a', f cfg a = .ok a' → v a' = g (v a)) :
  Spec (ViewIs v T) (callAccount id f) (fun _ => ViewIs v (Function.update T id ((T id).map g)))
    (ViewIs v T)
  := by
  intro s hs
  unfold callAccount
  rw [exec_bind_ok (exec_get s)]
  cases ha : s.accounts.lookup id with
  | none => exact hs
  | some a =>
    simp only
    cases hf : f s.config a with
    | error e => exact hs
    | ok a' =>
      change (s.modifyAccount id fun _ => a').view v = _
      rw [State.view_modifyAccount, ha, ← hs]
      simp [State.view, ha, h s.config a a' hf]

/-- A method that raises or does not change what the view shows. -/
theorem callAccount_keeps_view {f : Config → Account → Except Err Account}
    (h : ∀ cfg a a', f cfg a = .ok a' → v a' = v a) :
  Keeps (ViewIs v T) (callAccount id f)
  := by
  have hspec := @callAccount_view _ _ T id _ (fun b => b) h
  simpa [Keeps] using hspec

theorem leaveTrapAccount_view {i : ℕ} :
  Keeps (ViewIs v T) (leaveTrapAccount i)
  := by
  apply leaveTrapAccount_keeps_of_accounts
  intro s s' h hs
  unfold ViewIs State.view at *
  rw [h, hs]

theorem limitFirstChannel_view {p : IpmiPrivilege} :
  Keeps (ViewIs v T) (limitFirstChannel id p)
  := by
  unfold limitFirstChannel
  apply Keeps.bind Keeps.get
  intro s
  apply Keeps.ite _ Keeps.pure
  cases s.channel id 1 with
  | none => exact Keeps.pure
  | some row => exact modify_view fun _ => rfl

end Rules

/-! ## Views of what is stored

Creating and deleting accounts also recomputes what is derived from the rest: histories,
privileges, times of activity, and the flags that tell whether an account can be deleted and
its password changed. Many views show nothing of these. -/

/-- A view that shows nothing of the flags that all accounts are given anew. -/
structure ShowsNoFlags (v : Account → β) : Prop where
  updateDeletable : ∀ cfg only id a, v (Account.updateDeletable cfg only id a) = v a
  setWithinMinPasswordDaysStatus :
    ∀ status a, v (Account.setWithinMinPasswordDaysStatus status a) = v a

/-- A view that shows nothing of what is derived. -/
structure ShowsStored (v : Account → β) : Prop extends ShowsNoFlags v where
  history : ∀ a h, v { a with history := h } = v a
  inTable : ∀ a b, v { a with inTable := b } = v a
  updatePrivileges : ∀ env cfg given a, v (Account.updatePrivileges env cfg given a) = v a
  updateInactiveUserStartTime :
    ∀ env cfg a, v (Account.updateInactiveUserStartTime env cfg a) = v a

section Flags

variable {T : ℕ → Option β} {E : State → Prop} (hv : ShowsNoFlags v)
include hv

theorem updateDeletable_view :
  Spec (ViewIs v T) updateDeletable (fun _ => ViewIs v T) E
  := by
  apply Spec.modify
  intro s hs
  exact (State.view_mapAccounts fun _ _ => hv.updateDeletable ..).trans hs

theorem updateWithinMinPasswordDaysStatus_view (env : Env) :
  Spec (ViewIs v T) (updateWithinMinPasswordDaysStatus env) (fun _ => ViewIs v T) E
  := by
  apply Spec.modify
  intro s hs
  exact (State.view_mapAccounts fun _ _ => hv.setWithinMinPasswordDaysStatus ..).trans hs

end Flags

section Stored

variable {T : ℕ → Option β} {E : State → Prop} (hv : ShowsStored v)
include hv

theorem entered_view (env : Env) (cfg : Config) (a : Account) :
  v (a.entered env cfg) = v a
  := (hv.updatePrivileges ..).trans (hv.history ..)

/-- What follows once an account is initialised: it is entered, and nothing raises. -/
theorem enterAccount_view {env : Env} {id : ℕ} {roleId : ℕ} {a : Account} :
  Spec (ViewIs v T) (do
      modify fun s => { s with accounts := s.accounts.insert id (a.entered env s.config) }
      modify (State.newAccountChannels id roleId)
      updateAccount id (Account.updateInactiveUserStartTime env)
      updateDeletable
      updateWithinMinPasswordDaysStatus env)
    (fun _ => ViewIs v (Function.update T id (some (v a)))) E
  := by
  apply Spec.bind (Q := fun _ => ViewIs v (Function.update T id (some (v a))))
  · apply Spec.modify
    intro s hs
    change State.view v { s with accounts := _ } = _
    rw [State.view_insertAccount, hs, entered_view hv]
  · intro _
    apply Spec.bind (Q := fun _ => ViewIs v (Function.update T id (some (v a))))
    · apply modify_view
      intro s
      unfold State.newAccountChannels
      split_ifs <;> rfl
    · intro _
      apply Spec.bind (updateAccount_keeps_view fun _ _ => hv.updateInactiveUserStartTime ..)
      intro _
      apply Spec.bind (updateDeletable_view hv.toShowsNoFlags)
      intro _
      exact updateWithinMinPasswordDaysStatus_view hv.toShowsNoFlags env

/-- An account that is initialised without its password being checked is entered into the
collection, and nothing raises. -/
theorem newAccountToDbAndMdb_view {env : Env} {id : ℕ} {info : Account.Info} {a : Account}
    (ha : Account.init env info = .ok a) :
  Spec (ViewIs v T) (newAccountToDbAndMdb env id info true)
    (fun _ => ViewIs v (Function.update T id (some (v a)))) E
  := by
  unfold newAccountToDbAndMdb
  apply Spec.bind Spec.get
  intro _
  apply Spec.bind (Q := fun _ => ViewIs v T)
  · apply Spec.pure
    exact fun _ hs => hs.2
  · intro _
    simp only [ha]
    exact enterAccount_view hv

/-- A new account is entered as it is initialised, or the collection stays as it is. -/
theorem newAccountToDbAndMdb_init (env : Env) (id : ℕ) (info : Account.Info)
    (isIpmiOrSnmp : Bool) :
  Spec (ViewIs v T) (newAccountToDbAndMdb env id info isIpmiOrSnmp)
    (fun _ s => ∃ a, Account.init env info = .ok a ∧ ViewIs v (Function.update T id (some (v a))) s)
    (ViewIs v T)
  := by
  unfold newAccountToDbAndMdb
  apply Spec.bind (Q := fun _ => ViewIs v T) Keeps.get
  intro _
  apply Spec.bind (Q := fun _ => ViewIs v T) (Keeps.onlyIf (require_keeps _))
  intro _
  cases ha : Account.init env info with
  | error e => exact Spec.throw fun _ h => h
  | ok a =>
    apply Spec.weaken (enterAccount_view hv) (fun _ h => h)
    · exact fun _ _ h => ⟨a, rfl, h⟩
    · exact fun _ h => h

theorem newAccountToDbAndMdb_view_or {env : Env} {id : ℕ} {info : Account.Info} {b : β}
    (hb : ∀ a, Account.init env info = .ok a → v a = b) (isIpmiOrSnmp : Bool) :
  Spec (ViewIs v T) (newAccountToDbAndMdb env id info isIpmiOrSnmp)
    (fun _ => ViewIs v (Function.update T id (some b))) (ViewIs v T)
  := by
  apply (newAccountToDbAndMdb_init hv env id info isIpmiOrSnmp).weaken fun _ h => h
  · rintro _ s ⟨a, ha, hs⟩
    rw [← hb a ha]
    exact hs
  · exact fun _ h => h

/-- A new account has a free identifier and a role that is known, and is entered as it is
initialised. -/
theorem newAccount_init (env : Env) (info : Account.Info) (isIpmiOrSnmp : Bool) :
  Spec (ViewIs v T) (newAccount env info isIpmiOrSnmp)
    (fun id s => T id = none ∧ (env.roles info.roleId).isSome = true ∧
      ∃ a, Account.init env info = .ok a ∧ ViewIs v (Function.update T id (some (v a))) s)
    (ViewIs v T)
  := by
  unfold newAccount
  cases env.checkUserName (if info.oem then .oem else .localUser) info.name with
  | none => exact Spec.throw fun _ h => h
  | some allowed =>
    apply Spec.bind Keeps.refuse
    intro _
    apply Spec.bind (Q := fun _ s => ViewIs v T s ∧ (env.roles info.roleId).isSome = true)
    · apply Spec.refuse
      · exact fun _ h => h
      · intro s hs hknown
        exact ⟨hs, by simpa [Option.isSome_iff_ne_none] using hknown⟩
    intro _
    apply Spec.assume_right
    intro hknown
    apply Spec.bind Spec.get
    intro s
    cases hid : getValidAccountId s info.id info.oem with
    | error e => exact Spec.throw fun _ h => h.2
    | ok i =>
      apply Spec.bind (Q := fun _ s' => ViewIs v T s' ∧ T i = none)
      · apply Spec.refuse
        · exact fun _ h => h.2
        · rintro s' ⟨rfl, hs⟩ -
          refine ⟨hs, ?_⟩
          rw [← hs]
          exact State.view_eq_none_iff.mpr (lookup_of_getValidAccountId hid)
      intro _
      apply Spec.assume_right
      intro hnone
      apply Spec.bind (newAccountToDbAndMdb_init hv env i info isIpmiOrSnmp)
      intro _
      exact Spec.pure fun s hs => ⟨hnone, hknown, hs⟩

end Stored

section Removal

variable {T : ℕ → Option β} {id : ℕ} (hv : ShowsStored v)
include hv

/-- An account is removed, unless it is not there or has no SNMP row. -/
theorem removeAccount_view :
  Spec (ViewIs v T) (removeAccount id) (fun _ => ViewIs v (Function.update T id none))
    (fun s => ViewIs v T s ∧ ∀ a, s.accounts.lookup id = some a → a.snmp = none)
  := by
  unfold removeAccount
  apply Spec.bind (updateAccount_keeps_view fun _ _ => hv.history ..)
  intro _
  apply Spec.bind (Q := fun _ => ViewIs v T)
  · exact modify_view fun _ => rfl
  intro _
  apply Spec.bind (updateAccount_keeps_view fun _ _ => hv.inTable ..)
  intro _
  have hget : Spec (ViewIs v T) (getAccount id .indexNil)
      (fun a s => s.accounts.lookup id = some a ∧ ViewIs v T s)
      (fun s => ViewIs v T s ∧ ∀ a, s.accounts.lookup id = some a → a.snmp = none) := by
    intro s hs
    unfold getAccount
    rw [exec_bind_ok (exec_get s)]
    cases ha : s.accounts.lookup id with
    | none => exact ⟨hs, by simp [ha]⟩
    | some a => exact ⟨ha, hs⟩
  apply Spec.bind hget
  intro a
  apply Spec.bind (Q := fun _ => ViewIs v T)
  · intro s hs
    cases hsnmp : a.snmp with
    | some r => exact hs.2
    | none =>
      refine ⟨hs.2, ?_⟩
      intro b hb
      rw [hs.1] at hb
      rw [← Option.some_inj.mp hb]
      exact hsnmp
  · intro _
    apply Spec.bind (Q := fun _ => ViewIs v (Function.update T id none))
    · apply Spec.modify
      intro s hs
      change State.view v { s with accounts := _ } = _
      rw [State.view_eraseAccount, hs]
    · intro _
      exact updateDeletable_view hv.toShowsNoFlags

end Removal

/-! ## Frames

An operation on one account leaves what the view shows of the other accounts alone. -/

/-- The view shows `T`, except perhaps of the account `id`. -/
def ViewOff (v : Account → β) (T : ℕ → Option β) (id : ℕ) (s : State) : Prop :=
  ∀ j ≠ id, s.view v j = T j

theorem ViewOff.of_accounts_eq {T : ℕ → Option β} {id : ℕ} {s s' : State}
    (h : ViewOff v T id s) (haccounts : s'.accounts = s.accounts) :
  ViewOff v T id s'
  := by
  intro j hj
  rw [← h j hj]
  unfold State.view
  rw [haccounts]

/-- What `T` holds is shown by the view. -/
def ViewExtends (v : Account → β) (T : ℕ → Option β) (s : State) : Prop :=
  ∀ j b, T j = some b → s.view v j = some b

section Frames

variable {T : ℕ → Option β} {id : ℕ}

theorem modify_off {f : State → State} (h : ∀ s, (f s).accounts = s.accounts) :
  Keeps (ViewOff v T id) (modify f : M Unit)
  := Keeps.modify fun s hs => hs.of_accounts_eq (h s)

theorem updateAccount_off {f : Config → Account → Account} :
  Keeps (ViewOff v T id) (updateAccount id f)
  := by
  apply Keeps.modify
  intro s hs j hj
  rw [State.view_modifyAccount, Function.update_of_ne hj]
  exact hs j hj

theorem callAccount_off {f : Config → Account → Except Err Account} :
  Keeps (ViewOff v T id) (callAccount id f)
  := by
  unfold callAccount
  apply Keeps.bind Keeps.get
  intro s
  cases s.accounts.lookup id with
  | none => exact Keeps.throw
  | some a =>
    simp only
    cases f s.config a with
    | error e => exact Keeps.throw
    | ok a' =>
      apply Keeps.modify
      intro s' hs j hj
      rw [State.view_modifyAccount, Function.update_of_ne hj]
      exact hs j hj

theorem limitFirstChannel_off {i : ℕ} {p : IpmiPrivilege} :
  Keeps (ViewOff v T id) (limitFirstChannel i p)
  := by
  unfold limitFirstChannel
  apply Keeps.bind Keeps.get
  intro s
  apply Keeps.ite _ Keeps.pure
  cases s.channel i 1 with
  | none => exact Keeps.pure
  | some row => exact modify_off fun _ => rfl

theorem leaveTrapAccount_off {i : ℕ} :
  Keeps (ViewOff v T id) (leaveTrapAccount i)
  := leaveTrapAccount_keeps_of_accounts fun _ _ h hs => hs.of_accounts_eq h

theorem recoverInterChassisAccountToDefault_off (env : Env) :
  Keeps (ViewOff v T interChassisAccountId) (recoverInterChassisAccountToDefault env)
  := by
  unfold recoverInterChassisAccountToDefault
  apply Keeps.bind callAccount_off
  intro _
  apply Keeps.bind getAccount_keeps
  intro _
  apply Keeps.onlyIf
  apply Keeps.bind Keeps.refuse
  intro _
  exact callAccount_off

theorem setLoginInterface_off (env : Env) (interfaces : List String) :
  Keeps (ViewOff v T id) (setLoginInterface env id interfaces)
  := by
  apply Keeps.bind getAccount_keeps
  intro _
  apply Keeps.bind Keeps.refuse
  intro _
  apply Keeps.bind checkIsLastOperateAdmin_keeps
  intro _
  apply Keeps.bind Keeps.refuse
  intro _
  apply Keeps.bind (Keeps.onlyIf updateAccount_off)
  intro _
  exact callAccount_off

variable (hv : ShowsNoFlags v)
include hv

theorem updateDeletable_off :
  Keeps (ViewOff v T id) updateDeletable
  := by
  apply Keeps.modify
  intro s hs j hj
  rw [State.view_mapAccounts fun _ _ => hv.updateDeletable ..]
  exact hs j hj

theorem updateWithinMinPasswordDaysStatus_off (env : Env) :
  Keeps (ViewOff v T id) (updateWithinMinPasswordDaysStatus env)
  := by
  apply Keeps.modify
  intro s hs j hj
  rw [State.view_mapAccounts fun _ _ => hv.setWithinMinPasswordDaysStatus ..]
  exact hs j hj

theorem setAccountPassword_off (env : Env) (handler : ℕ) (password : String) :
  Keeps (ViewOff v T id) (setAccountPassword env handler id password)
  := by
  apply Keeps.bind getAccount_keeps
  intro account
  apply Keeps.bind Keeps.get
  intro s
  apply Keeps.bind (require_keeps _)
  intro _
  apply Keeps.bind updateAccount_off
  intro _
  apply Keeps.bind (require_keeps _)
  intro _
  exact updateWithinMinPasswordDaysStatus_off hv env

theorem removeAccount_off :
  Keeps (ViewOff v T id) (removeAccount id)
  := by
  unfold removeAccount
  apply Keeps.bind updateAccount_off
  intro _
  apply Keeps.bind
  · exact modify_off fun _ => rfl
  intro _
  apply Keeps.bind updateAccount_off
  intro _
  apply Keeps.bind getAccount_keeps
  intro _
  apply Keeps.bind Keeps.refuse
  intro _
  apply Keeps.bind
  · apply Keeps.modify
    intro s hs j hj
    rw [State.view_eraseAccount, Function.update_of_ne hj]
    exact hs j hj
  · intro _
    exact updateDeletable_off hv

theorem deleteAccount_off (env : Env) (skipped : Bool) :
  Keeps (ViewOff v T id) (deleteAccount env id skipped)
  := by
  unfold deleteAccount
  split_ifs with hid
  · rw [hid]
    exact recoverInterChassisAccountToDefault_off env
  · apply Keeps.bind getAccount_keeps
    intro _
    apply Keeps.bind Keeps.refuse
    intro _
    apply Keeps.bind Keeps.refuse
    intro _
    apply Keeps.bind refuseEmergencyUser_keeps
    intro _
    apply Keeps.bind refuseLastOperateAdmin_keeps
    intro _
    apply Keeps.bind leaveTrapAccount_off
    intro _
    apply Keeps.bind Keeps.refuse
    intro _
    apply Keeps.bind Keeps.refuse
    intro _
    exact removeAccount_off hv

theorem newAccountToDbAndMdb_off (env : Env) (info : Account.Info) (isIpmiOrSnmp : Bool) :
  Keeps (ViewOff v T id) (newAccountToDbAndMdb env id info isIpmiOrSnmp)
  := by
  unfold newAccountToDbAndMdb
  apply Keeps.bind Keeps.get
  intro s
  apply Keeps.bind (Keeps.onlyIf (require_keeps _))
  intro _
  cases Account.init env info with
  | error e => exact Keeps.throw
  | ok a =>
    apply Keeps.bind
    · apply Keeps.modify
      intro s hs j hj
      rw [State.view_insertAccount, Function.update_of_ne hj]
      exact hs j hj
    · intro _
      apply Keeps.bind
      · apply modify_off
        intro s
        unfold State.newAccountChannels
        split_ifs <;> rfl
      · intro _
        apply Keeps.bind updateAccount_off
        intro _
        apply Keeps.bind (updateDeletable_off hv)
        intro _
        exact updateWithinMinPasswordDaysStatus_off hv env

/-- The accounts that are there stay as they are when an account is created. -/
theorem newAccount_extends (env : Env) (info : Account.Info) (isIpmiOrSnmp : Bool) :
  Keeps (ViewExtends v T) (newAccount env info isIpmiOrSnmp)
  := by
  unfold newAccount
  cases env.checkUserName (if info.oem then .oem else .localUser) info.name with
  | none => exact Keeps.throw
  | some allowed =>
    apply Keeps.bind Keeps.refuse
    intro _
    apply Keeps.bind Keeps.refuse
    intro _
    apply Spec.bind Spec.get
    intro s
    cases hid : getValidAccountId s info.id info.oem with
    | error e => exact Spec.throw fun _ h => h.2
    | ok i =>
      have hfree := lookup_of_getValidAccountId hid
      have hback : ∀ s', ViewOff v (s.view v) i s' → ViewExtends v T s → ViewExtends v T s' := by
        intro s' hoff hs j b hj
        have hview := hs j b hj
        rw [← hview]
        apply hoff
        rintro rfl
        rw [State.view_eq_none_iff.mpr hfree] at hview
        cases hview
      by_cases hs : ViewExtends v T s
      · have hkeeps : Keeps (ViewOff v (s.view v) i) (do
            refuse (s.checkUsernameExist info.name) .resourceAlreadyExists
            newAccountToDbAndMdb env i info isIpmiOrSnmp
            pure i) := by
          apply Keeps.bind Keeps.refuse
          intro _
          apply Keeps.bind (newAccountToDbAndMdb_off hv env info isIpmiOrSnmp)
          intro _
          exact Keeps.pure
        apply hkeeps.weaken
        · rintro s' ⟨rfl, -⟩ j -
          rfl
        · exact fun _ s' h => hback s' h hs
        · exact fun s' h => hback s' h hs
      · rintro s' ⟨rfl, hs'⟩
        exact absurd hs' hs

end Frames

/-! ## One account -/

/-- What the view shows of the account `id` is known. -/
def ViewAt (v : Account → β) (id : ℕ) (I : β → Prop) (s : State) : Prop :=
  ∃ b, s.view v id = some b ∧ I b

section At

variable {id : ℕ} {I : β → Prop}

theorem updateAccount_at {f : Config → Account → Account}
    (h : ∀ cfg a, I (v a) → I (v (f cfg a))) :
  Keeps (ViewAt v id I) (updateAccount id f)
  := by
  apply Keeps.modify
  rintro s ⟨b, hb, hI⟩
  obtain ⟨a, ha, rfl⟩ := Option.map_eq_some_iff.mp hb
  refine ⟨v (f s.config a), ?_, h s.config a hI⟩
  rw [State.view_modifyAccount, Function.update_self, ha, Option.map_some]

theorem callAccount_at {f : Config → Account → Except Err Account}
    (h : ∀ cfg a a', f cfg a = .ok a' → I (v a) → I (v a')) :
  Keeps (ViewAt v id I) (callAccount id f)
  := by
  intro s hs
  obtain ⟨b, hb, hI⟩ := hs
  obtain ⟨a, ha, rfl⟩ := Option.map_eq_some_iff.mp hb
  rw [exec_callAccount ha]
  cases hf : f s.config a with
  | error e => exact ⟨v a, hb, hI⟩
  | ok a' =>
    refine ⟨v a', ?_, h s.config a a' hf hI⟩
    rw [State.view_modifyAccount, Function.update_self, ha, Option.map_some]

/-- A program on another account. -/
theorem keeps_at_of_off {α : Type} {m : M α} {j : ℕ} (hj : id ≠ j)
    (h : ∀ T, Keeps (ViewOff v T j) m) :
  Keeps (ViewAt v id I) m
  := by
  intro s hs
  obtain ⟨b, hb, hI⟩ := hs
  have hoff := h (s.view v) s fun _ _ => rfl
  rcases hx : exec m s with ⟨_ | _, s'⟩
  · simp only [hx] at hoff ⊢
    exact ⟨b, (hoff id hj).trans hb, hI⟩
  · simp only [hx] at hoff ⊢
    exact ⟨b, (hoff id hj).trans hb, hI⟩

end At

end BmcAccount
