import BmcAccount.Account.Deletable
import BmcAccount.Account.Exemption
import BmcAccount.Account.Expiry
import BmcAccount.Account.Names
import BmcAccount.Account.UserAccess

/-!
# Where rows belong

The rows of the channels of an account are kept under the numbers of their channels, and only
the inter-chassis account uses the columns of its defaults. `run_rows` says that this is so in
every run of the operations on accounts.
-/

namespace BmcAccount

open Raise

/-- The rows of a table are under their channels. -/
def ChannelsNamed (t : Table ℕ ChannelConfig) : Prop :=
  ∀ ch row, t.lookup ch = some row → row.channelNumber = ch

/-- The columns of a row that only the inter-chassis account uses, as the table creates it. -/
def DefaultData.unset : DefaultData := ⟨255, LoginInterface.unset.value, false, false⟩

/-- The class of an account, and the columns that only the inter-chassis account uses. -/
def Account.origin (a : Account) : AccountClass × DefaultData := (a.cls, a.defaults)

/-- The account is not of the class that uses the columns, which are as the table creates
them. -/
def Account.Ordinary (a : Account) : Prop :=
  a.cls ≠ .interChassisAccount ∧ a.defaults = .unset

theorem Account.Ordinary.of_origin {a a' : Account} (h : a.Ordinary)
    (horigin : a'.origin = a.origin) :
  a'.Ordinary
  := by
  obtain ⟨hcls, hdefaults⟩ := Prod.mk.injEq .. ▸ horigin
  exact ⟨hcls ▸ h.1, hdefaults.trans h.2⟩

/-- The rows of the channels are under their channels, and every account but the inter-chassis
account is ordinary. -/
structure State.RowsOk (s : State) : Prop where
  named : ∀ id t, s.channels.lookup id = some t → ChannelsNamed t
  ordinary : ∀ id a, s.accounts.lookup id = some a → id ≠ interChassisAccountId → a.Ordinary

theorem showsStored_origin :
  ShowsStored Account.origin
  where
  history _ _ := rfl
  inTable _ _ := rfl
  updatePrivileges env cfg given a := by
    unfold Account.updatePrivileges
    simp only
    split <;> rfl
  updateInactiveUserStartTime env cfg a := by
    unfold Account.updateInactiveUserStartTime
    split
    · split_ifs <;> rfl
    · rfl
  updateDeletable cfg only id a := by
    unfold Account.updateDeletable
    split <;> rfl
  setWithinMinPasswordDaysStatus status a := by
    unfold Account.setWithinMinPasswordDaysStatus
    split <;> rfl

section Rows

variable {s : State} {id : ℕ} {env : Env}

theorem State.RowsOk.of_eq {s' : State} (hs : s.RowsOk) (hchannels : s'.channels = s.channels)
    (haccounts : s'.accounts = s.accounts) :
  s'.RowsOk
  := by
  constructor
  · rw [hchannels]
    exact hs.named
  · rw [haccounts]
    exact hs.ordinary

theorem State.RowsOk.mapAccounts {f : ℕ → Account → Account} (hs : s.RowsOk)
    (h : ∀ i a, i ≠ interChassisAccountId → a.Ordinary → (f i a).Ordinary) :
  { s with accounts := s.accounts.map f }.RowsOk
  := by
  refine ⟨hs.named, ?_⟩
  intro i a' ha' hi
  rw [Table.lookup_map] at ha'
  obtain ⟨a, ha, rfl⟩ := Option.map_eq_some_iff.mp ha'
  exact h i a hi (hs.ordinary i a ha hi)

theorem State.RowsOk.modifyAccount {f : Account → Account} (hs : s.RowsOk)
    (h : ∀ a, s.accounts.lookup id = some a → id ≠ interChassisAccountId → a.Ordinary →
      (f a).Ordinary) :
  (s.modifyAccount id f).RowsOk
  := by
  refine ⟨hs.named, ?_⟩
  intro i a' ha' hi
  by_cases hid : i = id
  · subst hid
    rw [State.modifyAccount, Table.lookup_modify_self] at ha'
    obtain ⟨a, ha, rfl⟩ := Option.map_eq_some_iff.mp ha'
    exact h a ha hi (hs.ordinary i a ha hi)
  · rw [State.modifyAccount, Table.lookup_modify_ne hid] at ha'
    exact hs.ordinary i a' ha' hi

theorem ChannelsNamed.insert {t : Table ℕ ChannelConfig} (ht : ChannelsNamed t) {ch : ℕ}
    {row : ChannelConfig} (hrow : row.channelNumber = ch) :
  ChannelsNamed (t.insert ch row)
  := by
  intro ch' row' h
  by_cases hch : ch' = ch
  · subst hch
    rw [AList.lookup_insert, Option.some_inj] at h
    rwa [← h]
  · rw [AList.lookup_insert_ne hch] at h
    exact ht ch' row' h

theorem ChannelsNamed.foldl_insert {row : ℕ → ChannelConfig}
    (hrow : ∀ ch, (row ch).channelNumber = ch) (l : List ℕ) {t : Table ℕ ChannelConfig}
    (ht : ChannelsNamed t) :
  ChannelsNamed (l.foldl (fun t ch => t.insert ch (row ch)) t)
  := by
  induction l generalizing t with
  | nil => exact ht
  | cons ch l ih => exact ih (ht.insert (hrow ch))

theorem State.RowsOk.insertChannels {t : Table ℕ ChannelConfig} (hs : s.RowsOk)
    (ht : ChannelsNamed ((s.channels.lookup id).getD ∅) → ChannelsNamed t) :
  { s with channels := s.channels.insert id t }.RowsOk
  := by
  have hnamed : ChannelsNamed ((s.channels.lookup id).getD ∅) := by
    cases hlookup : s.channels.lookup id with
    | none => exact fun ch row h => (Option.some_ne_none row h.symm).elim
    | some t₀ => exact hs.named id t₀ hlookup
  refine ⟨?_, hs.ordinary⟩
  intro i t' ht'
  by_cases hi : i = id
  · subst hi
    rw [AList.lookup_insert, Option.some_inj] at ht'
    rw [← ht']
    exact ht hnamed
  · rw [AList.lookup_insert_ne hi] at ht'
    exact hs.named i t' ht'

theorem State.RowsOk.setChannel {ch : ℕ} {row : ChannelConfig} (hs : s.RowsOk)
    (hrow : row.channelNumber = ch) :
  (s.setChannel id ch row).RowsOk
  := hs.insertChannels fun hnamed => hnamed.insert hrow

theorem State.RowsOk.named_channel {ch : ℕ} {row : ChannelConfig} (hs : s.RowsOk)
    (h : s.channel id ch = some row) :
  row.channelNumber = ch
  := by
  obtain ⟨t, ht, hrow⟩ := Option.bind_eq_some_iff.mp h
  exact hs.named id t ht ch row hrow

theorem updateAccount_rows {f : Config → Account → Account}
    (h : ∀ cfg a, id ≠ interChassisAccountId → a.Ordinary → (f cfg a).Ordinary) :
  Keeps State.RowsOk (updateAccount id f)
  := Keeps.modify fun s hs => hs.modifyAccount fun a _ => h s.config a

theorem callAccount_rows {f : Config → Account → Except Err Account}
    (h : ∀ cfg a a', f cfg a = .ok a' → id ≠ interChassisAccountId → a.Ordinary → a'.Ordinary) :
  Keeps State.RowsOk (callAccount id f)
  := by
  intro s hs
  cases ha : s.accounts.lookup id with
  | none =>
    unfold callAccount
    rw [exec_bind_ok (exec_get s)]
    simp only [ha]
    exact hs
  | some a =>
    rw [exec_callAccount ha]
    cases hf : f s.config a with
    | error e => exact hs
    | ok a' =>
      apply hs.modifyAccount
      intro b hb hid hordinary
      obtain rfl := Option.some_inj.mp (ha.symm.trans hb)
      exact h s.config a a' hf hid hordinary

theorem modify_rows {f : State → State} (hchannels : ∀ s, (f s).channels = s.channels)
    (haccounts : ∀ s, (f s).accounts = s.accounts) :
  Keeps State.RowsOk (modify f : M Unit)
  := Keeps.modify fun s hs => hs.of_eq (hchannels s) (haccounts s)

theorem mapAccounts_rows {f : State → ℕ → Account → Account}
    (h : ∀ s i a, (f s i a).origin = a.origin) :
  Keeps State.RowsOk (modify fun s => { s with accounts := s.accounts.map (f s) } : M Unit)
  := Keeps.modify fun s hs => hs.mapAccounts fun i a _ ha => ha.of_origin (h s i a)

theorem updateDeletable_rows :
  Keeps State.RowsOk updateDeletable
  := mapAccounts_rows fun _ _ _ => showsStored_origin.updateDeletable ..

theorem updateAccount_rows_of_origin {f : Config → Account → Account}
    (h : ∀ cfg a, (f cfg a).origin = a.origin) :
  Keeps State.RowsOk (updateAccount id f)
  := updateAccount_rows fun cfg a _ ha => ha.of_origin (h cfg a)

theorem callAccount_rows_of_origin {f : Config → Account → Except Err Account}
    (h : ∀ cfg a a', f cfg a = .ok a' → a'.origin = a.origin) :
  Keeps State.RowsOk (callAccount id f)
  := callAccount_rows fun cfg a a' hf _ ha => ha.of_origin (h cfg a a' hf)

/-! ### Methods of accounts -/

theorem origin_setUserName {name : String} {a a' : Account} (h : a.setUserName name = .ok a') :
  a'.origin = a.origin
  := by
  unfold Account.setUserName at h
  split at h
  case h_1 | h_2 =>
    split_ifs at h
    cases h
    rfl
  case h_3 =>
    cases h
    rfl

theorem origin_deleteSshPublicKey {a a' : Account} (h : a.deleteSshPublicKey env = .ok a') :
  a'.origin = a.origin
  := by
  unfold Account.deleteSshPublicKey at h
  split at h
  case h_1 | h_2 =>
    split_ifs at h
    cases h
    rfl
  case h_3 =>
    cases h
    rfl

theorem origin_setEnabled {enabled : Bool} {a a' : Account}
    (h : a.setEnabled env enabled = .ok a') :
  a'.origin = a.origin
  := by
  unfold Account.setEnabled at h
  split at h
  case h_1 =>
    split_ifs at h
    · cases hcheck : a.checkIpmiPassword env with
      | error e =>
        rw [hcheck] at h
        cases h
      | ok u =>
        rw [hcheck] at h
        cases h
        rfl
    · cases h
      rfl
  case h_2 =>
    split_ifs at h
    cases h
    rfl
  case h_3 =>
    cases h
    rfl

theorem origin_updateInactiveStatus {cfg : Config} {only : Bool} {limit i : ℕ} {a a' : Account}
    (h : a.updateInactiveStatus env cfg only limit i = .ok a') :
  a'.origin = a.origin
  := by
  unfold Account.updateInactiveStatus at h
  split at h
  case h_1 =>
    split_ifs at h
    · cases h
      rfl
    · cases h
      rfl
    · exact origin_setEnabled h
    · cases h
      rfl
  case h_2 =>
    cases h
    rfl

/-- An ordinary account does not mark that its role has changed. -/
theorem Account.Ordinary.setRoleId {cfg : Config} {roleId : ℕ} {a a' : Account} (ha : a.Ordinary)
    (h : a.setRoleId env cfg roleId = .ok a') :
  a'.Ordinary
  := by
  unfold Account.setRoleId at h
  split at h
  case h_1 | h_2 =>
    split_ifs at h
    cases h
    exact ha.of_origin (showsStored_origin.updatePrivileges ..)
  case h_3 =>
    cases h
    exact ha.of_origin (showsStored_origin.updatePrivileges ..)
  case h_4 hcls => exact absurd hcls ha.1
  case h_5 =>
    cases h
    exact ha

theorem Account.Ordinary.setLoginInterface {interface : ℕ} {a a' : Account} (ha : a.Ordinary)
    (h : a.setLoginInterface env interface = .ok a') :
  a'.Ordinary
  := by
  unfold Account.setLoginInterface at h
  split at h
  case h_1 | h_2 =>
    split_ifs at h
    cases h
    exact ha
  case h_3 hcls => exact absurd hcls ha.1
  case h_4 =>
    cases h
    exact ha

theorem origin_setAccountPassword (cfg : Config) (password : String) (isConfigSelf : Bool)
    (a : Account) :
  (a.setAccountPassword env cfg password isConfigSelf).1.origin = a.origin
  := by
  unfold Account.setAccountPassword Account.storePassword Account.setPasswordChangeRequired
  split
  · exact showsStored_origin.updatePrivileges ..
  · split
    · exact showsStored_origin.updatePrivileges ..
    · exact showsStored_origin.updatePrivileges ..
  · rfl

theorem origin_updatePasswordExpireStatus (cfg : Config) (status : Bool) (a : Account) :
  (a.updatePasswordExpireStatus env cfg status).origin = a.origin
  := by
  unfold Account.updatePasswordExpireStatus Account.setPasswordChangeRequired
  split_ifs
  · rfl
  · exact (showsStored_origin.updatePrivileges ..).trans (showsStored_origin.updatePrivileges ..)
  · exact (showsStored_origin.updatePrivileges ..).trans (showsStored_origin.updatePrivileges ..)

theorem origin_checkPasswordValidDays (cfg : Config) (i : ℕ) (a : Account) :
  (a.checkPasswordValidDays env cfg i).origin = a.origin
  := by
  unfold Account.checkPasswordValidDays
  split_ifs
  · rfl
  · rfl
  · exact origin_updatePasswordExpireStatus ..

theorem origin_setLoginRuleIds {ids : ℕ} {a a' : Account} (h : a.setLoginRuleIds ids = .ok a') :
  a'.origin = a.origin
  := by
  unfold Account.setLoginRuleIds at h
  split_ifs at h
  cases h
  rfl

theorem origin_recoverSnmpData {b : BackupRecord} {a a' : Account}
    (h : a.recoverSnmpData b = .ok a') :
  a'.origin = a.origin
  := by
  unfold Account.recoverSnmpData at h
  split at h
  · cases h
    rfl
  · cases h

/-- A new account is a local or an OEM account. -/
theorem ordinary_init {info : Account.Info} {a : Account} (h : Account.init env info = .ok a) :
  a.Ordinary
  := by
  unfold Account.init at h
  split at h
  · cases h
  · split at h
    · cases h
    · cases h
      refine ⟨?_, rfl⟩
      change (if info.oem then AccountClass.oemAccount else .localAccount) ≠ _
      split_ifs <;> decide

/-! ### Operations -/

theorem newAccountChannels_rows {roleId : ℕ} (hs : s.RowsOk) :
  (s.newAccountChannels id roleId).RowsOk
  := by
  unfold State.newAccountChannels
  split_ifs
  · apply hs.insertChannels
    intro hnamed
    exact hnamed.foldl_insert (fun _ => rfl) defaultChannels
  · exact hs

theorem newAccountToDbAndMdb_rows (info : Account.Info) (isIpmiOrSnmp : Bool) :
  Keeps State.RowsOk (newAccountToDbAndMdb env id info isIpmiOrSnmp)
  := by
  unfold newAccountToDbAndMdb
  apply Keeps.bind Keeps.get
  intro s₀
  apply Keeps.bind (Keeps.onlyIf (require_keeps _))
  intro _
  cases ha : Account.init env info with
  | error e => exact Keeps.throw
  | ok a =>
    apply Keeps.bind
    · apply Keeps.modify
      intro s hs
      refine ⟨hs.named, ?_⟩
      intro i a' ha' hi
      by_cases hid : i = id
      · subst hid
        rw [AList.lookup_insert, Option.some_inj] at ha'
        subst ha'
        exact (ordinary_init ha).of_origin (entered_view showsStored_origin ..)
      · rw [AList.lookup_insert_ne hid] at ha'
        exact hs.ordinary i a' ha' hi
    intro _
    apply Keeps.bind
    · apply Keeps.modify
      exact fun s hs => newAccountChannels_rows hs
    intro _
    apply Keeps.bind (updateAccount_rows_of_origin fun _ _ =>
      showsStored_origin.updateInactiveUserStartTime ..)
    intro _
    apply Keeps.bind updateDeletable_rows
    intro _
    exact mapAccounts_rows fun _ _ _ => showsStored_origin.setWithinMinPasswordDaysStatus ..

theorem newAccount_rows (info : Account.Info) (isIpmiOrSnmp : Bool) :
  Keeps State.RowsOk (newAccount env info isIpmiOrSnmp)
  := by
  unfold newAccount
  cases env.checkUserName (if info.oem then .oem else .localUser) info.name with
  | none => exact Keeps.throw
  | some allowed =>
    apply Keeps.bind Keeps.refuse
    intro _
    apply Keeps.bind Keeps.refuse
    intro _
    apply Keeps.bind Keeps.get
    intro s
    cases getValidAccountId s info.id info.oem with
    | error e => exact Keeps.throw
    | ok i =>
      apply Keeps.bind Keeps.refuse
      intro _
      exact Keeps.bind (newAccountToDbAndMdb_rows info isIpmiOrSnmp) fun _ => Keeps.pure

theorem removeAccount_rows :
  Keeps State.RowsOk (removeAccount id)
  := by
  unfold removeAccount
  apply Keeps.bind
  · exact updateAccount_rows_of_origin fun _ _ => rfl
  intro _
  apply Keeps.bind
  · apply Keeps.modify
    intro s hs
    refine ⟨?_, hs.ordinary⟩
    intro i t ht
    by_cases hi : i = id
    · subst hi
      simp only [AList.lookup_erase] at ht
      cases ht
    · exact hs.named i t ((AList.lookup_erase_ne hi).symm.trans ht)
  intro _
  apply Keeps.bind
  · exact updateAccount_rows_of_origin fun _ _ => rfl
  intro _
  apply Keeps.bind getAccount_keeps
  intro account
  apply Keeps.bind Keeps.refuse
  intro _
  apply Keeps.bind
  · apply Keeps.modify
    intro s hs
    refine ⟨hs.named, ?_⟩
    intro i a ha
    by_cases hi : i = id
    · subst hi
      simp only [AList.lookup_erase] at ha
      cases ha
    · exact hs.ordinary i a ((AList.lookup_erase_ne hi).symm.trans ha)
  intro _
  exact updateDeletable_rows

theorem deleteAccount_rows (validationSkipped : Bool) :
  Keeps State.RowsOk (deleteAccount env id validationSkipped)
  := by
  unfold deleteAccount
  apply Keeps.ite
  · unfold recoverInterChassisAccountToDefault
    apply Keeps.bind (callAccount_rows fun _ _ _ _ h => absurd rfl h)
    intro _
    apply Keeps.bind getAccount_keeps
    intro account
    apply Keeps.onlyIf
    apply Keeps.bind Keeps.refuse
    intro _
    exact callAccount_rows_of_origin fun _ _ _ => origin_deleteSshPublicKey
  · apply Keeps.bind getAccount_keeps
    intro account
    apply Keeps.bind Keeps.refuse
    intro _
    apply Keeps.bind Keeps.refuse
    intro _
    apply Keeps.bind (Keeps.bind Keeps.get fun _ => Keeps.refuse)
    intro _
    apply Keeps.bind refuseLastOperateAdmin_keeps
    intro _
    apply Keeps.bind
    · unfold leaveTrapAccount changeSnmpV3TrapAccount
      apply Keeps.bind Keeps.get
      intro s
      apply Keeps.ite Keeps.throw
      apply Keeps.ite _ Keeps.pure
      apply Keeps.bind Keeps.get
      intro s
      apply Keeps.bind Keeps.refuse
      intro _
      exact modify_rows (fun _ => rfl) fun _ => rfl
    intro _
    apply Keeps.bind Keeps.refuse
    intro _
    apply Keeps.bind Keeps.refuse
    intro _
    exact removeAccount_rows

theorem setEnabled_rows (status : Bool) :
  Keeps State.RowsOk (setEnabled env id status)
  := by
  unfold setEnabled
  apply Keeps.bind refuseLastOperateAdmin_keeps
  intro _
  apply Keeps.bind (Keeps.bind Keeps.get fun _ => Keeps.refuse)
  intro _
  apply Keeps.bind (callAccount_rows_of_origin fun _ _ _ => origin_setEnabled)
  intro _
  exact Keeps.onlyIf (updateAccount_rows_of_origin fun _ _ =>
    showsStored_origin.updateInactiveUserStartTime ..)

theorem setLoginInterface_rows (interfaces : List String) :
  Keeps State.RowsOk (setLoginInterface env id interfaces)
  := by
  unfold setLoginInterface
  apply Keeps.bind getAccount_keeps
  intro account
  apply Keeps.bind Keeps.refuse
  intro _
  apply Keeps.bind checkIsLastOperateAdmin_keeps
  intro last
  apply Keeps.bind Keeps.refuse
  intro _
  apply Keeps.bind
  · apply Keeps.onlyIf
    exact updateAccount_rows_of_origin fun _ _ => rfl
  intro _
  exact callAccount_rows fun _ _ _ h _ ha => ha.setLoginInterface h

theorem limitFirstChannel_rows (privilege : IpmiPrivilege) :
  Keeps State.RowsOk (limitFirstChannel id privilege)
  := by
  intro s hs
  unfold limitFirstChannel
  rw [exec_bind_ok (exec_get s)]
  split_ifs
  · cases hrow : s.channel id 1 with
    | none => exact hs
    | some row =>
      have hnumber : row.channelNumber = 1 := hs.named_channel hrow
      exact hs.setChannel hnumber
  · exact hs

theorem setRoleId_rows (roleId : ℕ) (privilege : Option IpmiPrivilege) :
  Keeps State.RowsOk (setRoleId env id roleId privilege)
  := by
  unfold setRoleId
  apply Keeps.bind getAccount_keeps
  intro account
  apply Keeps.bind Keeps.refuse
  intro _
  apply Keeps.bind refuseLastOperateAdmin_keeps
  intro _
  apply Keeps.bind (Keeps.bind Keeps.get fun _ => Keeps.refuse)
  intro _
  apply Keeps.bind (callAccount_rows fun _ _ _ h _ ha => ha.setRoleId h)
  intro _
  apply Keeps.bind
  · exact updateAccount_rows_of_origin fun _ _ => rfl
  intro _
  apply Keeps.bind (limitFirstChannel_rows _)
  intro _
  exact updateDeletable_rows

theorem updateChannel_rows {info : ChannelConfig} {n : ℕ} (hs : s.RowsOk) :
  (s.updateChannel id info n).RowsOk
  := by
  apply hs.setChannel
  unfold State.channelRow
  split_ifs
  · rfl
  · cases hrow : s.channel id info.channelNumber with
    | none => rfl
    | some row =>
      have hnumber : row.channelNumber = info.channelNumber := hs.named_channel hrow
      exact hnumber

theorem setIpmiUserAccess_rows (req : UserAccessReq) (ctx : IpmiCtx) :
  Keeps State.RowsOk (setIpmiUserAccess env req ctx)
  := by
  unfold setIpmiUserAccess
  apply Keeps.bind Keeps.get
  intro s₀
  rcases ipmiSetUserAccessInputCheck env req ctx s₀ with e | ⟨privilege, limit⟩
  · exact Keeps.throw
  · apply Keeps.bind Keeps.refuse
    intro _
    apply Keeps.bind (Keeps.onlyIf (setRoleId_rows _ _))
    intro _
    apply Keeps.bind
    · apply Keeps.modify
      exact fun s hs => updateChannel_rows hs
    intro _
    apply updateAccount_rows_of_origin
    intro _ a
    unfold Account.setIpmiUserAccess
    split_ifs <;> rfl

theorem changeUserName_rows (name : String) :
  Keeps State.RowsOk (changeUserName env id name)
  := by
  unfold changeUserName
  apply Keeps.bind getAccount_keeps
  intro account
  cases env.checkUserName account.data.accountType name with
  | none => exact Keeps.throw
  | some allowed =>
    apply Keeps.bind Keeps.refuse
    intro _
    apply Keeps.bind (callAccount_rows_of_origin fun _ _ _ => origin_setUserName)
    intro _
    apply Keeps.bind (callAccount_rows_of_origin fun _ _ _ => origin_deleteSshPublicKey)
    intro _
    exact updateAccount_rows_of_origin fun _ _ => showsStored_origin.updateInactiveUserStartTime ..

theorem setUserName_rows (naming : NamingEnv) (name : String) :
  Keeps State.RowsOk (setUserName env naming id name)
  := by
  unfold setUserName
  apply Keeps.bind Keeps.refuse
  intro _
  apply Keeps.bind Keeps.get
  intro s
  apply Keeps.ite
  · apply Keeps.ite Keeps.pure
    unfold ipmiAndSnmpNewAccount
    cases env.checkUserName .localUser name with
    | none => exact Keeps.throw
    | some allowed =>
      apply Keeps.bind Keeps.refuse
      intro _
      apply Keeps.bind Keeps.get
      intro s
      apply Keeps.bind Keeps.refuse
      intro _
      apply Keeps.bind (newAccount_rows _ _)
      intro _
      exact setEnabled_rows false
  · apply Keeps.ite (deleteAccount_rows false)
    unfold renameAccount
    cases env.checkUserName .localUser name with
    | none => exact Keeps.throw
    | some allowed =>
      apply Keeps.bind Keeps.refuse
      intro _
      apply Keeps.bind Keeps.get
      intro s
      apply Keeps.bind Keeps.refuse
      intro _
      apply Keeps.bind Keeps.refuse
      intro _
      exact changeUserName_rows name

theorem setAccountPassword_rows (handler : ℕ) (password : String) :
  Keeps State.RowsOk (setAccountPassword env handler id password)
  := by
  intro s hs
  unfold setAccountPassword
  cases ha : s.accounts.lookup id with
  | none =>
    rw [exec_bind_error (exec_getAccount_none ha)]
    exact hs
  | some a =>
    rw [exec_bind_ok (exec_getAccount ha), exec_bind_ok (exec_get s)]
    have hkeeps : Keeps State.RowsOk (do
        require (a.passwordValidator env s.config a.data.userName password false (handler = id))
        let set := a.setAccountPassword env s.config password (handler = id)
        updateAccount id fun _ _ => set.1
        require set.2
        updateWithinMinPasswordDaysStatus env) := by
      apply Keeps.bind (require_keeps _)
      intro _
      apply Keeps.bind
      · apply updateAccount_rows
        intro _ _ hid _
        exact (hs.ordinary id a ha hid).of_origin (origin_setAccountPassword ..)
      intro _
      apply Keeps.bind (require_keeps _)
      intro _
      exact mapAccounts_rows fun _ _ _ => showsStored_origin.setWithinMinPasswordDaysStatus ..
    exact hkeeps s hs

theorem setLoginRuleIds_rows (ids : List String) :
  Keeps State.RowsOk (setLoginRuleIds id ids)
  := by
  unfold setLoginRuleIds
  apply Keeps.bind getAccount_keeps
  intro account
  apply Keeps.bind Keeps.refuse
  intro _
  apply Keeps.bind (require_keeps _)
  intro _
  exact callAccount_rows_of_origin fun _ _ _ => origin_setLoginRuleIds

theorem updateInactiveStatus_rows (order : List ℕ) :
  Keeps State.RowsOk (updateInactiveStatus env order)
  := by
  unfold updateInactiveStatus
  apply Keeps.bind Keeps.get
  intro s₀
  apply Keeps.ite Keeps.pure
  apply Keeps.forM
  intro i _
  unfold visitInactive
  apply Keeps.bind Keeps.get
  intro s
  exact callAccount_rows_of_origin fun _ _ _ => origin_updateInactiveStatus

theorem setFirstLoginPolicy_rows (policy : FirstLoginPolicy) :
  Keeps State.RowsOk (setFirstLoginPolicy env id policy)
  := by
  unfold setFirstLoginPolicy
  apply Keeps.bind getAccount_keeps
  intro account
  apply Keeps.bind Keeps.refuse
  intro _
  apply Keeps.bind
  · exact updateAccount_rows_of_origin fun _ _ => rfl
  intro _
  exact updateAccount_rows_of_origin fun _ _ => showsStored_origin.updatePrivileges ..

theorem setPasswordChangeRequired_rows (required : Bool) :
  Keeps State.RowsOk (setPasswordChangeRequired env id required)
  := by
  unfold setPasswordChangeRequired
  apply Keeps.bind getAccount_keeps
  intro account
  exact updateAccount_rows_of_origin fun _ _ => showsStored_origin.updatePrivileges ..

theorem checkPasswordValidDays_rows :
  Keeps State.RowsOk (checkPasswordValidDays env)
  := mapAccounts_rows fun _ _ _ => origin_checkPasswordValidDays ..

theorem setEmergencyAccount_rows :
  Keeps State.RowsOk (setEmergencyAccount env id)
  := by
  unfold setEmergencyAccount
  apply Keeps.bind
  · apply Keeps.onlyIf
    unfold acceptEmergencyAccount
    apply Keeps.bind Keeps.refuse
    intro _
    apply Keeps.bind getAccount_keeps
    intro account
    apply Keeps.bind Keeps.refuse
    intro _
    exact updateAccount_rows_of_origin fun _ _ => origin_updatePasswordExpireStatus ..
  intro _
  apply Keeps.bind Keeps.get
  intro s
  apply Keeps.bind
  · exact modify_rows (fun _ => rfl) fun _ => rfl
  intro _
  apply Keeps.bind
  · apply Keeps.onlyIf
    apply callAccount_rows_of_origin
    rintro _ a _ ⟨⟩
    rfl
  intro _
  apply Keeps.bind updateDeletable_rows
  intro _
  exact checkPasswordValidDays_rows

theorem setSnmpV3TrapAccount_rows :
  Keeps State.RowsOk (setSnmpV3TrapAccount id)
  := by
  unfold setSnmpV3TrapAccount
  apply Keeps.bind getAccount_keeps
  intro account
  apply Keeps.bind Keeps.refuse
  intro _
  apply Keeps.bind
  · exact modify_rows (fun _ => rfl) fun _ => rfl
  intro _
  exact updateDeletable_rows

theorem backupAccountInfo_rows :
  Keeps State.RowsOk (backupAccountInfo env)
  := by
  unfold backupAccountInfo
  apply Keeps.bind
  · exact modify_rows (fun _ => rfl) fun _ => rfl
  intro _
  apply Keeps.bind Keeps.get
  intro s
  apply Keeps.forM
  intro e _
  apply Keeps.ite _ Keeps.pure
  cases getBackupInfo env s e.1 e.2 with
  | error err => exact Keeps.throw
  | ok b => exact modify_rows (fun _ => rfl) fun _ => rfl

theorem recoverIpmiChannelData_rows (b : BackupRecord) :
  Keeps State.RowsOk (recoverIpmiChannelData id b)
  := by
  unfold recoverIpmiChannelData
  cases b.ipmiChannelData with
  | none =>
    apply Keeps.forM
    intro ch _
    apply Keeps.modify
    exact fun s hs => updateChannel_rows hs
  | some l =>
    apply Keeps.forM
    intro c _
    cases c with
    | none => exact Keeps.throw
    | some c =>
      apply Keeps.modify
      exact fun s hs => updateChannel_rows hs

theorem coverAccountInfo_rows (b : BackupRecord) :
  Keeps State.RowsOk (coverAccountInfo env id b)
  := by
  unfold coverAccountInfo recover
  apply Keeps.bind getAccount_keeps
  intro account
  apply Keeps.bind refuseLastOperateAdmin_keeps
  intro _
  apply Keeps.bind
  · apply Keeps.bind
    · exact updateAccount_rows_of_origin fun _ _ => rfl
    intro _
    apply Keeps.bind (callAccount_rows_of_origin fun _ _ _ => origin_recoverSnmpData)
    intro _
    exact recoverIpmiChannelData_rows b
  intro _
  exact updateAccount_rows_of_origin fun _ _ => showsStored_origin.updatePrivileges ..

theorem forceDeleteAccount_rows :
  Keeps State.RowsOk (forceDeleteAccount id)
  := Keeps.bind getAccount_keeps fun _ => removeAccount_rows

theorem deleteUser_rows :
  Keeps State.RowsOk (deleteUser id)
  := Keeps.bind (modify_rows (fun _ => rfl) fun _ => rfl) fun _ => forceDeleteAccount_rows

theorem renameDup_rows (b : BackupRecord) :
  Keeps State.RowsOk (renameDup env b id)
  := Keeps.bind refuseLastOperateAdmin_keeps fun _ => changeUserName_rows _

theorem recoverAccount_rows (order : List ℕ) :
  Keeps State.RowsOk (recoverAccount env order id)
  := by
  unfold recoverAccount
  apply Keeps.bind Keeps.refuse
  intro _
  apply Keeps.bind Keeps.get
  intro s
  cases s.backup.lookup id with
  | none => exact Keeps.throw
  | some b =>
    have hback (dup : Option ℕ) (e : Err) :
        Keeps State.RowsOk (do
          forDup dup (fun d => changeUserName env d b.accountData.userName)
          throw e : M Unit) :=
      Keeps.bind (forDup_keeps fun _ => changeUserName_rows _) fun _ => Keeps.throw
    apply Keeps.ite
    · unfold recoverAccountWhileIdNotExist
      apply Keeps.bind Keeps.get
      intro s₁
      apply Keeps.bind (forDup_keeps fun _ => renameDup_rows b)
      intro _
      apply Keeps.bind
      · apply Keeps.protect
        · exact Keeps.bind (newAccount_rows _ _) fun _ => Keeps.pure
        · exact hback _
      intro _
      apply Keeps.bind
      · apply Keeps.protect (coverAccountInfo_rows b)
        intro e
        exact Keeps.bind forceDeleteAccount_rows fun _ => hback _ e
      intro _
      exact forDup_keeps fun _ => deleteUser_rows
    · unfold recoverAccountWhileIdExist
      apply Keeps.bind Keeps.get
      intro s₁
      apply Keeps.bind (forDup_keeps fun _ => renameDup_rows b)
      intro _
      apply Keeps.bind
      · exact Keeps.protect (coverAccountInfo_rows b) (hback _)
      intro _
      exact forDup_keeps fun _ => deleteUser_rows

/-! ### Requests -/

theorem recordLogin_rows (ip : Option String) (interface : Option LoginInterface) :
  Keeps State.RowsOk (recordLogin env id ip interface)
  := by
  apply Keeps.modify
  intro s hs
  apply hs.modifyAccount
  exact fun _ _ _ ha => ha

theorem extRecordOperation_rows (auth : AuthEnv) (ctx : AuthCtx) (ext : ExtConfig) :
  Keeps State.RowsOk (extRecordOperation auth ctx ext id)
  := by
  unfold extRecordOperation
  apply Keeps.bind (Keeps.onlyIf (recordLogin_rows _ _))
  intro _
  apply Keeps.onlyIf
  apply Keeps.modify
  intro s hs
  apply hs.modifyAccount
  exact fun _ _ _ ha => ha.of_origin (showsStored_origin.updateInactiveUserStartTime ..)

theorem checkAccountLoginInfo_rows (auth : AuthEnv) (ctx : AuthCtx) (a : Account) :
  Keeps State.RowsOk (checkAccountLoginInfo auth ctx id a)
  := by
  unfold checkAccountLoginInfo
  apply Keeps.bind Keeps.get
  intro s
  apply Keeps.ite Keeps.pure
  apply Keeps.bind Keeps.refuse
  intro _
  unfold checkLoginInterface
  cases ctx.interface with
  | none => exact Keeps.pure
  | some name =>
    simp only
    cases LoginInterface.ofName name with
    | none => exact Keeps.throw
    | some interface => exact Keeps.refuse

theorem authenticate_rows (auth : AuthEnv) (order : List ℕ) (ctx : AuthCtx)
    (name password : String) (ext : ExtConfig) :
  Keeps State.RowsOk (authenticate auth order ctx name password ext)
  := by
  unfold authenticate
  apply Keeps.bind Keeps.refuse
  intro _
  apply Keeps.bind Keeps.refuse
  intro _
  apply Keeps.bind Keeps.get
  intro s
  rcases s.findAccount order name with _ | ⟨i, a⟩
  · exact Keeps.throw
  · apply Keeps.bind Keeps.refuse
    intro _
    apply Keeps.bind Keeps.refuse
    intro _
    apply Keeps.bind Keeps.refuse
    intro _
    apply Keeps.bind (checkAccountLoginInfo_rows auth ctx a)
    intro _
    apply Keeps.bind Keeps.refuse
    intro _
    exact Keeps.bind (extRecordOperation_rows auth ctx ext) fun _ => Keeps.pure

theorem genRmcp20AuthCode_rows (auth : AuthEnv) (order : List ℕ) (ctx : AuthCtx) (name : String)
    (ip : Option String) :
  Keeps State.RowsOk (genRmcp20AuthCode auth order ctx name ip)
  := by
  unfold genRmcp20AuthCode
  apply Keeps.bind Keeps.refuse
  intro _
  apply Keeps.bind Keeps.get
  intro s
  rcases s.findAccount order name with _ | ⟨i, a⟩
  · exact Keeps.throw
  · apply Keeps.bind Keeps.refuse
    intro _
    apply Keeps.bind Keeps.refuse
    intro _
    apply Keeps.bind
    · unfold checkRmcp20Restrictions
      apply Keeps.bind Keeps.get
      intro s
      apply Keeps.ite Keeps.pure
      apply Keeps.bind Keeps.refuse
      intro _
      exact Keeps.bind Keeps.refuse fun _ => Keeps.refuse
    intro _
    apply Keeps.bind (recordLogin_rows _ _)
    intro _
    cases auth.rmcp20Codes a with
    | none => exact Keeps.throw
    | some codes => exact Keeps.pure

theorem genRmcp15AuthCode_rows (auth : AuthEnv) (ctx : AuthCtx) :
  Keeps State.RowsOk (genRmcp15AuthCode auth ctx id)
  := by
  unfold genRmcp15AuthCode
  cases ctx.clientAddr with
  | none => exact Keeps.throw
  | some ip =>
    apply Keeps.bind Keeps.refuse
    intro _
    apply Keeps.bind Keeps.get
    intro s
    cases s.accounts.lookup id with
    | none => exact Keeps.throw
    | some a =>
      apply Keeps.bind Keeps.refuse
      intro _
      apply Keeps.bind Keeps.refuse
      intro _
      apply Keeps.bind Keeps.refuse
      intro _
      apply Keeps.bind Keeps.refuse
      intro _
      apply Keeps.bind (recordLogin_rows _ _)
      intro _
      cases auth.rmcp15Code a with
      | none => exact Keeps.throw
      | some code => exact Keeps.pure

theorem ipmiLocalAuthenticate_rows (auth : AuthEnv) (order : List ℕ) (name password : String) :
  Keeps State.RowsOk (ipmiLocalAuthenticate auth order name password)
  := by
  unfold ipmiLocalAuthenticate
  apply Keeps.bind Keeps.get
  intro s
  rcases s.findAccount order name with _ | ⟨i, a⟩
  · exact Keeps.throw
  · apply Keeps.bind Keeps.refuse
    intro _
    cases a.testPasswordOperation auth.env password with
    | none => exact Keeps.throw
    | some ok =>
      apply Keeps.bind Keeps.refuse
      intro _
      apply Keeps.bind Keeps.refuse
      intro _
      exact Keeps.bind Keeps.refuse fun _ => Keeps.pure

theorem authCall_rows (c : AuthCall) :
  Keeps State.RowsOk c.prog
  := by
  unfold AuthCall.prog
  cases c.req with
  | authenticate name password ext =>
    exact Keeps.bind (authenticate_rows _ _ _ _ _ _) fun _ => Keeps.pure
  | ipmiLocalAuthenticate name password =>
    exact Keeps.bind (ipmiLocalAuthenticate_rows _ _ _ _) fun _ => Keeps.pure
  | genRmcp20AuthCode name ip =>
    exact Keeps.bind (genRmcp20AuthCode_rows _ _ _ _ _) fun _ => Keeps.pure
  | genRmcp15AuthCode id => exact Keeps.bind (genRmcp15AuthCode_rows _ _) fun _ => Keeps.pure

end Rows

/-- The operations that change accounts and their channels, and the requests. -/
inductive RowOp where
  | newAccount (info : Account.Info) (isIpmiOrSnmp : Bool)
  | deleteAccount (id : ℕ) (validationSkipped : Bool)
  | setUserName (naming : NamingEnv) (id : ℕ) (name : String)
  | setAccountPassword (handler id : ℕ) (password : String)
  | setEnabled (id : ℕ) (status : Bool)
  | setRoleId (id roleId : ℕ) (ipmiPrivilege : Option IpmiPrivilege)
  | setLoginInterface (id : ℕ) (interfaces : List String)
  | setLoginRuleIds (id : ℕ) (ids : List String)
  | setFirstLoginPolicy (id : ℕ) (policy : FirstLoginPolicy)
  | setPasswordChangeRequired (id : ℕ) (required : Bool)
  | setIpmiUserAccess (req : UserAccessReq) (ctx : IpmiCtx)
  | updateInactiveStatus (order : List ℕ)
  | checkPasswordValidDays
  | setEmergencyAccount (id : ℕ)
  | setSnmpV3TrapAccount (id : ℕ)
  | backupAccountInfo
  | recoverAccount (order : List ℕ) (id : ℕ)
  | request (c : AuthCall)

/-- An operation, and what it sees of the rest of the system. -/
structure RowCall where
  env : Env
  op : RowOp

/-- The state after a call, whether it succeeds or raises. -/
def rowStep (s : State) (c : RowCall) : State :=
  match c.op with
  | .newAccount info isIpmiOrSnmp => after (newAccount c.env info isIpmiOrSnmp) s
  | .deleteAccount id skipped => after (deleteAccount c.env id skipped) s
  | .setUserName naming id name => after (setUserName c.env naming id name) s
  | .setAccountPassword handler id password => after (setAccountPassword c.env handler id password) s
  | .setEnabled id status => after (setEnabled c.env id status) s
  | .setRoleId id roleId privilege => after (setRoleId c.env id roleId privilege) s
  | .setLoginInterface id interfaces => after (setLoginInterface c.env id interfaces) s
  | .setLoginRuleIds id ids => after (setLoginRuleIds id ids) s
  | .setFirstLoginPolicy id policy => after (setFirstLoginPolicy c.env id policy) s
  | .setPasswordChangeRequired id required => after (setPasswordChangeRequired c.env id required) s
  | .setIpmiUserAccess req ctx => after (setIpmiUserAccess c.env req ctx) s
  | .updateInactiveStatus order => after (updateInactiveStatus c.env order) s
  | .checkPasswordValidDays => after (checkPasswordValidDays c.env) s
  | .setEmergencyAccount id => after (setEmergencyAccount c.env id) s
  | .setSnmpV3TrapAccount id => after (setSnmpV3TrapAccount id) s
  | .backupAccountInfo => after (backupAccountInfo c.env) s
  | .recoverAccount order id => after (recoverAccount c.env order id) s
  | .request r => after r.prog s

theorem rowStep_rows {s : State} (hs : s.RowsOk) (c : RowCall) :
  (rowStep s c).RowsOk
  := by
  unfold rowStep
  cases c.op with
  | newAccount info isIpmiOrSnmp => exact (newAccount_rows _ _).after hs
  | deleteAccount id skipped => exact (deleteAccount_rows _).after hs
  | setUserName naming id name => exact (setUserName_rows _ _).after hs
  | setAccountPassword handler id password => exact (setAccountPassword_rows _ _).after hs
  | setEnabled id status => exact (setEnabled_rows _).after hs
  | setRoleId id roleId privilege => exact (setRoleId_rows _ _).after hs
  | setLoginInterface id interfaces => exact (setLoginInterface_rows _).after hs
  | setLoginRuleIds id ids => exact (setLoginRuleIds_rows _).after hs
  | setFirstLoginPolicy id policy => exact (setFirstLoginPolicy_rows _).after hs
  | setPasswordChangeRequired id required => exact (setPasswordChangeRequired_rows _).after hs
  | setIpmiUserAccess req ctx => exact (setIpmiUserAccess_rows _ _).after hs
  | updateInactiveStatus order => exact (updateInactiveStatus_rows _).after hs
  | checkPasswordValidDays => exact checkPasswordValidDays_rows.after hs
  | setEmergencyAccount id => exact setEmergencyAccount_rows.after hs
  | setSnmpV3TrapAccount id => exact setSnmpV3TrapAccount_rows.after hs
  | backupAccountInfo => exact backupAccountInfo_rows.after hs
  | recoverAccount order id => exact (recoverAccount_rows _).after hs
  | request r => exact (authCall_rows r).after hs

/-- In every run the rows stay where they belong. -/
theorem run_rows {s : State} (hs : s.RowsOk) (calls : List RowCall) :
  ∀ s' ∈ Run.states rowStep s calls, s'.RowsOk
  := Run.invariant (fun _ c hs _ => rowStep_rows hs c) hs (Run.along_of_forall fun _ _ => trivial)

end BmcAccount
