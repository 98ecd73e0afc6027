import BmcAccount.Account.Rows

/-!
# Recovery from a record

A record of an account has the row of the account, with the last login that was not written to
it yet, the rows of the IPMI and SNMP tables, and the rows of its channels.
`recoverAccount_restores` says what a recovery that succeeds leaves: the rows of the record. The
rows of the channels are merged into those that are there, and the flag that tells whether the
account can be deleted is computed anew where another account had to make way.
-/

namespace BmcAccount

open Raise

/-! ## The rows of the channels -/

/-- The rows of the channels of an account. -/
abbrev Channels : Type := ℕ → Option ChannelConfig

/-- The rows after those of a record have been written over them. -/
def Channels.merge (l : List (Option ChannelConfig)) (R : Channels) : Channels :=
  l.foldl (fun R c => c.elim R fun c => Function.update R c.channelNumber (some c)) R

/-- After a merge, a channel has a row of the record, or there is none and it has its own. -/
theorem merge_eq_or (l : List (Option ChannelConfig)) (R : Channels) (ch : ℕ) :
  (∃ c, some c ∈ l ∧ c.channelNumber = ch ∧ R.merge l ch = some c) ∨
    ((∀ c, some c ∈ l → c.channelNumber ≠ ch) ∧ R.merge l ch = R ch)
  := by
  induction l generalizing R with
  | nil => exact Or.inr ⟨fun c hc => (List.not_mem_nil hc).elim, rfl⟩
  | cons x l ih =>
    cases x with
    | none =>
      rcases ih R with ⟨c, hc, hch, heq⟩ | ⟨hnone, heq⟩
      · exact Or.inl ⟨c, List.mem_cons_of_mem _ hc, hch, heq⟩
      · refine Or.inr ⟨fun c hc => hnone c ?_, heq⟩
        simpa using hc
    | some x =>
      rcases ih (Function.update R x.channelNumber (some x)) with ⟨c, hc, hch, heq⟩ | ⟨hnone, heq⟩
      · exact Or.inl ⟨c, List.mem_cons_of_mem _ hc, hch, heq⟩
      · by_cases hx : x.channelNumber = ch
        · refine Or.inl ⟨x, List.mem_cons_self, hx, heq.trans ?_⟩
          rw [← hx, Function.update_self]
        · refine Or.inr ⟨?_, heq.trans (Function.update_of_ne (Ne.symm hx) _ _)⟩
          intro c hc
          rcases List.mem_cons.mp hc with h | h
          · rwa [Option.some_inj.mp h]
          · exact hnone c h

/-- What is read back of a table of channels are its rows, in some order: decoding undoes
encoding. -/
def Env.DecodesChannels (env : Env) (t : Table ℕ ChannelConfig) : Prop :=
  ∀ l, env.jsonChannels t = .ok l → l.Perm (t.entries.map fun e => some e.2)

section Json

variable {env : Env} {t : Table ℕ ChannelConfig} {l : List (Option ChannelConfig)}

theorem Env.DecodesChannels.mem_iff (hjson : env.DecodesChannels t) (ht : ChannelsNamed t)
    (h : env.jsonChannels t = .ok l) (c : ChannelConfig) :
  some c ∈ l ↔ t.lookup c.channelNumber = some c
  := by
  rw [(hjson l h).mem_iff, List.mem_map]
  constructor
  · rintro ⟨⟨ch, row⟩, hmem, heq⟩
    obtain rfl := Option.some_inj.mp heq
    have hrow := Table.mem_entries_iff.mp hmem
    rwa [ht ch row hrow]
  · intro hc
    exact ⟨⟨c.channelNumber, c⟩, Table.mem_entries_iff.mpr hc, rfl⟩

/-- The rows of a table take the place of those of the same channels. -/
theorem Env.DecodesChannels.merge_eq (hjson : env.DecodesChannels t) (ht : ChannelsNamed t)
    (h : env.jsonChannels t = .ok l) (R : Channels) (ch : ℕ) :
  R.merge l ch = (t.lookup ch).or (R ch)
  := by
  rcases merge_eq_or l R ch with ⟨c, hc, rfl, heq⟩ | ⟨hnone, heq⟩
  · rw [heq, (hjson.mem_iff ht h c).mp hc, Option.some_or]
  · cases hrow : t.lookup ch with
    | none => rw [heq, Option.none_or]
    | some row =>
      have hch := ht ch row hrow
      rw [← hch] at hrow
      exact absurd hch (hnone row ((hjson.mem_iff ht h row).mpr hrow))

end Json

/-! ### An encoder that fills gaps -/

theorem le_foldl_max (l : List ℕ) {a n : ℕ} (h : a ≤ n ∨ a ∈ l) :
  a ≤ l.foldl max n
  := by
  induction l generalizing n with
  | nil => simpa using h
  | cons b l ih =>
    apply ih
    rcases h with h | h
    · exact Or.inl (h.trans (le_max_left n b))
    · rcases List.mem_cons.mp h with rfl | h
      · exact Or.inl (le_max_right n a)
      · exact Or.inr h

theorem map_lookup_keys (t : Table ℕ ChannelConfig) :
  t.keys.map t.lookup = t.entries.map fun e => some e.2
  := by
  change (t.entries.map Sigma.fst).map t.lookup = _
  rw [List.map_map]
  apply List.map_congr_left
  intro e he
  exact Table.mem_entries_iff.mp he

/-- The encoder that fills gaps is undone where it has none to fill. -/
theorem decodesChannels_plainEnv_iff (t : Table ℕ ChannelConfig) :
  plainEnv.DecodesChannels t ↔ ∀ l, cjsonChannels t = .ok l → none ∉ l
  := by
  constructor
  · intro hjson l hl hnull
    have hmem := (hjson l hl).mem_iff.mp hnull
    simp at hmem
  · intro hfull l hl
    have hnull := hfull l hl
    change cjsonChannels t = .ok l at hl
    unfold cjsonChannels at hl
    simp only at hl
    split_ifs at hl with hzero
    · cases hl
      exact List.Perm.refl _
    · cases hl
      rw [← map_lookup_keys]
      apply List.Perm.map
      apply (List.perm_ext_iff_of_nodup List.nodup_range' (AList.keys_nodup t)).mpr
      intro ch
      rw [List.mem_range'_1]
      constructor
      · intro hrange
        by_contra hkey
        apply hnull
        rw [List.mem_map]
        exact ⟨ch, List.mem_range'_1.mpr hrange, AList.lookup_eq_none.mpr hkey⟩
      · intro hkey
        have hpos : ch ≠ 0 := by
          rintro rfl
          exact hzero hkey
        have hle := le_foldl_max t.keys (Or.inr hkey : ch ≤ 0 ∨ ch ∈ t.keys)
        omega

/-! ## What is written -/

section Write

variable {env : Env} {id : ℕ} {b : BackupRecord} {s s' : State}

theorem exec_getAccount_eq_ok {e : Err} {a : Account}
    (h : exec (getAccount id e) s = (.ok a, s')) :
  s.accounts.lookup id = some a ∧ s' = s
  := by
  cases ha : s.accounts.lookup id with
  | none =>
    rw [exec_getAccount_none ha] at h
    cases h
  | some a₀ =>
    rw [exec_getAccount ha] at h
    cases h
    exact ⟨rfl, rfl⟩

theorem exec_callAccount_eq_ok {f : Config → Account → Except Err Account}
    (h : exec (callAccount id f) s = (.ok (), s')) :
  ∃ a a', s.accounts.lookup id = some a ∧ f s.config a = .ok a' ∧
    s' = s.modifyAccount id fun _ => a'
  := by
  cases ha : s.accounts.lookup id with
  | none =>
    unfold callAccount at h
    rw [exec_bind_ok (exec_get s)] at h
    simp only [ha] at h
    cases h
  | some a =>
    rw [exec_callAccount ha] at h
    cases hf : f s.config a with
    | error e =>
      simp only [hf] at h
      cases h
    | ok a' =>
      simp only [hf] at h
      cases h
      exact ⟨a, a', rfl, hf, rfl⟩

/-- The account has the rows of the record. -/
structure Account.Holds (b : BackupRecord) (a : Account) : Prop where
  data : a.data = b.accountData
  ipmi : a.ipmi = b.ipmiData
  snmp : a.snmp = some b.snmpData

theorem Account.Holds.updatePrivileges {a : Account} (h : a.Holds b) (cfg : Config)
    (given : Option (List PrivilegeType)) :
  (a.updatePrivileges env cfg given).Holds b
  := by
  unfold Account.updatePrivileges
  split
  · exact h
  · exact ⟨h.data, h.ipmi, h.snmp⟩

/-- The rows of the channels of a record are merged, and the accounts stay; there is no `null` in
the record. -/
theorem exec_recoverIpmiChannelData_ok {l : List (Option ChannelConfig)}
    (hl : b.ipmiChannelData = some l)
    (h : exec (recoverIpmiChannelData id b) s = (.ok (), s')) :
  s'.accounts = s.accounts ∧ s'.channel id = Channels.merge l (s.channel id) ∧ none ∉ l
  := by
  unfold recoverIpmiChannelData at h
  simp only [hl] at h
  clear hl
  induction l generalizing s with
  | nil =>
    cases h
    exact ⟨rfl, rfl, List.not_mem_nil⟩
  | cons c l ih =>
    cases c with
    | none => cases h
    | some c =>
      obtain ⟨haccounts, hchannel, hnull⟩ := ih (s := s.updateChannel id c 1) h
      refine ⟨haccounts, hchannel.trans ?_, ?_⟩
      · apply congrArg (Channels.merge l)
        funext ch
        change _ = Function.update (s.channel id) c.channelNumber (some c) ch
        rw [State.updateChannel, channel_setChannel, Function.update_apply]
        rfl
      · simpa using hnull

/-- An account that has been recovered has the rows of the record. -/
theorem exec_recover_ok {l : List (Option ChannelConfig)} (hl : b.ipmiChannelData = some l)
    {a : Account} (ha : s.accounts.lookup id = some a)
    (h : exec (recover id b) s = (.ok (), s')) :
  (∃ a', s'.accounts.lookup id = some a' ∧ a'.Holds b) ∧
    s'.channel id = Channels.merge l (s.channel id) ∧ none ∉ l
  := by
  let s₁ := s.modifyAccount id (Account.recoverData b)
  have ha₁ : s₁.accounts.lookup id = some (a.recoverData b) := by
    simp [s₁, State.modifyAccount, ha]
  change exec (callAccount id (fun _ => Account.recoverSnmpData b) >>= fun _ =>
    recoverIpmiChannelData id b) s₁ = _ at h
  obtain ⟨⟨⟩, s₂, hcall, hchannels⟩ := exec_bind_eq_ok h
  obtain ⟨a₁, a₂, ha₁', hsnmp, rfl⟩ := exec_callAccount_eq_ok hcall
  obtain rfl := Option.some_inj.mp (ha₁.symm.trans ha₁')
  obtain ⟨haccounts, hmerged⟩ := exec_recoverIpmiChannelData_ok hl hchannels
  refine ⟨⟨a₂, ?_, ?_⟩, hmerged⟩
  · rw [haccounts]
    simp [State.modifyAccount, ha₁]
  · unfold Account.recoverSnmpData at hsnmp
    split at hsnmp
    · cases hsnmp
      exact ⟨rfl, rfl, rfl⟩
    · cases hsnmp

/-- So has one that has been covered. -/
theorem exec_coverAccountInfo_ok {l : List (Option ChannelConfig)}
    (hl : b.ipmiChannelData = some l) (h : exec (coverAccountInfo env id b) s = (.ok (), s')) :
  (∃ a', s'.accounts.lookup id = some a' ∧ a'.Holds b) ∧
    s'.channel id = Channels.merge l (s.channel id) ∧ none ∉ l
  := by
  unfold coverAccountInfo at h
  obtain ⟨a, s₀, hget, hguarded⟩ := exec_bind_eq_ok h
  obtain ⟨ha, rfl⟩ := exec_getAccount_eq_ok hget
  obtain ⟨⟨⟩, s₁, hguard, hcovers⟩ := exec_bind_eq_ok hguarded
  have hs₁ : s₁ = s₀ := by
    by_cases hlast : (decide (a.data.roleId = RoleType.administrator.value)
        && b.accountData.roleId != RoleType.administrator.value) = true ∧ s₀.IsLastOperateAdmin id
    · rw [exec_refuseLastOperateAdmin_error ha hlast] at hguard
      cases hguard
    · rw [exec_refuseLastOperateAdmin_ok ha hlast] at hguard
      cases hguard
      rfl
  rw [hs₁] at hcovers
  obtain ⟨⟨⟩, s₂, hrecover, hprivileges⟩ := exec_bind_eq_ok hcovers
  obtain ⟨⟨a', ha', hholds⟩, hmerged⟩ := exec_recover_ok hl ha hrecover
  cases hprivileges
  refine ⟨⟨a'.updatePrivileges env s₂.config none, ?_, hholds.updatePrivileges _ _⟩, hmerged⟩
  simp [State.modifyAccount, ha']

/-! ### The account of the same name -/

/-- What a program on another account leaves of an account: its object and its channels. -/
def SameAt (id : ℕ) (s₀ s : State) : Prop :=
  s.accounts.lookup id = s₀.accounts.lookup id ∧ s.channels.lookup id = s₀.channels.lookup id

theorem SameAt.channel_eq (h : SameAt id s s') :
  s'.channel id = s.channel id
  := by
  funext ch
  rw [State.channel, State.channel, h.2]

theorem callAccount_sameAt {d : ℕ} (hd : id ≠ d) {f : Config → Account → Except Err Account} :
  Keeps (SameAt id s) (callAccount d f)
  := by
  intro s₁ hs₁
  cases ha : s₁.accounts.lookup d with
  | none =>
    unfold callAccount
    rw [exec_bind_ok (exec_get s₁)]
    simp only [ha]
    exact hs₁
  | some a =>
    rw [exec_callAccount ha]
    cases hf : f s₁.config a with
    | error e => exact hs₁
    | ok a' => exact ⟨(Table.lookup_modify_ne hd _ _).trans hs₁.1, hs₁.2⟩

theorem updateAccount_sameAt {d : ℕ} (hd : id ≠ d) {f : Config → Account → Account} :
  Keeps (SameAt id s) (updateAccount d f)
  := by
  apply Keeps.modify
  intro s₁ hs₁
  exact ⟨(Table.lookup_modify_ne hd _ _).trans hs₁.1, hs₁.2⟩

theorem changeUserName_sameAt {d : ℕ} (hd : id ≠ d) (name : String) :
  Keeps (SameAt id s) (changeUserName env d name)
  := by
  unfold changeUserName
  apply Keeps.bind getAccount_keeps
  intro account
  cases env.checkUserName account.data.accountType name with
  | none => exact Keeps.throw
  | some allowed =>
    apply Keeps.bind Keeps.refuse
    intro _
    apply Keeps.bind (callAccount_sameAt hd)
    intro _
    apply Keeps.bind (callAccount_sameAt hd)
    intro _
    exact updateAccount_sameAt hd

theorem renameDup_sameAt {d : ℕ} (hd : id ≠ d) :
  Keeps (SameAt id s) (renameDup env b d)
  := by
  unfold renameDup
  apply Keeps.bind refuseLastOperateAdmin_keeps
  intro _
  exact changeUserName_sameAt hd _

/-- The flags do not count. -/
theorem enabledAdminNumber_updateDeletable (s : State) :
  (after updateDeletable s).enabledAdminNumber = s.enabledAdminNumber
  := by
  have hadmin : ∀ cfg only i (a : Account),
      (a.updateDeletable cfg only i).checkIsEnabledAdmin = a.checkIsEnabledAdmin := by
    intro cfg only i a
    unfold Account.updateDeletable
    split <;> rfl
  change (List.filter _ (List.map _ _)).length = (List.filter _ _).length
  rw [List.filter_map, List.length_map]
  congr 2
  funext e
  exact hadmin ..

/-- When another account has been deleted, the flags of those that are left are computed. -/
theorem exec_deleteUser_ok {d : ℕ} (hd : id ≠ d) (h : exec (deleteUser d) s = (.ok (), s')) :
  s'.channels.lookup id = s.channels.lookup id ∧
    s'.accounts.lookup id
      = (s.accounts.lookup id).map
        (Account.updateDeletable s'.config (s'.enabledAdminNumber = 1) id)
  := by
  let s₁ : State := { s with config := s.config.forget d }
  change exec (forceDeleteAccount d) s₁ = _ at h
  unfold forceDeleteAccount at h
  obtain ⟨a, s₂, hget, h⟩ := exec_bind_eq_ok h
  obtain ⟨-, rfl⟩ := exec_getAccount_eq_ok hget
  unfold removeAccount at h
  obtain ⟨⟨⟩, s₃, hhistory, h⟩ := exec_bind_eq_ok h
  cases hhistory
  obtain ⟨⟨⟩, s₄, hchannels, h⟩ := exec_bind_eq_ok h
  cases hchannels
  obtain ⟨⟨⟩, s₄, hrow, h⟩ := exec_bind_eq_ok h
  cases hrow
  obtain ⟨a', s₅, hget', h⟩ := exec_bind_eq_ok h
  obtain ⟨-, rfl⟩ := exec_getAccount_eq_ok hget'
  obtain ⟨⟨⟩, s₆, hsnmp, h⟩ := exec_bind_eq_ok h
  obtain ⟨-, rfl⟩ := exec_refuse_eq_ok hsnmp
  obtain ⟨⟨⟩, s₇, herase, h⟩ := exec_bind_eq_ok h
  cases herase
  have hs' := congrArg Prod.snd h
  change after updateDeletable _ = s' at hs'
  subst hs'
  refine ⟨AList.lookup_erase_ne hd, ?_⟩
  rw [enabledAdminNumber_updateDeletable]
  change (Table.map _ _).lookup id = _
  rw [Table.lookup_map, AList.lookup_erase_ne hd]
  apply congrArg (Option.map _)
  exact (Table.lookup_modify_ne hd _ _).trans (Table.lookup_modify_ne hd _ _)

/-! ### An account that is created -/

theorem exec_newAccountToDbAndMdb_ok {info : Account.Info}
    (h : exec (newAccountToDbAndMdb env id info true) s = (.ok (), s')) :
  s'.channels = (s.newAccountChannels id info.roleId).channels
  := by
  unfold newAccountToDbAndMdb at h
  rw [exec_bind_ok (exec_get s)] at h
  cases hinit : Account.init env info with
  | error e =>
    simp only [hinit] at h
    cases h
  | ok a =>
    simp only [hinit] at h
    let s₁ : State := { s with accounts := s.accounts.insert id (a.entered env s.config) }
    have hs' : (s₁.newAccountChannels id info.roleId).channels = s'.channels :=
      congrArg (fun r => r.2.channels) h
    rw [← hs']
    unfold State.newAccountChannels
    split_ifs <;> rfl

theorem isSome_channel_newAccountChannels (hid : 2 ≤ id ∧ id ≤ 17) (roleId ch : ℕ) :
  ((s.newAccountChannels id roleId).channel id ch).isSome
    ↔ (s.channel id ch).isSome ∨ ch ∈ defaultChannels
  := by
  have hrange : (decide (minUserNum ≤ id) && decide (id ≤ maxUserNum)) = true := by
    simp [minUserNum, maxUserNum, hid.1, hid.2]
  rw [State.newAccountChannels, if_pos hrange]
  simp only [State.channel, AList.lookup_insert, Option.bind_some, defaultChannels, List.foldl_cons,
    List.foldl_nil, List.mem_cons, List.not_mem_nil, or_false, AList.lookup_isSome, AList.mem_insert]
  cases s.channels.lookup id with
  | none => simp [or_comm]
  | some t =>
    simp only [Option.getD_some, Option.bind_some, AList.lookup_isSome]
    tauto

/-- An account that has been created for a record has the default channels. -/
theorem exec_newAccount_ok (hid : 2 ≤ id ∧ id ≤ 17) {i : ℕ}
    (h : exec (newAccount env (b.info id) true) s = (.ok i, s')) :
  i = id ∧ ∀ ch, (s'.channel id ch).isSome ↔ (s.channel id ch).isSome ∨ ch ∈ defaultChannels
  := by
  have hzero : (b.info id).id ≠ 0 := by
    change id ≠ 0
    omega
  unfold newAccount at h
  split at h
  · cases h
  obtain ⟨⟨⟩, s₁, hallowed, h⟩ := exec_bind_eq_ok h
  obtain ⟨-, rfl⟩ := exec_refuse_eq_ok hallowed
  obtain ⟨⟨⟩, s₂, hrole, h⟩ := exec_bind_eq_ok h
  obtain ⟨-, rfl⟩ := exec_refuse_eq_ok hrole
  rw [exec_bind_ok (exec_get s)] at h
  cases hvalid : getValidAccountId s (b.info id).id (b.info id).oem with
  | error e =>
    simp only [hvalid] at h
    cases h
  | ok j =>
    have hj : j = id := getValidAccountId_eq_of_ne hzero hvalid
    subst hj
    simp only [hvalid] at h
    obtain ⟨⟨⟩, s₃, hfresh, h⟩ := exec_bind_eq_ok h
    obtain ⟨-, rfl⟩ := exec_refuse_eq_ok hfresh
    obtain ⟨⟨⟩, s₄, hnew, h⟩ := exec_bind_eq_ok h
    cases h
    refine ⟨rfl, fun ch => ?_⟩
    rw [State.channel, exec_newAccountToDbAndMdb_ok hnew]
    exact isSome_channel_newAccountChannels hid _ ch

/-- A program whose handler raises again has not been interrupted. -/
theorem exec_protect_eq_ok {m : M Unit} {handler : Err → M Unit}
    (hraises : ∀ e s, ∃ e' s', exec (handler e) s = (.error e', s'))
    (h : exec (protect m handler) s = (.ok (), s')) :
  exec m s = (.ok (), s')
  := by
  rw [exec_protect] at h
  rcases hm : exec m s with ⟨e | u, s₁⟩
  · obtain ⟨e', s₂, hraise⟩ := hraises e s₁
    simp only [hm, hraise] at h
    cases h
  · simpa only [hm] using h

end Write

/-! ## Backup and recovery -/

section Recovery

variable {env : Env} {order : List ℕ} {id : ℕ} {b : BackupRecord} {s s' s'' : State}

/-- The account `a'` has the rows that `a` had when its record was written, with the last login
that had not been written to the row, and perhaps another flag. -/
structure Account.RestoredFrom (a a' : Account) : Prop where
  data : a'.data = { a.getAccountData with deletable := a'.data.deletable }
  defaults : a'.defaults = a.defaults
  ipmi : a'.ipmi = a.ipmi
  snmp : a'.snmp = a.snmp

/-- There is a row for the channel when a record is merged: an account that is not there is
created first, with the default channels. -/
def State.HasRowFor (s : State) (id ch : ℕ) : Prop :=
  (s.channel id ch).isSome ∨ s.accounts.lookup id = none ∧ ch ∈ defaultChannels

theorem getBackupInfo_eq_ok {a : Account} (h : getBackupInfo env s id a = .ok b) :
  ∃ snmp t l, a.snmp = some snmp ∧ s.channels.lookup id = some t ∧ env.jsonChannels t = .ok l ∧
    b = ⟨a.getAccountData, a.ipmi, snmp, some l⟩
  := by
  unfold getBackupInfo at h
  split at h
  · next snmp t hsnmp ht =>
    cases hl : env.jsonChannels t with
    | error e =>
      rw [hl] at h
      cases h
    | ok l =>
      rw [hl] at h
      cases h
      exact ⟨snmp, t, l, hsnmp, ht, hl, rfl⟩
  · cases h

/-- What holds of an account that has been covered when the account of the same name is gone. -/
structure Ends (b : BackupRecord) (dup : Option ℕ) (s s' : State) (id : ℕ) (a' : Account) :
    Prop where
  lookup : s'.accounts.lookup id = some a'
  data : a'.data = { b.accountData with deletable := a'.data.deletable }
  ipmi : a'.ipmi = b.ipmiData
  snmp : a'.snmp = some b.snmpData
  deletable : dup = none → a'.data.deletable = b.accountData.deletable
  refreshed : dup ≠ none →
    a'.updateDeletable s'.config (s'.enabledAdminNumber = 1) id = a'
  channels : s'.channel id = s.channel id

theorem Account.updateDeletable_updateDeletable (cfg : Config) (only : Bool) (i : ℕ)
    (a : Account) :
  (a.updateDeletable cfg only i).updateDeletable cfg only i = a.updateDeletable cfg only i
  := by
  obtain ⟨cls, data, inTable, defaults, ipmi, snmp, history, privileges, login⟩ := a
  cases cls <;> rfl

theorem exec_forDup_deleteUser_ok {dup : Option ℕ} (hdup : ∀ d, dup = some d → id ≠ d)
    {a : Account} (ha : s.accounts.lookup id = some a) (hholds : a.Holds b)
    (h : exec (forDup dup deleteUser) s = (.ok (), s')) :
  ∃ a', Ends b dup s s' id a'
  := by
  cases dup with
  | none =>
    cases h
    refine ⟨a, ?_⟩
    exact
      { lookup := ha
        data := by rw [hholds.data]
        ipmi := hholds.ipmi
        snmp := hholds.snmp
        deletable := fun _ => by rw [hholds.data]
        refreshed := fun h => absurd rfl h
        channels := rfl }
  | some d =>
    obtain ⟨hchannels, haccount⟩ := exec_deleteUser_ok (hdup d rfl) h
    rw [ha, Option.map_some] at haccount
    refine ⟨a.updateDeletable s'.config (s'.enabledAdminNumber = 1) id, ?_⟩
    exact
      { lookup := haccount
        data := by
          rw [← hholds.data]
          unfold Account.updateDeletable
          split <;> rfl
        ipmi := by
          rw [← hholds.ipmi]
          unfold Account.updateDeletable
          split <;> rfl
        snmp := by
          rw [← hholds.snmp]
          unfold Account.updateDeletable
          split <;> rfl
        deletable := fun h => (Option.some_ne_none d h).elim
        refreshed := fun _ => Account.updateDeletable_updateDeletable ..
        channels := by
          funext ch
          rw [State.channel, State.channel, hchannels] }

/-- What a recovery that succeeds does: it covers the account, and the account of the same name
goes. -/
def Merges (order : List ℕ) (b : BackupRecord) (l : List (Option ChannelConfig)) (id : ℕ)
    (s' s'' : State) : Prop :=
  ∃ s₃ a' R, Ends b (s'.dupOf order id b) s₃ s'' id a' ∧
    (s₃.channel id = Channels.merge l R ∧ none ∉ l) ∧
    ∀ ch, (R ch).isSome ↔ s'.HasRowFor id ch

theorem ne_of_dupOf {d : ℕ} (h : s.dupOf order id b = some d) :
  id ≠ d
  := (exists_of_dupOf h).1.symm

theorem forDup_renameDup_sameAt {dup : Option ℕ} (hdup : ∀ d, dup = some d → id ≠ d)
    (h : exec (forDup dup (renameDup env b)) s = (.ok (), s')) :
  SameAt id s s'
  := by
  cases dup with
  | none =>
    cases h
    exact ⟨rfl, rfl⟩
  | some d =>
    have hsame : SameAt id s (after (renameDup env b d) s) :=
      (renameDup_sameAt (hdup d rfl)).after ⟨rfl, rfl⟩
    rwa [show after (renameDup env b d) s = s' from congrArg Prod.snd h] at hsame

theorem rollback_raises (dup : Option ℕ) (name : String) (e : Err) (s : State) :
  ∃ e' s', exec (do forDup dup (fun d => changeUserName env d name); throw e : M Unit) s
    = (.error e', s')
  := by
  obtain ⟨e', s', hraise, -⟩ := exec_forDup_changeUserName env dup name e s
  exact ⟨e', s', hraise⟩

theorem recoverAccountWhileIdExist_ok {l : List (Option ChannelConfig)}
    (hl : b.ipmiChannelData = some l) (hsome : s'.accounts.lookup id ≠ none)
    (h : exec (recoverAccountWhileIdExist env order id b) s' = (.ok (), s'')) :
  Merges order b l id s' s''
  := by
  unfold recoverAccountWhileIdExist at h
  rw [exec_bind_ok (exec_get s')] at h
  obtain ⟨⟨⟩, s₁, hrename, hcovers⟩ := exec_bind_eq_ok h
  obtain ⟨⟨⟩, s₂, hprotect, hdelete⟩ := exec_bind_eq_ok hcovers
  have hsame := forDup_renameDup_sameAt (fun d hd => ne_of_dupOf hd) hrename
  have hcover := exec_protect_eq_ok (rollback_raises _ _) hprotect
  obtain ⟨⟨a, ha, hholds⟩, hmerged⟩ := exec_coverAccountInfo_ok hl hcover
  obtain ⟨a', hends⟩ := exec_forDup_deleteUser_ok (fun d hd => ne_of_dupOf hd) ha hholds hdelete
  refine ⟨s₂, a', s₁.channel id, hends, hmerged, fun ch => ?_⟩
  rw [hsame.channel_eq]
  exact ⟨Or.inl, fun h => h.resolve_right fun h => hsome h.1⟩

theorem recoverAccountWhileIdNotExist_ok {l : List (Option ChannelConfig)}
    (hl : b.ipmiChannelData = some l) (hid : 2 ≤ id ∧ id ≤ 17)
    (hnone : s'.accounts.lookup id = none)
    (h : exec (recoverAccountWhileIdNotExist env order id b) s' = (.ok (), s'')) :
  Merges order b l id s' s''
  := by
  unfold recoverAccountWhileIdNotExist at h
  rw [exec_bind_ok (exec_get s')] at h
  simp only at h
  rw [← dupOf_eq_getAccountByName order b (Option.map_eq_none_iff.mpr hnone)] at h
  obtain ⟨⟨⟩, s₁, hrename, hcreates⟩ := exec_bind_eq_ok h
  obtain ⟨⟨⟩, s₂, hprotect, hcovers⟩ := exec_bind_eq_ok hcreates
  obtain ⟨⟨⟩, s₃, hprotect', hdelete⟩ := exec_bind_eq_ok hcovers
  have hsame := forDup_renameDup_sameAt (fun d hd => ne_of_dupOf hd) hrename
  obtain ⟨i, s₄, hnew, hpure⟩ :=
    exec_bind_eq_ok (exec_protect_eq_ok (rollback_raises _ _) hprotect)
  cases hpure
  obtain ⟨-, hrows⟩ := exec_newAccount_ok hid hnew
  have hcover : exec (coverAccountInfo env id b) s₂ = (.ok (), s₃) := by
    apply exec_protect_eq_ok _ hprotect'
    intro e s
    rw [exec_bind]
    rcases exec (forceDeleteAccount id) s with ⟨e' | u, s'⟩
    · exact ⟨e', s', rfl⟩
    · exact rollback_raises _ _ e s'
  obtain ⟨⟨a, ha, hholds⟩, hmerged⟩ := exec_coverAccountInfo_ok hl hcover
  obtain ⟨a', hends⟩ := exec_forDup_deleteUser_ok (fun d hd => ne_of_dupOf hd) ha hholds hdelete
  refine ⟨s₃, a', s₂.channel id, hends, hmerged, fun ch => ?_⟩
  rw [hrows, hsame.channel_eq]
  exact or_congr_right ⟨fun h => ⟨hnone, h⟩, fun h => h.2⟩

theorem recoverAccount_ok {l : List (Option ChannelConfig)} (hl : b.ipmiChannelData = some l)
    (hrecord : s'.backup.lookup id = some b)
    (h : exec (recoverAccount env order id) s' = (.ok (), s'')) :
  (2 ≤ id ∧ id ≤ 17) ∧ Merges order b l id s' s''
  := by
  unfold recoverAccount at h
  obtain ⟨⟨⟩, s₁, hrefuse, hrecovers⟩ := exec_bind_eq_ok h
  obtain ⟨hrange, rfl⟩ := exec_refuse_eq_ok hrefuse
  have hid : 2 ≤ id ∧ id ≤ 17 := by
    simp only [Bool.or_eq_false_iff, decide_eq_false_iff_not] at hrange
    omega
  rw [exec_bind_ok (exec_get s')] at hrecovers
  simp only [hrecord] at hrecovers
  refine ⟨hid, ?_⟩
  cases ha : s'.accounts.lookup id with
  | none =>
    rw [ha] at hrecovers
    exact recoverAccountWhileIdNotExist_ok hl hid ha hrecovers
  | some a =>
    rw [ha] at hrecovers
    apply recoverAccountWhileIdExist_ok hl _ hrecovers
    rw [ha]
    exact Option.some_ne_none a

end Recovery

/-- A state of a run that starts with its rows where they belong. -/
def State.Reachable (s : State) : Prop :=
  ∃ (s₀ : State) (calls : List RowCall), s₀.RowsOk ∧ s ∈ Run.states rowStep s₀ calls

theorem State.Reachable.rowsOk {s : State} (h : s.Reachable) : s.RowsOk := by
  obtain ⟨s₀, calls, hs₀, hs⟩ := h
  exact run_rows hs₀ calls s hs

/-- A recovery that succeeds leaves the rows of the record, whatever has been done to the account
since, where decoding undoes encoding. The rows of the channels are all there, and no others if no
other channel has one when they are merged. The flag is that of the record, unless another account
had its name: then it is computed with those of all accounts. -/
theorem recoverAccount_restores {env₀ env : Env} {order : List ℕ} {id : ℕ} {b : BackupRecord}
    {s s' s'' : State} (hs : s.Reachable) {a : Account} (ha : s.accounts.lookup id = some a)
    (hb : getBackupInfo env₀ s id a = .ok b)
    (hjson : ∀ t, s.channels.lookup id = some t → env₀.DecodesChannels t)
    (hs' : s'.Reachable) (hrecord : s'.backup.lookup id = some b)
    (h : exec (recoverAccount env order id) s' = (.ok (), s'')) :
  ∃ a'', s''.accounts.lookup id = some a'' ∧ a.RestoredFrom a'' ∧
    (s'.dupOf order id b = none → a''.data.deletable = a.data.deletable) ∧
    (s'.dupOf order id b ≠ none →
      a''.updateDeletable s''.config (s''.enabledAdminNumber = 1) id = a'') ∧
    (∀ ch row, s.channel id ch = some row → s''.channel id ch = some row) ∧
    ((∀ ch, s'.HasRowFor id ch → (s.channel id ch).isSome) → s''.channel id = s.channel id)
  := by
  obtain ⟨snmp, t, l, hsnmp, ht, hl, rfl⟩ := getBackupInfo_eq_ok hb
  obtain ⟨hid, s₃, a', R, hends, ⟨hchannel, -⟩, hR⟩ := recoverAccount_ok rfl hrecord h
  have hordinary : id ≠ interChassisAccountId := by
    unfold interChassisAccountId
    omega
  have hs'' : s''.RowsOk := by
    have hkeeps := (@recoverAccount_rows id env order).after hs'.rowsOk
    rwa [after, h] at hkeeps
  have hrows (ch : ℕ) : s''.channel id ch = (s.channel id ch).or (R ch) := by
    rw [hends.channels, hchannel, (hjson t ht).merge_eq (hs.rowsOk.named id t ht) hl,
      State.channel, ht, Option.bind_some]
  refine ⟨a', hends.lookup, ?_, hends.deletable, hends.refreshed, ?_, ?_⟩
  · exact
      { data := hends.data
        defaults := (hs''.ordinary id a' hends.lookup hordinary).2.trans
          (hs.rowsOk.ordinary id a ha hordinary).2.symm
        ipmi := hends.ipmi
        snmp := hends.snmp.trans hsnmp.symm }
  · intro ch row hrow
    rw [hrows, hrow, Option.some_or]
  · intro hcovers
    funext ch
    rw [hrows]
    cases hrow : s.channel id ch with
    | some row => rfl
    | none =>
      rw [Option.none_or]
      cases hRow : R ch with
      | none => rfl
      | some row =>
        have hsome := hcovers ch ((hR ch).mp (by rw [hRow]; rfl))
        rw [hrow] at hsome
        cases hsome

/-- With the encoder that fills gaps, a recovery that succeeds is one from a record without any:
where it is not undone, the recovery raises. -/
theorem decodesChannels_of_recovered {env : Env} {order : List ℕ} {id : ℕ} {b : BackupRecord}
    {s s' s'' : State} {a : Account} (hb : getBackupInfo plainEnv s id a = .ok b)
    (hrecord : s'.backup.lookup id = some b)
    (h : exec (recoverAccount env order id) s' = (.ok (), s'')) {t : Table ℕ ChannelConfig}
    (ht : s.channels.lookup id = some t) :
  plainEnv.DecodesChannels t
  := by
  obtain ⟨snmp, t', l, -, ht', hl, rfl⟩ := getBackupInfo_eq_ok hb
  obtain rfl := Option.some_inj.mp (ht'.symm.trans ht)
  obtain ⟨-, -, -, -, -, ⟨-, hnull⟩, -⟩ := recoverAccount_ok rfl hrecord h
  rw [decodesChannels_plainEnv_iff]
  intro l' hl'
  cases hl.symm.trans hl'
  exact hnull

/-! ### A deputy who is given another channel -/

/-- Two administrators. -/
def ownerAndDeputy : State :=
  plainState [(2, plainAccount "owner" 4 223), (3, plainAccount "deputy" 4 223)]

/-- A login of the second one from the web. -/
def deputyLogin : AuthCall where
  auth :=
    { env := plainEnv
      baseCheckUserName := fun _ => true
      loginRules := fun _ _ => true
      rmcp20Codes := fun _ => none
      rmcp15Code := fun _ => none }
  order := [2, 3]
  ctx := ⟨some "192.168.1.2", some "Web"⟩
  req := .authenticate "deputy" "" ⟨false, true, false⟩

/-- The deputy logs in, and the records are written. -/
def beforeBackup : List RowCall :=
  [⟨plainEnv, .setRoleId 2 4 none⟩, ⟨plainEnv, .request deputyLogin⟩,
   ⟨plainEnv, .backupAccountInfo⟩]

/-- Then it is given a third channel and another name, its name goes to another account, and the
owner becomes an operator. -/
def afterBackup : List RowCall :=
  [⟨remappedEnv, .setIpmiUserAccess { secondChannelReq 3 4 with channelNumber := 3 } ⟨some 1, none⟩⟩,
   ⟨plainEnv, .setUserName plainNaming 3 "deputy2"⟩,
   ⟨plainEnv, .newAccount ⟨4, "deputy", "", 3, 223, none, false, false⟩ true⟩,
   ⟨plainEnv, .setRoleId 2 3 none⟩]

/-- The state when the records are written, and that in which the deputy is recovered. -/
def backedUpDeputy : State := beforeBackup.foldl rowStep ownerAndDeputy

def renamedDeputy : State := (beforeBackup ++ afterBackup).foldl rowStep ownerAndDeputy

theorem rowsOk_plainState {accounts : List (ℕ × Account)} (h : ∀ e ∈ accounts, e.2.Ordinary) :
  (plainState accounts).RowsOk
  := by
  constructor
  · intro id t ht ch row hrow
    rw [plainState, AList.lookup_to_alist] at ht
    obtain ⟨e, -, heq⟩ := List.mem_map.mp (List.of_mem_dlookup ht)
    cases heq
    rw [AList.lookup_to_alist] at hrow
    obtain ⟨ch', -, heq⟩ := List.mem_map.mp (List.of_mem_dlookup hrow)
    cases heq
    rfl
  · intro id a ha _
    rw [plainState, AList.lookup_to_alist] at ha
    obtain ⟨e, he, heq⟩ := List.mem_map.mp (List.of_mem_dlookup ha)
    cases heq
    exact h e he

theorem rowsOk_ownerAndDeputy : ownerAndDeputy.RowsOk := by
  apply rowsOk_plainState
  intro e he
  fin_cases he
  · exact ⟨by decide, rfl⟩
  · exact ⟨by decide, rfl⟩

deriving instance DecidableEq for AccountData, IpmiUserInfo, SnmpUserInfo, ChannelConfig, BackupRecord

/-- The record of the deputy is that of its account, and it is still there. -/
theorem backedUpDeputy_recorded :
  ∃ a b, backedUpDeputy.accounts.lookup 3 = some a ∧ getBackupInfo plainEnv backedUpDeputy 3 a = .ok b
    ∧ renamedDeputy.backup.lookup 3 = some b
  := by
  have hrecorded : ((backedUpDeputy.accounts.lookup 3).any fun a =>
      (getBackupInfo plainEnv backedUpDeputy 3 a).toOption.any fun b =>
        renamedDeputy.backup.lookup 3 = some b) = true := by decide +kernel
  obtain ⟨a, ha, hrecorded⟩ := (Option.any_eq_true _ _).mp hrecorded
  obtain ⟨b, hb, hrecorded⟩ := (Option.any_eq_true _ _).mp hrecorded
  refine ⟨a, b, ha, ?_, of_decide_eq_true hrecorded⟩
  cases hinfo : getBackupInfo plainEnv backedUpDeputy 3 a with
  | error e =>
    rw [hinfo] at hb
    cases hb
  | ok b' =>
    rw [hinfo] at hb
    exact congrArg Except.ok (Option.some_inj.mp hb)

theorem recoverAccount_restores_deputy :
  ∃ a a'', backedUpDeputy.accounts.lookup 3 = some a ∧
    (after (recoverAccount plainEnv [2, 3, 4] 3) renamedDeputy).accounts.lookup 3 = some a'' ∧
    a.RestoredFrom a''
  := by
  obtain ⟨a, b, ha, hb, hrecord⟩ := backedUpDeputy_recorded
  have hs : backedUpDeputy.Reachable :=
    ⟨ownerAndDeputy, beforeBackup, rowsOk_ownerAndDeputy, Run.foldl_mem_states _ _ _⟩
  have hs' : renamedDeputy.Reachable :=
    ⟨ownerAndDeputy, beforeBackup ++ afterBackup, rowsOk_ownerAndDeputy, Run.foldl_mem_states _ _ _⟩
  have hok : exec (recoverAccount plainEnv [2, 3, 4] 3) renamedDeputy
      = (.ok (), after (recoverAccount plainEnv [2, 3, 4] 3) renamedDeputy) :=
    exec_eq_ok_after (by decide +kernel)
  have hjson (t : Table ℕ ChannelConfig) (ht : backedUpDeputy.channels.lookup 3 = some t) :
      plainEnv.DecodesChannels t := decodesChannels_of_recovered hb hrecord hok ht
  obtain ⟨a'', ha'', hrestored, -⟩ := recoverAccount_restores hs ha hb hjson hs' hrecord hok
  exact ⟨a, a'', ha, ha'', hrestored⟩

/-- The rows of an account. -/
def Account.rows (a : Account) : AccountData × DefaultData × IpmiUserInfo × Option SnmpUserInfo :=
  (a.data, a.defaults, a.ipmi, a.snmp)

/-- The recovery succeeds. The row has the last login that had not been written to it and another
flag, and the channel that was added stays. -/
theorem deputy_not_as_backed_up :
  (∃ a b, backedUpDeputy.accounts.lookup 3 = some a ∧
      getBackupInfo plainEnv backedUpDeputy 3 a = .ok b ∧ renamedDeputy.backup.lookup 3 = some b) ∧
    (exec (recoverAccount plainEnv [2, 3, 4] 3) renamedDeputy).1 = .ok () ∧
    (after (recoverAccount plainEnv [2, 3, 4] 3) renamedDeputy).view Account.rows 3
      ≠ backedUpDeputy.view Account.rows 3 ∧
    (after (recoverAccount plainEnv [2, 3, 4] 3) renamedDeputy).channel 3
      ≠ backedUpDeputy.channel 3
  := by
  refine ⟨backedUpDeputy_recorded, by decide +kernel, fun h => ?_, fun h => ?_⟩
  · have hflag := congrArg (Option.map fun r => r.1.deletable) h
    revert hflag
    decide +kernel
  · have hrow := congrArg (fun R => Option.isSome (R 3)) h
    revert hrow
    decide +kernel

end BmcAccount
