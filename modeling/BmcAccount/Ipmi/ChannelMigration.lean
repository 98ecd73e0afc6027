import BmcAccount.Account.Recover
import BmcAccount.Account.UserAccess

/-!
# Migration of the channel access

What a user may do over IPMI was once a part of the row of the user, and is now a row for
every channel. `sync_and_update_ipmi_channel_config` brings the rows of channel 1 up to the
old rows, and marks each old row when it is done. An account that is recovered from a backup
without channels gets them from the old row as well.

The level `RESERVED` of an old row means no access, and `get_ipmi_user_privilege` reads it so;
the migration and the recovery copy the number. And the migration marks an old row also when
the account has no channel 1. Where neither is the case, the migration is faithful
(`migration_faithful_iff`).
-/

namespace BmcAccount

namespace ChannelMigration

open Raise

/-- A row of `IpmiUserInfo` with its mark. -/
structure LegacyRow where
  ipmi : IpmiUserInfo
  isSynced : Bool

/-- The tables `IpmiUserInfo` and `IpmiChannelConfig`. -/
@[ext]
structure Tables where
  legacy : Table ℕ LegacyRow
  channels : Table ℕ (Table ℕ ChannelConfig)

namespace Tables

/-- The row of a channel of the account `id`. -/
def channel (t : Tables) (id channelNumber : ℕ) : Option ChannelConfig :=
  (t.channels.lookup id).bind (·.lookup channelNumber)

/-- The old rows that have no mark. -/
def unsynced (t : Tables) : List (Sigma fun _ : ℕ => LegacyRow) :=
  t.legacy.entries.filter fun e => !e.2.isSynced

end Tables

/-- `data_to_update`, stored in a row. -/
def dataToUpdate (r : IpmiUserInfo) (c : ChannelConfig) : ChannelConfig :=
  { c with
    callbackRestriction := r.isCallin
    linkAuthenticationEnabled := r.isEnableAuth = 1
    ipmiMessagingEnabled := r.isEnableIpmiMsg = 1
    privilegeLimit := r.privilege1.value }

/-- The body of the loop: the row of channel 1, if there is one, is updated, and the old row
is marked. -/
def syncRow (t : Tables) (e : Sigma fun _ : ℕ => LegacyRow) : Tables where
  legacy := t.legacy.modify e.1 fun r => { r with isSynced := true }
  channels := t.channels.modify e.1 fun c => c.modify 1 (dataToUpdate e.2.ipmi)

/-- `sync_and_update_ipmi_channel_config`. -/
def syncAndUpdateIpmiChannelConfig (t : Tables) : Tables :=
  t.unsynced.foldl syncRow t

/-! ## What is meant -/

/-- A row of a channel gives the access that the old row means: the level is what
`get_ipmi_user_privilege` reads for an account with the old row. -/
structure Grants (c : ChannelConfig) (r : IpmiUserInfo) : Prop where
  privilege : ∀ a : Account, a.ipmi = r → c.privilegeLimit = a.getIpmiUserPrivilege.value
  callback : c.callbackRestriction = r.isCallin
  link : c.linkAuthenticationEnabled = true ↔ r.isEnableAuth = 1
  messaging : c.ipmiMessagingEnabled = true ↔ r.isEnableIpmiMsg = 1

/-- The tables `t'` come from a faithful migration of `t`. -/
structure Migrated (t t' : Tables) : Prop where
  /-- An account that is migrated has on channel 1 what the old row means. -/
  access : ∀ id r, t.legacy.lookup id = some r → r.isSynced = false →
    (t.channel id 1).isSome → ∃ c, t'.channel id 1 = some c ∧ Grants c r.ipmi
  /-- A mark is new only where channel 1 has got what the old row means. -/
  marked : ∀ id r r', t.legacy.lookup id = some r → r.isSynced = false →
    t'.legacy.lookup id = some r' → r'.isSynced = true →
    ∃ c, t'.channel id 1 = some c ∧ Grants c r.ipmi
  /-- The accounts that were done before, and those without an old row, keep their rows. -/
  done : ∀ id, (∀ r, t.legacy.lookup id = some r → r.isSynced = true) →
    t'.legacy.lookup id = t.legacy.lookup id ∧ ∀ ch, t'.channel id ch = t.channel id ch
  /-- The other channels are left alone. -/
  others : ∀ id ch, ch ≠ 1 → t'.channel id ch = t.channel id ch

/-- The recovery of the channels of an account from `b` returns, and the account has on
channel 1 what the old row in `b` means. -/
def Recovers (b : BackupRecord) : Prop :=
  ∀ (s : State) (id : ℕ), ∃ s' c, exec (recoverIpmiChannelData id b) s = (.ok (), s')
    ∧ s'.channel id 1 = some c ∧ Grants c b.ipmiData

/-! ## The number of a level -/

/-- A row that gives the number of the old level gives the access that is meant exactly
when the level is not reserved. -/
theorem grants_iff {c : ChannelConfig} {r : IpmiUserInfo}
    (hprivilege : c.privilegeLimit = r.privilege1.value)
    (hcallback : c.callbackRestriction = r.isCallin)
    (hlink : c.linkAuthenticationEnabled = decide (r.isEnableAuth = 1))
    (hmessaging : c.ipmiMessagingEnabled = decide (r.isEnableIpmiMsg = 1)) :
  Grants c r ↔ r.privilege1 ≠ .reserved
  := by
  constructor
  · intro h hreserved
    have hlimit := h.privilege { plainAccount "" 0 0 with ipmi := r } rfl
    rw [hprivilege, hreserved, Account.getIpmiUserPrivilege, if_pos hreserved] at hlimit
    exact absurd hlimit (by decide)
  · intro h
    exact {
      privilege := by
        rintro a rfl
        rw [hprivilege, Account.getIpmiUserPrivilege, if_neg h]
      callback := hcallback
      link := by rw [hlink, decide_eq_true_iff]
      messaging := by rw [hmessaging, decide_eq_true_iff] }

theorem grants_dataToUpdate_iff (r : IpmiUserInfo) (c : ChannelConfig) :
  Grants (dataToUpdate r c) r ↔ r.privilege1 ≠ .reserved
  := grants_iff rfl rfl rfl rfl

/-! ## One run -/

section

variable {t : Tables}

theorem mem_unsynced_iff {e : Sigma fun _ : ℕ => LegacyRow} :
  e ∈ t.unsynced ↔ t.legacy.lookup e.1 = some e.2 ∧ e.2.isSynced = false
  := by
  rw [Tables.unsynced, List.mem_filter, ← Table.mem_entries_iff]
  simp

/-- No account is visited twice. -/
theorem nodup_keys_unsynced (t : Tables) :
  (t.unsynced.map Sigma.fst).Nodup
  := by
  apply List.Nodup.sublist (List.Sublist.map _ List.filter_sublist)
  exact t.legacy.nodupKeys

theorem notMem_keys_unsynced {id : ℕ}
    (h : ∀ r, t.legacy.lookup id = some r → r.isSynced = true) :
  id ∉ t.unsynced.map Sigma.fst
  := by
  intro hmem
  obtain ⟨e, he, rfl⟩ := List.mem_map.mp hmem
  obtain ⟨hlookup, hmark⟩ := mem_unsynced_iff.mp he
  rw [h e.2 hlookup] at hmark
  simp at hmark

/-- The run changes the two tables independently of each other. -/
theorem foldl_syncRow (l : List (Sigma fun _ : ℕ => LegacyRow)) (t : Tables) :
  l.foldl syncRow t =
    { legacy := l.foldl (fun t e => t.modify e.1 fun r => { r with isSynced := true }) t.legacy
      channels := l.foldl (fun t e => t.modify e.1 fun c => c.modify 1 (dataToUpdate e.2.ipmi))
        t.channels }
  := by
  induction l generalizing t with
  | nil => rfl
  | cons e l ih =>
    rw [List.foldl_cons, ih]
    rfl

/-- An old row without a mark gets one. -/
theorem legacy_sync {id : ℕ} {r : LegacyRow} (hr : t.legacy.lookup id = some r)
    (hs : r.isSynced = false) :
  (syncAndUpdateIpmiChannelConfig t).legacy.lookup id = some { r with isSynced := true }
  := by
  have h := Table.lookup_foldl_modify_of_mem Sigma.fst
    (fun (_ : Sigma fun _ : ℕ => LegacyRow) (r : LegacyRow) => { r with isSynced := true })
    (nodup_keys_unsynced t) t.legacy ((mem_unsynced_iff (e := ⟨id, r⟩)).mpr ⟨hr, hs⟩)
  rw [syncAndUpdateIpmiChannelConfig, foldl_syncRow]
  rw [hr] at h
  exact h

/-- The channels of an account that is visited: channel 1 is updated, if it is there. -/
theorem channels_sync {id : ℕ} {r : LegacyRow} (hr : t.legacy.lookup id = some r)
    (hs : r.isSynced = false) :
  (syncAndUpdateIpmiChannelConfig t).channels.lookup id
    = (t.channels.lookup id).map fun c => c.modify 1 (dataToUpdate r.ipmi)
  := by
  rw [syncAndUpdateIpmiChannelConfig, foldl_syncRow]
  exact Table.lookup_foldl_modify_of_mem Sigma.fst
    (fun (e : Sigma fun _ : ℕ => LegacyRow) (c : Table ℕ ChannelConfig) =>
      c.modify 1 (dataToUpdate e.2.ipmi))
    (nodup_keys_unsynced t) t.channels ((mem_unsynced_iff (e := ⟨id, r⟩)).mpr ⟨hr, hs⟩)

theorem channel_sync {id : ℕ} {r : LegacyRow} (hr : t.legacy.lookup id = some r)
    (hs : r.isSynced = false) :
  (syncAndUpdateIpmiChannelConfig t).channel id 1
    = (t.channel id 1).map (dataToUpdate r.ipmi)
  := by
  rw [Tables.channel, channels_sync hr hs, Tables.channel]
  cases t.channels.lookup id with
  | none => rfl
  | some c => exact Table.lookup_modify_self 1 _ c

/-- Accounts that are not visited keep their rows. -/
theorem sync_done {id : ℕ} (h : ∀ r, t.legacy.lookup id = some r → r.isSynced = true) :
  (syncAndUpdateIpmiChannelConfig t).legacy.lookup id = t.legacy.lookup id
    ∧ ∀ ch, (syncAndUpdateIpmiChannelConfig t).channel id ch = t.channel id ch
  := by
  have hid := notMem_keys_unsynced h
  rw [syncAndUpdateIpmiChannelConfig, foldl_syncRow]
  constructor
  · exact Table.lookup_foldl_modify_of_notMem Sigma.fst _ t.unsynced _ hid
  · intro ch
    have hlookup := Table.lookup_foldl_modify_of_notMem Sigma.fst
      (fun (e : Sigma fun _ : ℕ => LegacyRow) (c : Table ℕ ChannelConfig) =>
        c.modify 1 (dataToUpdate e.2.ipmi)) t.unsynced t.channels hid
    rw [Tables.channel, Tables.channel, hlookup]

/-- The rows of the other channels are not touched. -/
theorem sync_others (id : ℕ) {ch : ℕ} (hch : ch ≠ 1) :
  (syncAndUpdateIpmiChannelConfig t).channel id ch = t.channel id ch
  := by
  by_cases h : ∀ r, t.legacy.lookup id = some r → r.isSynced = true
  · exact (sync_done h).2 ch
  · push Not at h
    obtain ⟨r, hr, hs⟩ := h
    rw [Tables.channel, channels_sync hr (eq_false_of_ne_true hs), Tables.channel]
    cases t.channels.lookup id with
    | none => rfl
    | some c => exact Table.lookup_modify_ne hch _ c

/-- No old row is without a mark after a run. -/
theorem unsynced_sync (t : Tables) :
  (syncAndUpdateIpmiChannelConfig t).unsynced = []
  := by
  rw [List.eq_nil_iff_forall_not_mem]
  intro e he
  obtain ⟨hlookup, hmark⟩ := mem_unsynced_iff.mp he
  by_cases h : ∀ r, t.legacy.lookup e.1 = some r → r.isSynced = true
  · rw [(sync_done h).1] at hlookup
    rw [h e.2 hlookup] at hmark
    simp at hmark
  · push Not at h
    obtain ⟨r, hr, hs⟩ := h
    rw [legacy_sync hr (eq_false_of_ne_true hs)] at hlookup
    rw [← Option.some_inj.mp hlookup] at hmark
    simp at hmark

/-- A second run changes nothing. -/
theorem sync_sync (t : Tables) :
  syncAndUpdateIpmiChannelConfig (syncAndUpdateIpmiChannelConfig t)
    = syncAndUpdateIpmiChannelConfig t
  := by
  rw [syncAndUpdateIpmiChannelConfig, unsynced_sync]
  rfl

end

/-! ## Faithful migrations -/

/-- A run is faithful exactly when every account that is migrated has a row for channel 1
and a level that is not reserved. -/
theorem migrated_iff (t : Tables) :
  Migrated t (syncAndUpdateIpmiChannelConfig t)
    ↔ ∀ id r, t.legacy.lookup id = some r → r.isSynced = false →
      (t.channel id 1).isSome ∧ r.ipmi.privilege1 ≠ .reserved
  := by
  constructor
  · intro h id r hr hs
    obtain ⟨c, hc, hgrants⟩ := h.marked id r _ hr hs (legacy_sync hr hs) rfl
    rw [channel_sync hr hs] at hc
    obtain ⟨c₀, hc₀, rfl⟩ := Option.map_eq_some_iff.mp hc
    exact ⟨by rw [hc₀]; rfl, (grants_dataToUpdate_iff _ _).mp hgrants⟩
  · intro h
    have hgrants (id : ℕ) (r : LegacyRow) (hr : t.legacy.lookup id = some r)
        (hs : r.isSynced = false) :
        ∃ c, (syncAndUpdateIpmiChannelConfig t).channel id 1 = some c ∧ Grants c r.ipmi := by
      obtain ⟨hsome, hlevel⟩ := h id r hr hs
      obtain ⟨c, hc⟩ := Option.isSome_iff_exists.mp hsome
      refine ⟨dataToUpdate r.ipmi c, ?_, (grants_dataToUpdate_iff _ _).mpr hlevel⟩
      rw [channel_sync hr hs, hc]
      rfl
    exact {
      access := fun id r hr hs _ => hgrants id r hr hs
      marked := fun id r _ hr hs _ _ => hgrants id r hr hs
      done := fun _ hdone => sync_done hdone
      others := fun id _ hch => sync_others id hch }

/-- The row that a recovery from a backup without channels stores for a channel. -/
def recoveredRow (r : IpmiUserInfo) (ch : ℕ) : ChannelConfig where
  channelNumber := ch
  privilegeLimit := r.privilege1.value
  sessionLimit := 0
  callbackRestriction := r.isCallin
  linkAuthenticationEnabled := r.isEnableAuth = 1
  ipmiMessagingEnabled := r.isEnableIpmiMsg = 1

theorem exec_recoverIpmiChannelData {b : BackupRecord} (hb : b.ipmiChannelData = none)
    (s : State) (id : ℕ) :
  exec (recoverIpmiChannelData id b) s
    = (.ok (), (s.setChannel id 1 (recoveredRow b.ipmiData 1)).setChannel id 2
        (recoveredRow b.ipmiData 2))
  := by
  rw [recoverIpmiChannelData, hb]
  rfl

theorem channel_recover (s : State) (id : ℕ) (c₁ c₂ : ChannelConfig) :
  ((s.setChannel id 1 c₁).setChannel id 2 c₂).channel id 1 = some c₁
  := by
  rw [channel_setChannel, if_neg (by decide), channel_setChannel, if_pos rfl]

theorem recovers_iff {b : BackupRecord} (hb : b.ipmiChannelData = none) :
  Recovers b ↔ b.ipmiData.privilege1 ≠ .reserved
  := by
  have hrow : Grants (recoveredRow b.ipmiData 1) b.ipmiData
      ↔ b.ipmiData.privilege1 ≠ .reserved := grants_iff rfl rfl rfl rfl
  constructor
  · intro h
    obtain ⟨s', c, hexec, hc, hgrants⟩ := h (plainState []) 0
    rw [exec_recoverIpmiChannelData hb] at hexec
    obtain rfl := (Prod.ext_iff.mp hexec).2
    rw [channel_recover] at hc
    obtain rfl := Option.some_inj.mp hc
    exact hrow.mp hgrants
  · intro h s id
    exact ⟨_, _, exec_recoverIpmiChannelData hb s id, channel_recover s id _ _, hrow.mpr h⟩

/-- The migration of the tables `t` is faithful and done once and for all, and a recovery
from the old backup `b` agrees with it, exactly when every account that is migrated has a
row for channel 1 and neither its level nor that of `b` is reserved. -/
theorem migration_faithful_iff (t : Tables) {b : BackupRecord}
    (hb : b.ipmiChannelData = none) :
  (Migrated t (syncAndUpdateIpmiChannelConfig t)
      ∧ syncAndUpdateIpmiChannelConfig (syncAndUpdateIpmiChannelConfig t)
        = syncAndUpdateIpmiChannelConfig t
      ∧ Recovers b)
    ↔ (∀ id r, t.legacy.lookup id = some r → r.isSynced = false →
        (t.channel id 1).isSome ∧ r.ipmi.privilege1 ≠ .reserved)
      ∧ b.ipmiData.privilege1 ≠ .reserved
  := by
  rw [migrated_iff, recovers_iff hb]
  constructor
  · rintro ⟨hrows, -, hlevel⟩
    exact ⟨hrows, hlevel⟩
  · rintro ⟨hrows, hlevel⟩
    exact ⟨hrows, sync_sync t, hlevel⟩

/-- The old row of a user with the given level. -/
def legacyInfo (level : IpmiPrivilege) : IpmiUserInfo :=
  { (plainAccount "" 0 0).ipmi with privilege1 := level }

/-- The old row of account 3, with a row for channel 1. -/
def oneAccount (level : IpmiPrivilege) : Tables where
  legacy := AList.insert 3 ⟨legacyInfo level, false⟩ ∅
  channels := AList.insert 3 (AList.insert 1 ⟨1, 4, 0, 0, true, true⟩ ∅) ∅

/-- A backup of an operator from the time before there were rows for the channels. -/
def legacyBackup (level : IpmiPrivilege) : BackupRecord :=
  ⟨(plainAccount "ada" 3 0).data, legacyInfo level, ⟨"", none, .sha256, "", none, .aes128, "",
    "", some true⟩, none⟩

/-- A user of the level `USER` is migrated and recovered faithfully. -/
theorem migration_faithful_iff_user :
  Migrated (oneAccount .user) (syncAndUpdateIpmiChannelConfig (oneAccount .user))
    ∧ syncAndUpdateIpmiChannelConfig (syncAndUpdateIpmiChannelConfig (oneAccount .user))
      = syncAndUpdateIpmiChannelConfig (oneAccount .user)
    ∧ Recovers (legacyBackup .user)
  := by
  apply (migration_faithful_iff (oneAccount .user) (b := legacyBackup .user) rfl).mpr
  constructor
  · intro id r hr _
    by_cases hid : id = 3
    · subst hid
      obtain rfl : ⟨legacyInfo .user, false⟩ = r := Option.some_inj.mp hr
      exact ⟨by decide, by decide⟩
    · rw [oneAccount, AList.lookup_insert_ne hid] at hr
      simp at hr
  · decide

/-- An account with the level `RESERVED` has the level 0 on channel 1 when it is marked,
and `get_ipmi_user_privilege` says 15. -/
theorem not_migrated :
  ¬ Migrated (oneAccount .reserved) (syncAndUpdateIpmiChannelConfig (oneAccount .reserved))
  := by
  intro h
  obtain ⟨c, hc, hgrants⟩ := h.access 3 ⟨legacyInfo .reserved, false⟩ rfl rfl rfl
  obtain rfl : dataToUpdate (legacyInfo .reserved) ⟨1, 4, 0, 0, true, true⟩ = c :=
    Option.some_inj.mp hc
  exact (grants_dataToUpdate_iff _ _).mp hgrants rfl

end ChannelMigration

end BmcAccount
