import BmcAccount.Lib.Table
import BmcAccount.Lib.Edges
import BmcAccount.Lockout.IpLock

/-!
# The monitor of locked addresses

The access service asks again and again which addresses are locked. It keeps a record for each
address, reports when an address becomes locked or unlocked, lists the locked ones for the access
configuration, and deletes what has expired.

Whether an address is listed depends on the last pass only, and what has been reported about it are
the changes of this from pass to pass (`reported_eq_edges`), although the service compares with its
own records and reports an unlocking in three places.
-/

namespace BmcAccount

namespace IpLock

open Edges

/-! ## Records -/

/-- What `get_all_ip_lock_status` says of an address. -/
structure FileRecord where
  ip : Ip
  lockStatus : Bool
  lockStartTime : ℕ
deriving DecidableEq

/-- `m_ip_records` of an address. -/
structure IpRecord where
  lockStartTime : ℕ
  lastLockStatus : Bool
  lockStatus : Bool
  isFlush : Bool
deriving DecidableEq

/-- What a pass of the monitor sees: the records of the files, of which each address has one, the
configuration of the lock and the time, and the order in which a table is visited. -/
structure Pass where
  records : List FileRecord
  records_nodup : (records.map FileRecord.ip).Nodup
  duration : ℕ
  failInterval : ℕ
  now : ℕ
  visit : List Ip → List Ip
  visit_perm : ∀ l, (visit l).Perm l

namespace AccessService

/-- The monitor: the records, what has been reported, and the addresses whose files have been
deleted. A report of a locked address also emits `m_ip_locked_sig`. -/
structure State where
  mIpRecords : Table Ip IpRecord
  reported : List (Ip × Edge)
  cleaned : List Ip

/-- `AccessService:ctor`. -/
def initial : State where
  mIpRecords := ∅
  reported := []
  cleaned := []

/-- The first loop of `get_ip_lock_access`. -/
def refresh (records : Table Ip IpRecord) (record : FileRecord) : Table Ip IpRecord :=
  match records.lookup record.ip with
  | none =>
    records.insert record.ip
      { lockStartTime := record.lockStartTime
        lastLockStatus := false
        lockStatus := record.lockStatus
        isFlush := true }
  | some own =>
    records.insert record.ip
      { lockStartTime := record.lockStartTime
        lastLockStatus := own.lockStatus
        lockStatus := record.lockStatus
        isFlush := true }

/-- `check_lock_changed`. -/
def checkLockChanged (lastStatus curStatus : Bool) : Option Edge :=
  if !lastStatus && curStatus then some .rise
  else if lastStatus && !curStatus then some .fall
  else none

/-- What the second loop does to the record of an address: what is left of it, what is reported,
and whether the file is deleted. -/
def settle (p : Pass) (own : IpRecord) : Option IpRecord × Option Edge × Bool :=
  if own.isFlush = false then
    -- there is no file any more
    (none, if own.lockStatus then some .fall else none, true)
  else if own.lockStartTime + (if own.lockStatus then p.duration else p.failInterval) < p.now then
    (none, if own.lastLockStatus then some .fall else none, true)
  else
    let changed := checkLockChanged own.lastLockStatus own.lockStatus
    (some { own with isFlush := false }, changed, changed == some .fall)

/-- The second loop of `get_ip_lock_access`. -/
def check (p : Pass) (s : State) (ip : Ip) : State :=
  match s.mIpRecords.lookup ip with
  | none => s
  | some own =>
    let (left, edge, clean) := settle p own
    { mIpRecords := s.mIpRecords.assign ip left
      reported := s.reported ++ (edge.map fun e => (ip, e)).toList
      cleaned := if clean then s.cleaned ++ [ip] else s.cleaned }

/-- `get_ip_lock_access`. -/
def getIpLockAccess (s : State) (p : Pass) : State :=
  let records := p.records.foldl refresh s.mIpRecords
  (p.visit records.keys).foldl (check p) { s with mIpRecords := records }

/-- The addresses that `collect_ip_lock_access` lists, when the table is visited in its order. -/
def State.limited (s : State) : List Ip :=
  s.mIpRecords.keys.filter fun ip => (s.mIpRecords.lookup ip).any IpRecord.lockStatus

/-- `collect_ip_lock_access`. -/
def collectIpLockAccess (s : State) : List Char :=
  "# limit config from ip lock\n".toList
    ++ s.limited.flatMap fun ip => "-:ALL:".toList ++ ip ++ ['\n']

/-- What has been reported about an address. -/
def State.reportedOf (s : State) (ip : Ip) : List Edge :=
  s.reported.filterMap fun r => if r.1 = ip then some r.2 else none

end AccessService

/-- The files say that an address is locked, and the lock has not expired. -/
def Pass.locks (p : Pass) (ip : Ip) : Bool :=
  p.records.any fun r => r.ip = ip && r.lockStatus && !decide (r.lockStartTime + p.duration < p.now)

namespace AccessService

/-! ## The loops -/

/-- The record of the files for an address. -/
def fileRecord (p : Pass) (ip : Ip) : Option FileRecord :=
  p.records.find? (·.ip = ip)

/-- The record of an address after the first loop. -/
def refreshed (own : Option IpRecord) : Option FileRecord → Option IpRecord
  | none => own
  | some r => some
    { lockStartTime := r.lockStartTime
      lastLockStatus := own.any IpRecord.lockStatus
      lockStatus := r.lockStatus
      isFlush := true }

theorem lookup_refresh (records : Table Ip IpRecord) (r : FileRecord) (ip : Ip) :
  (refresh records r).lookup ip
    = if r.ip = ip then refreshed (records.lookup ip) (some r) else records.lookup ip
  := by
  unfold refresh
  by_cases h : r.ip = ip
  · subst h
    rw [if_pos rfl]
    cases hown : records.lookup r.ip with
    | none => simp [refreshed]
    | some own => simp [refreshed]
  · rw [if_neg h]
    split
    all_goals exact AList.lookup_insert_ne (Ne.symm h)

theorem lookup_foldl_refresh {rs : List FileRecord} (hnodup : (rs.map FileRecord.ip).Nodup)
    (records : Table Ip IpRecord) (ip : Ip) :
  (rs.foldl refresh records).lookup ip = refreshed (records.lookup ip) (rs.find? (·.ip = ip))
  := by
  induction rs generalizing records with
  | nil => rfl
  | cons r rs ih =>
    rw [List.map_cons, List.nodup_cons] at hnodup
    rw [List.foldl_cons, ih hnodup.2, lookup_refresh]
    by_cases h : r.ip = ip
    · have hnone : rs.find? (·.ip = ip) = none := by
        rw [List.find?_eq_none]
        intro r' hr' heq
        apply hnodup.1
        rw [h, ← of_decide_eq_true heq]
        exact List.mem_map_of_mem hr'
      rw [if_pos h, hnone, List.find?_cons_of_pos (by simpa using h)]
      rfl
    · rw [if_neg h, List.find?_cons_of_neg (by simpa using h)]

/-- What one turn of the second loop does about an address. -/
theorem check_of_ne {p : Pass} {s : State} {ip k : Ip} (h : ip ≠ k) :
  (check p s k).mIpRecords.lookup ip = s.mIpRecords.lookup ip
    ∧ (check p s k).reportedOf ip = s.reportedOf ip
  := by
  unfold check
  split
  case h_1 => exact ⟨rfl, rfl⟩
  case h_2 own _ =>
    constructor
    · simp only [Table.lookup_assign, if_neg h]
    · unfold State.reportedOf
      cases (settle p own).2.1 <;> simp [Ne.symm h]

theorem check_self {p : Pass} {s : State} {ip : Ip} :
  (check p s ip).mIpRecords.lookup ip = ((s.mIpRecords.lookup ip).bind fun own => (settle p own).1)
    ∧ (check p s ip).reportedOf ip
      = s.reportedOf ip ++ ((s.mIpRecords.lookup ip).bind fun own => (settle p own).2.1).toList
  := by
  unfold check
  cases hown : s.mIpRecords.lookup ip with
  | none => simp [hown]
  | some own =>
    constructor
    · simp [Table.lookup_assign]
    · simp only [State.reportedOf, List.filterMap_append, Option.bind_some]
      cases (settle p own).2.1 <;> simp

theorem foldl_check_of_notMem {p : Pass} {ip : Ip} {ks : List Ip} (h : ip ∉ ks) (s : State) :
  (ks.foldl (check p) s).mIpRecords.lookup ip = s.mIpRecords.lookup ip
    ∧ (ks.foldl (check p) s).reportedOf ip = s.reportedOf ip
  := by
  induction ks generalizing s with
  | nil => exact ⟨rfl, rfl⟩
  | cons k ks ih =>
    rw [List.mem_cons, not_or] at h
    obtain ⟨hlookup, hreported⟩ := ih h.2 (check p s k)
    rw [(check_of_ne h.1).1] at hlookup
    rw [(check_of_ne h.1).2] at hreported
    exact ⟨hlookup, hreported⟩

/-- Every address is dealt with once. -/
theorem foldl_check_of_mem {p : Pass} {ip : Ip} {ks : List Ip} (hnodup : ks.Nodup) (h : ip ∈ ks)
    (s : State) :
  (ks.foldl (check p) s).mIpRecords.lookup ip
      = ((s.mIpRecords.lookup ip).bind fun own => (settle p own).1)
    ∧ (ks.foldl (check p) s).reportedOf ip
      = s.reportedOf ip ++ ((s.mIpRecords.lookup ip).bind fun own => (settle p own).2.1).toList
  := by
  induction ks generalizing s with
  | nil => exact absurd h List.not_mem_nil
  | cons k ks ih =>
    rw [List.nodup_cons] at hnodup
    rcases List.mem_cons.mp h with rfl | hks
    · obtain ⟨hlookup, hreported⟩ := foldl_check_of_notMem (p := p) hnodup.1 (check p s ip)
      exact ⟨hlookup.trans check_self.1, hreported.trans check_self.2⟩
    · have hne : ip ≠ k := by
        rintro rfl
        exact hnodup.1 hks
      obtain ⟨hlookup, hreported⟩ := ih hnodup.2 hks (check p s k)
      rw [(check_of_ne hne).1] at hlookup hreported
      rw [(check_of_ne hne).2] at hreported
      exact ⟨hlookup, hreported⟩

/-! ## A pass -/

/-- What a pass does about an address depends on its own records only. -/
theorem getIpLockAccess_spec (s : State) (p : Pass) (ip : Ip) :
  (getIpLockAccess s p).mIpRecords.lookup ip
      = ((refreshed (s.mIpRecords.lookup ip) (fileRecord p ip)).bind fun own => (settle p own).1)
    ∧ (getIpLockAccess s p).reportedOf ip
      = s.reportedOf ip ++ ((refreshed (s.mIpRecords.lookup ip) (fileRecord p ip)).bind fun own =>
        (settle p own).2.1).toList
  := by
  have hlookup := lookup_foldl_refresh p.records_nodup s.mIpRecords ip
  have hperm := p.visit_perm (p.records.foldl refresh s.mIpRecords).keys
  unfold getIpLockAccess fileRecord
  rw [← hlookup]
  by_cases h : ip ∈ (p.records.foldl refresh s.mIpRecords).keys
  · exact foldl_check_of_mem (hperm.nodup_iff.mpr (AList.keys_nodup _)) (hperm.mem_iff.mpr h) _
  · obtain ⟨hleft, hreported⟩ := foldl_check_of_notMem (p := p) (mt hperm.mem_iff.mp h)
      { s with mIpRecords := p.records.foldl refresh s.mIpRecords }
    have hnone : (p.records.foldl refresh s.mIpRecords).lookup ip = none := by
      rw [AList.lookup_eq_none, AList.mem_keys]
      exact h
    rw [hnone] at hleft ⊢
    exact ⟨hleft, hreported.trans (List.append_nil _).symm⟩

/-- Between passes no record is marked as refreshed. -/
def Stale (ip : Ip) (s : State) : Prop :=
  ∀ own ∈ s.mIpRecords.lookup ip, own.isFlush = false

/-- The service has an address as locked. -/
def isLocked (ip : Ip) (s : State) : Bool :=
  (s.mIpRecords.lookup ip).any IpRecord.lockStatus

theorem locks_eq (p : Pass) (ip : Ip) :
  p.locks ip
    = (fileRecord p ip).any fun r => r.lockStatus && !decide (r.lockStartTime + p.duration < p.now)
  := by
  have hany : ∀ rs : List FileRecord, (rs.map FileRecord.ip).Nodup →
      (rs.any fun r => r.ip = ip && r.lockStatus && !decide (r.lockStartTime + p.duration < p.now))
        = (rs.find? (·.ip = ip)).any fun r =>
          r.lockStatus && !decide (r.lockStartTime + p.duration < p.now) := by
    intro rs
    induction rs with
    | nil => exact fun _ => rfl
    | cons r rs ih =>
      intro hnodup
      rw [List.map_cons, List.nodup_cons] at hnodup
      rw [List.any_cons, ih hnodup.2]
      by_cases h : r.ip = ip
      · have hnone : rs.find? (·.ip = ip) = none := by
          rw [List.find?_eq_none]
          intro r' hr' heq
          apply hnodup.1
          rw [h, ← of_decide_eq_true heq]
          exact List.mem_map_of_mem hr'
        rw [hnone, List.find?_cons_of_pos (by simpa using h)]
        simp [h]
      · rw [List.find?_cons_of_neg (by simpa using h)]
        simp [h]
  exact hany p.records p.records_nodup

/-- What becomes of an address that has a file. -/
theorem settle_refreshed (p : Pass) (own : Option IpRecord) (r : FileRecord) :
  (((refreshed own (some r)).bind fun own => (settle p own).1).any IpRecord.lockStatus
      = (r.lockStatus && !decide (r.lockStartTime + p.duration < p.now)))
    ∧ ((refreshed own (some r)).bind fun own => (settle p own).2.1)
      = edge (own.any IpRecord.lockStatus)
        (r.lockStatus && !decide (r.lockStartTime + p.duration < p.now))
  := by
  obtain ⟨ip, lockStatus, lockStartTime⟩ := r
  simp only [refreshed, Option.bind_some, settle]
  generalize own.any IpRecord.lockStatus = last
  by_cases hduration : lockStartTime + p.duration < p.now
  · by_cases hinterval : lockStartTime + p.failInterval < p.now
    · cases last <;> cases lockStatus <;> simp [hduration, hinterval, edge]
    · cases last <;> cases lockStatus <;> simp [hduration, hinterval, edge, checkLockChanged]
  · by_cases hinterval : lockStartTime + p.failInterval < p.now
    · cases last <;> cases lockStatus <;> simp [hduration, hinterval, edge, checkLockChanged]
    · cases last <;> cases lockStatus <;> simp [hduration, hinterval, edge, checkLockChanged]

theorem stale_getIpLockAccess (s : State) (p : Pass) (ip : Ip) :
  Stale ip (getIpLockAccess s p)
  := by
  intro own hown
  rw [(getIpLockAccess_spec s p ip).1] at hown
  obtain ⟨own', -, hsettle⟩ := Option.bind_eq_some_iff.mp hown
  unfold settle at hsettle
  split_ifs at hsettle
  all_goals
    obtain rfl := Option.some.inj hsettle
    rfl

theorem isLocked_getIpLockAccess {s : State} {ip : Ip} (h : Stale ip s) (p : Pass) :
  isLocked ip (getIpLockAccess s p) = p.locks ip
  := by
  unfold isLocked
  rw [(getIpLockAccess_spec s p ip).1, locks_eq]
  cases hr : fileRecord p ip with
  | none =>
    cases hown : s.mIpRecords.lookup ip with
    | none => rfl
    | some own => simp [refreshed, settle, h own hown]
  | some r => exact (settle_refreshed p _ r).1

/-- A pass reports the change since the pass before. -/
theorem reportedOf_getIpLockAccess {s : State} {ip : Ip} (h : Stale ip s) (p : Pass) :
  (getIpLockAccess s p).reportedOf ip
    = s.reportedOf ip ++ (edge (isLocked ip s) (p.locks ip)).toList
  := by
  unfold isLocked
  rw [(getIpLockAccess_spec s p ip).2, locks_eq]
  cases hr : fileRecord p ip with
  | none =>
    cases hown : s.mIpRecords.lookup ip with
    | none => rfl
    | some own => cases hlock : own.lockStatus <;> simp [refreshed, settle, h own hown, hlock, edge]
  | some r =>
    rw [(settle_refreshed p _ r).2]
    rfl

/-! ## Runs -/

/-- The monitor after a list of passes. -/
def run (passes : List Pass) : State :=
  passes.foldl getIpLockAccess initial

theorem mem_limited_iff {s : State} {ip : Ip} :
  ip ∈ s.limited ↔ isLocked ip s = true
  := by
  unfold State.limited isLocked
  rw [List.mem_filter, and_iff_right_iff_imp]
  intro hany
  rw [← AList.mem_keys, ← AList.lookup_isSome]
  cases hown : s.mIpRecords.lookup ip with
  | none => simp [hown] at hany
  | some own => rfl

/-- In every run what has been reported about an address are the changes of what the files say from
pass to pass, so it has been locked and unlocked in turn. It is listed if and only if the files of
the last pass say that it is locked and the lock has not expired, and if and only if the last report
is that it is locked. -/
theorem reported_eq_edges (passes : List Pass) (ip : Ip) :
  (run passes).reportedOf ip = edges false (passes.map (·.locks ip))
    ∧ ((run passes).reportedOf ip).IsChain (· ≠ ·)
    ∧ (ip ∈ (run passes).limited ↔ (passes.map (·.locks ip)).getLastD false = true)
    ∧ (ip ∈ (run passes).limited ↔ ((run passes).reportedOf ip).getLast? = some .rise)
  := by
  obtain ⟨hreported, hlocked⟩ := @log_foldl State Pass getIpLockAccess (isLocked ip)
    (·.reportedOf ip) (·.locks ip) (Stale ip) (fun s p _ => stale_getIpLockAccess s p ip)
    (fun s p h => isLocked_getIpLockAccess h p) (fun s p h => reportedOf_getIpLockAccess h p)
    initial (by rintro _ ⟨⟩) passes
  have hedges : (run passes).reportedOf ip = edges false (passes.map (·.locks ip)) := hreported
  have hlimited : ip ∈ (run passes).limited ↔ (passes.map (·.locks ip)).getLastD false = true := by
    rw [mem_limited_iff]
    exact Bool.eq_iff_iff.mp hlocked
  refine ⟨hedges, hedges ▸ isChain_edges _ _, hlimited, ?_⟩
  rw [hlimited, hedges, getLast_eq_rise_iff]

end AccessService

end IpLock

end BmcAccount
