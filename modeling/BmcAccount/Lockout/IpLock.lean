import BmcAccount.Lockout.Tally
import BmcAccount.Lib.OldestLog

/-!
# The lock of addresses

The failed logins from an address are kept in a file of at most 100 records, and an address is
locked when enough of them are close to the latest one. The beginning of the interval before the
latest failure is a difference of unsigned numbers: when the interval is longer than the time of
the latest failure, it wraps around and no failure is counted. A threshold above 100 is never
reached either. Otherwise the address is locked when its failures say so.

The history of an address are the times of the failures that have been recorded since its records
were deleted, the latest one first. An attempt that is not recorded is not in it: the address may
be locked already, or there may be too many addresses.
-/

namespace BmcAccount

namespace IpLock

/-! ## The records of an address -/

/-- `MAX_RECORD_CNT`. -/
def maxRecordCnt : ℕ := 100

/-- `MAX_IP_RECORD_CNT`. -/
def maxIpRecordCnt : ℕ := 1000

/-- `MAX_IP_LENGTH`. -/
def maxIpLength : ℕ := 64

/-- `IpFailRecord`. -/
structure IpFailRecord where
  recordName : String
  timestamp : ℕ
deriving DecidableEq

/-- `read_ip_fail_record`. -/
def readIpFailRecord (file : List IpFailRecord) : List IpFailRecord := file.take maxRecordCnt

/-- `update_record`. -/
def updateRecord (now : ℕ) (records : List IpFailRecord) : List IpFailRecord :=
  OldestLog.record IpFailRecord.timestamp maxRecordCnt ⟨"Ip", now⟩ records

/-- The first loop of `get_one_lock_status`: the time of the latest failure. -/
def latestTime (records : List IpFailRecord) : ℕ :=
  records.foldl (fun t r => max t r.timestamp) 0

/-- `exp_oldest_time`, an unsigned number of 64 bits. -/
def expOldestTime (latestTime failInterval : ℕ) : ℕ :=
  (latestTime + (2 ^ 64 - failInterval)) % 2 ^ 64

/-- `fail_cnt` at the end of `get_one_lock_status`, an unsigned number of 8 bits. -/
def failCnt (failInterval unlockTime now : ℕ) (file : List IpFailRecord) : ℕ :=
  let records := readIpFailRecord file
  let latest := latestTime records
  if (latest + unlockTime) % 2 ^ 64 < now then 0
  else (records.countP fun r => decide (expOldestTime latest failInterval < r.timestamp)) % 256

/-- `IpLockStatus`. -/
structure IpLockStatus where
  lockStatus : Bool
  lockStartTime : ℕ
deriving DecidableEq

/-- The configuration of the lock. -/
structure LockConf where
  lockThreshold : ℕ
  failInterval : ℕ
  unlockTime : ℕ

/-- `get_one_lock_status`, of the file of an address. -/
def lockStatusOf (c : LockConf) (now : ℕ) (file : List IpFailRecord) : IpLockStatus where
  lockStatus := decide (c.lockThreshold ≠ 0)
    && decide (c.lockThreshold ≤ failCnt c.failInterval c.unlockTime now file)
  lockStartTime := latestTime (readIpFailRecord file)

/-! ## All addresses -/

/-- The text of an address. -/
abbrev Ip : Type := List Char

/-- `strncpy_s` to a buffer of `MAX_IP_LENGTH`. -/
def copyIp (ip : Ip) : Option Ip :=
  if ip.length < maxIpLength then some ip else none

/-- `remove_port_from_ip`. -/
def removePortFromIp (ip : Ip) : Option Ip :=
  match ip with
  | '[' :: rest =>
    let inner := rest.takeWhile (· ≠ ']')
    match rest.drop inner.length with
    | [] => none
    | [_] => copyIp inner
    | _ :: c :: _ => if c = ':' then copyIp inner else none
  | _ => if ip.count ':' = 1 then copyIp (ip.takeWhile (· ≠ ':')) else copyIp ip

/-- `g_ip_map` and the files. -/
structure Store where
  ipMap : List Ip
  files : Ip → List IpFailRecord

namespace Store

/-- `get_one_lock_status`. -/
def getOneLockStatus (s : Store) (ip : Ip) (c : LockConf) (now : ℕ) : Option IpLockStatus :=
  (removePortFromIp ip).map fun cleanIp => lockStatusOf c now (s.files cleanIp)

/-- `check_if_locked`; the configuration may fail to be read. -/
def checkIfLocked (s : Store) (ip : Ip) (conf : Option LockConf) (now : ℕ) : Bool :=
  match conf with
  | none => false
  | some c => ((s.getOneLockStatus ip c now).map IpLockStatus.lockStatus).getD false

/-- `check_if_increase_record_cnt`. -/
def checkIfIncreaseRecordCnt (s : Store) (ip : Ip) : Option Store :=
  if ip ∈ s.ipMap then some s
  else if maxIpRecordCnt ≤ s.ipMap.length then none
  else some { s with ipMap := ip :: s.ipMap }

/-- `increase_fail_record`, with the address that a failure is recorded for. -/
def increaseFailRecord (s : Store) (ip : Ip) (isCheckLock : Bool) (conf : Option LockConf)
    (now : ℕ) : Store × Option Ip :=
  match removePortFromIp ip with
  | none => (s, none)
  | some cleanIp =>
    match s.checkIfIncreaseRecordCnt cleanIp with
    | none => (s, none)
    | some s =>
      if isCheckLock && s.checkIfLocked cleanIp conf now then (s, none)
      else
        ({ s with
            files := Function.update s.files cleanIp
              (updateRecord now (readIpFailRecord (s.files cleanIp))) }, some cleanIp)

/-- `clean_fail_record`. -/
def cleanFailRecord (s : Store) (ip : Ip) : Store :=
  match removePortFromIp ip with
  | none => s
  | some cleanIp => ⟨s.ipMap.erase cleanIp, Function.update s.files cleanIp []⟩

end Store

/-! ## Histories -/

/-- The store, and the history of each address. -/
structure Traced where
  store : Store
  history : Ip → List ℕ

/-- What may happen; `clean_all_fail_record` deletes the records of the files that are listed. -/
inductive Op where
  | increaseFailRecord (ip : Ip) (isCheckLock : Bool) (conf : Option LockConf)
  | cleanFailRecord (ip : Ip)
  | cleanAllFailRecord (names : List Ip)

/-- An operation at a time. -/
structure Event where
  now : ℕ
  now_lt : now < 2 ^ 63
  op : Op

namespace Traced

/-- No records. -/
def initial : Traced where
  store := ⟨[], fun _ => []⟩
  history _ := []

def clean (x : Traced) (ip : Ip) : Traced where
  store := x.store.cleanFailRecord ip
  history :=
    match removePortFromIp ip with
    | none => x.history
    | some cleanIp => Function.update x.history cleanIp []

def increase (x : Traced) (ip : Ip) (isCheckLock : Bool) (conf : Option LockConf) (now : ℕ) :
    Traced where
  store := (x.store.increaseFailRecord ip isCheckLock conf now).1
  history :=
    match (x.store.increaseFailRecord ip isCheckLock conf now).2 with
    | none => x.history
    | some cleanIp => Function.update x.history cleanIp (now :: x.history cleanIp)

def step (x : Traced) (e : Event) : Traced :=
  match e.op with
  | .increaseFailRecord ip isCheckLock conf => x.increase ip isCheckLock conf e.now
  | .cleanFailRecord ip => x.clean ip
  | .cleanAllFailRecord names => names.foldl clean x

/-- The state after a sequence of events. -/
def after (events : List Event) : Traced :=
  events.foldl step initial

end Traced

/-! ## What the files hold -/

/-- The files hold the most recent failures of the histories, which lie before `now`. -/
structure Traced.Inv (x : Traced) (now : ℕ) : Prop where
  holds : ∀ ip, OldestLog.Holds IpFailRecord.timestamp maxRecordCnt (x.store.files ip)
    (x.history ip)
  ordered : ∀ ip, (x.history ip).Pairwise (· ≥ ·)
  le : ∀ ip, ∀ t ∈ x.history ip, t ≤ now
  lt : ∀ ip, ∀ t ∈ x.history ip, t < 2 ^ 63

/-- A failure is recorded for one address or for none. -/
theorem increaseFailRecord_cases (s : Store) (ip : Ip) (isCheckLock : Bool)
    (conf : Option LockConf) (now : ℕ) :
  ((s.increaseFailRecord ip isCheckLock conf now).2 = none ∧
      (s.increaseFailRecord ip isCheckLock conf now).1.files = s.files) ∨
    ∃ c, (s.increaseFailRecord ip isCheckLock conf now).2 = some c ∧
      (s.increaseFailRecord ip isCheckLock conf now).1.files
        = Function.update s.files c (updateRecord now (readIpFailRecord (s.files c)))
  := by
  unfold Store.increaseFailRecord
  cases removePortFromIp ip with
  | none => exact .inl ⟨rfl, rfl⟩
  | some c =>
    have hfiles {s' : Store} (h : s.checkIfIncreaseRecordCnt c = some s') :
        s'.files = s.files := by
      unfold Store.checkIfIncreaseRecordCnt at h
      split_ifs at h
      · rw [← Option.some_inj.mp h]
      · rw [← Option.some_inj.mp h]
    cases hcount : s.checkIfIncreaseRecordCnt c with
    | none => simp [hcount]
    | some s' =>
      simp only [hcount]
      split_ifs with hlocked
      · exact .inl ⟨rfl, hfiles hcount⟩
      · rw [hfiles hcount]
        exact .inr ⟨c, rfl, rfl⟩

namespace Traced.Inv

variable {x : Traced} {now : ℕ}

theorem mono (h : x.Inv now) {now' : ℕ} (hle : now ≤ now') :
  x.Inv now'
  :=
  { h with le := fun ip t ht => (h.le ip t ht).trans hle }

theorem initial (now : ℕ) :
  Traced.initial.Inv now
  where
  holds _ := OldestLog.holds_nil _ _
  ordered _ := List.Pairwise.nil
  le _ _ ht := absurd ht List.not_mem_nil
  lt _ _ ht := absurd ht List.not_mem_nil

theorem readIpFailRecord_eq (h : x.Inv now) (ip : Ip) :
  readIpFailRecord (x.store.files ip) = x.store.files ip
  := by
  have hlen := (h.holds ip).length_eq
  apply List.take_of_length_le
  rw [hlen]
  exact min_le_left _ _

/-- A change of the file and the history of one address. -/
theorem update (h : x.Inv now) (c : Ip) {s : Store} {file : List IpFailRecord} {times : List ℕ}
    (hs : s.files = Function.update x.store.files c file)
    (hholds : OldestLog.Holds IpFailRecord.timestamp maxRecordCnt file times)
    (hord : times.Pairwise (· ≥ ·)) (hle : ∀ t ∈ times, t ≤ now) (hlt : ∀ t ∈ times, t < 2 ^ 63) :
  Traced.Inv ⟨s, Function.update x.history c times⟩ now
  := by
  have hcases {P : List IpFailRecord → List ℕ → Prop} (hc : P file times)
      (hother : ∀ ip, P (x.store.files ip) (x.history ip)) (ip : Ip) :
      P (s.files ip) (Function.update x.history c times ip) := by
    rw [hs]
    by_cases hip : ip = c
    · subst hip
      rwa [Function.update_self, Function.update_self]
    · rw [Function.update_of_ne hip, Function.update_of_ne hip]
      exact hother ip
  exact {
    holds := hcases hholds h.holds
    ordered := hcases (P := fun _ ts => ts.Pairwise (· ≥ ·)) hord h.ordered
    le := hcases (P := fun _ ts => ∀ t ∈ ts, t ≤ now) hle h.le
    lt := hcases (P := fun _ ts => ∀ t ∈ ts, t < 2 ^ 63) hlt h.lt }

theorem clean (h : x.Inv now) (ip : Ip) :
  (x.clean ip).Inv now
  := by
  unfold Traced.clean Store.cleanFailRecord
  cases removePortFromIp ip with
  | none => exact h
  | some c =>
    exact h.update c rfl (OldestLog.holds_nil _ _) List.Pairwise.nil (by simp) (by simp)

theorem cleanAll (h : x.Inv now) (names : List Ip) :
  (names.foldl Traced.clean x).Inv now
  := by
  induction names generalizing x with
  | nil => exact h
  | cons ip names ih => exact ih (h.clean ip)

theorem increase (h : x.Inv now) (hnow : now < 2 ^ 63) (ip : Ip) (isCheckLock : Bool)
    (conf : Option LockConf) :
  (x.increase ip isCheckLock conf now).Inv now
  := by
  unfold Traced.increase
  rcases increaseFailRecord_cases x.store ip isCheckLock conf now with
    ⟨hnone, hfiles⟩ | ⟨c, hsome, hfiles⟩
  · rw [hnone]
    refine ⟨?_, h.ordered, h.le, h.lt⟩
    simp only [hfiles]
    exact h.holds
  · rw [hsome]
    rw [h.readIpFailRecord_eq] at hfiles
    apply h.update c hfiles
    · exact (h.holds c).record (by decide) (h.ordered c) ⟨"Ip", now⟩
    · exact List.pairwise_cons.mpr ⟨h.le c, h.ordered c⟩
    · exact List.forall_mem_cons.mpr ⟨le_refl now, h.le c⟩
    · exact List.forall_mem_cons.mpr ⟨hnow, h.lt c⟩

/-- One step. -/
theorem step (h : x.Inv now) {e : Event} (hnow : now ≤ e.now) :
  (x.step e).Inv e.now
  := by
  have h := h.mono hnow
  unfold Traced.step
  cases e.op with
  | increaseFailRecord ip isCheckLock conf => exact h.increase e.now_lt ip isCheckLock conf
  | cleanFailRecord ip => exact h.clean ip
  | cleanAllFailRecord names => exact h.cleanAll names

/-- A whole run, with a clock that does not go back. -/
theorem foldl (h : x.Inv now) {events : List Event}
    (hclock : (now :: events.map Event.now).Pairwise (· ≤ ·)) :
  ∃ now', (events.foldl Traced.step x).Inv now'
  := by
  induction events generalizing x now with
  | nil => exact ⟨now, h⟩
  | cons e events ih =>
    rw [List.map_cons, List.pairwise_cons] at hclock
    exact ih (h.step (hclock.1 _ List.mem_cons_self)) hclock.2

end Traced.Inv

theorem inv_after {events : List Event} (hclock : (events.map Event.now).Pairwise (· ≤ ·)) :
  ∃ now, (Traced.after events).Inv now
  := by
  apply (Traced.Inv.initial 0).foldl
  exact List.pairwise_cons.mpr ⟨fun _ _ => Nat.zero_le _, hclock⟩

/-! ## What is read from them -/

namespace Traced.Inv

variable {x : Traced} {now : ℕ}

theorem latest_lt (h : x.Inv now) (ip : Ip) :
  (x.history ip).headD 0 < 2 ^ 63
  := by
  have hlt := h.lt ip
  cases hist : x.history ip with
  | nil => decide
  | cons t ts => exact hlt t (by rw [hist]; exact List.mem_cons_self)

theorem le_latest (h : x.Inv now) (ip : Ip) {t : ℕ} (ht : t ∈ x.history ip) :
  t ≤ (x.history ip).headD 0
  :=
  Tally.Ordered.le_headD (h.ordered ip) ht

theorem latestTime_eq (h : x.Inv now) (ip : Ip) :
  latestTime (readIpFailRecord (x.store.files ip)) = (x.history ip).headD 0
  := by
  rw [h.readIpFailRecord_eq]
  exact (h.holds ip).foldl_max (by decide) (h.ordered ip)

/-- The failures that are counted, where the difference does not wrap around. -/
theorem countP_of_le (h : x.Inv now) (ip : Ip) {failInterval : ℕ}
    (hle : failInterval ≤ (x.history ip).headD 0) :
  (readIpFailRecord (x.store.files ip)).countP
      (fun r => decide (expOldestTime ((x.history ip).headD 0) failInterval < r.timestamp))
    = min maxRecordCnt (Tally.recent failInterval (x.history ip))
  := by
  have hlatest := h.latest_lt ip
  have hexp : expOldestTime ((x.history ip).headD 0) failInterval
      = (x.history ip).headD 0 - failInterval := by
    unfold expOldestTime
    omega
  have hcount := (h.holds ip).countP_eq (h.ordered ip)
    (p := fun t => decide ((x.history ip).headD 0 - failInterval < t)) (by
      intro t t' htt' ht
      rw [decide_eq_true_eq] at ht ⊢
      omega)
  rw [hexp, h.readIpFailRecord_eq, hcount, Tally.recent]
  congr 1
  apply List.countP_congr
  intro t ht
  have hle := h.le_latest ip ht
  simp only [decide_eq_true_eq]
  omega

/-- No failure is counted where it does. -/
theorem countP_of_lt (h : x.Inv now) (ip : Ip) {failInterval : ℕ} (hmax : failInterval < 2 ^ 63)
    (hlt : (x.history ip).headD 0 < failInterval) :
  (readIpFailRecord (x.store.files ip)).countP
      (fun r => decide (expOldestTime ((x.history ip).headD 0) failInterval < r.timestamp)) = 0
  := by
  rw [h.readIpFailRecord_eq, List.countP_eq_zero]
  intro r hr
  have hmem : r.timestamp ∈ x.history ip :=
    List.mem_of_mem_take ((h.holds ip).mem_iff.mp (List.mem_map_of_mem hr))
  have ht := h.lt ip _ hmem
  intro hcount
  have hwrap := of_decide_eq_true hcount
  unfold expOldestTime at hwrap
  omega

/-- The number of failures that the lock is decided by. -/
theorem failCnt_eq (h : x.Inv now) (ip : Ip) {failInterval unlockTime : ℕ}
    (hmax : failInterval < 2 ^ 63) (hmax' : unlockTime < 2 ^ 63) (now' : ℕ) :
  failCnt failInterval unlockTime now' (x.store.files ip)
    = if (x.history ip).headD 0 + unlockTime < now' ∨ (x.history ip).headD 0 < failInterval then 0
      else min maxRecordCnt (Tally.recent failInterval (x.history ip))
  := by
  have hlatest := h.latest_lt ip
  have hsum : ((x.history ip).headD 0 + unlockTime) % 2 ^ 64
      = (x.history ip).headD 0 + unlockTime := Nat.mod_eq_of_lt (by omega)
  simp only [failCnt, h.latestTime_eq, hsum]
  by_cases hold : (x.history ip).headD 0 + unlockTime < now'
  · rw [if_pos hold, if_pos (.inl hold)]
  · rw [if_neg hold]
    by_cases hwrap : (x.history ip).headD 0 < failInterval
    · rw [h.countP_of_lt ip hmax hwrap, if_pos (.inr hwrap)]
    · rw [h.countP_of_le ip (Nat.not_lt.mp hwrap), if_neg (by tauto)]
      apply Nat.mod_eq_of_lt
      have hmin := min_le_left maxRecordCnt (Tally.recent failInterval (x.history ip))
      rw [maxRecordCnt] at hmin ⊢
      omega

/-- The failures of a user with the same times. -/
theorem getUserInfo_eq (h : x.Inv now) (ip : Ip) (failInterval unlockTime now' : ℕ) :
  (Tally.getUserInfo unlockTime failInterval now'
      ((x.store.files ip).map fun r => ⟨true, r.timestamp⟩)).1
    = if (x.history ip).headD 0 + unlockTime < now' then 0
      else min maxRecordCnt (Tally.recent failInterval (x.history ip))
  := by
  have hord : Tally.Ordered ((x.history ip).take maxRecordCnt) :=
    (h.ordered ip).sublist (List.take_sublist _ _)
  have hhead : ((x.history ip).take maxRecordCnt).headD 0 = (x.history ip).headD 0 := by
    cases x.history ip <;> rfl
  have hholds : Tally.Holds ((x.store.files ip).map fun r => ⟨true, r.timestamp⟩)
      ((x.history ip).take maxRecordCnt) := by
    have hmap := (h.holds ip).map (Tally.Record.mk true)
    rw [List.map_map] at hmap
    rw [Tally.Holds, List.take_take]
    exact hmap
  have hrecent : Tally.recent failInterval ((x.history ip).take maxRecordCnt)
      = min maxRecordCnt (Tally.recent failInterval (x.history ip)) := by
    rw [Tally.recent, hhead, Tally.recent]
    apply OldestLog.countP_take
    apply (h.ordered ip).imp
    intro t t' hle ht
    rw [decide_eq_true_eq] at ht ⊢
    omega
  split_ifs with hold
  · rw [hholds.getUserInfo_of_lt hord (by rwa [hhead])]
  · rw [hholds.getUserInfo_of_le hord (by rw [hhead]; exact Nat.not_lt.mp hold),
      hholds.failures_eq hord, List.take_take]
    exact hrecent

end Traced.Inv

/-! ## The decision -/

/-- What is said of the lock: an address is locked when at least `lockThreshold` failures are
close to the latest one, and that is no longer ago than the lock lasts; and the failures are
counted as those of a user are. -/
structure Decides (x : Traced) (ip cleanIp : Ip) (c : LockConf) (now : ℕ) : Prop where
  locked_iff : (∃ status, x.store.getOneLockStatus ip c now = some status ∧
      status.lockStatus = true) ↔
    c.lockThreshold ≤ Tally.recent c.failInterval (x.history cleanIp) ∧
      now ≤ (x.history cleanIp).headD 0 + c.unlockTime
  count_eq : failCnt c.failInterval c.unlockTime now (x.store.files cleanIp)
    = (Tally.getUserInfo c.unlockTime c.failInterval now
        ((x.store.files cleanIp).map fun r => ⟨true, r.timestamp⟩)).1

/-- The condition: there is no failure, or the lock would be over, or the interval before the
latest failure begins after the beginning of time and the threshold is not reached or not above
the number of records. -/
def Sound (times : List ℕ) (c : LockConf) (now : ℕ) : Prop :=
  times = [] ∨ times.headD 0 + c.unlockTime < now ∨
    c.failInterval ≤ times.headD 0 ∧
      (c.lockThreshold ≤ maxRecordCnt ∨ Tally.recent c.failInterval times < c.lockThreshold)

/-- The numbers of the decision: `recent` failures are close to the latest one. -/
theorem sound_iff {latest unlockTime now interval threshold recent : ℕ} {empty : Prop}
    (hthreshold : 1 ≤ threshold) (hfirst : ¬empty → 0 < interval → 0 < recent)
    (hnone : empty → recent = 0) :
  ((threshold ≤ (if latest + unlockTime < now ∨ latest < interval then 0
          else min maxRecordCnt recent) ↔
        threshold ≤ recent ∧ now ≤ latest + unlockTime) ∧
      (if latest + unlockTime < now ∨ latest < interval then 0 else min maxRecordCnt recent)
        = if latest + unlockTime < now then 0 else min maxRecordCnt recent) ↔
    empty ∨ latest + unlockTime < now ∨
      interval ≤ latest ∧ (threshold ≤ maxRecordCnt ∨ recent < threshold)
  := by
  rw [maxRecordCnt]
  by_cases hold : latest + unlockTime < now
  · rw [if_pos (.inl hold), if_pos hold]
    have hlock : threshold ≤ 0 ↔ threshold ≤ recent ∧ now ≤ latest + unlockTime := by omega
    exact iff_of_true ⟨hlock, rfl⟩ (.inr (.inl hold))
  · rw [if_neg hold]
    by_cases hempty : empty
    · have hrecent := hnone hempty
      rw [hrecent, Nat.min_zero, ite_self]
      exact iff_of_true ⟨by omega, rfl⟩ (.inl hempty)
    · have hpos := hfirst hempty
      by_cases hwrap : latest < interval
      · rw [if_pos (.inr hwrap)]
        constructor
        · rintro ⟨-, hcount⟩
          omega
        · rintro (h | h | h)
          · exact absurd h hempty
          · exact absurd h hold
          · omega
      · rw [if_neg (not_or.mpr ⟨hold, hwrap⟩)]
        constructor
        · rintro ⟨hlock, -⟩
          right
          right
          omega
        · rintro (h | h | h)
          · exact absurd h hempty
          · exact absurd h hold
          · exact ⟨by omega, rfl⟩

/-- In every run with a clock that does not go back, the lock of an address is decided as it
should be exactly under the condition. -/
theorem decides_iff {events : List Event} (hclock : (events.map Event.now).Pairwise (· ≤ ·))
    {ip cleanIp : Ip} (hip : removePortFromIp ip = some cleanIp) {c : LockConf}
    (hthreshold : 1 ≤ c.lockThreshold ∧ c.lockThreshold ≤ 255) (hinterval : c.failInterval < 2 ^ 63)
    (hunlock : c.unlockTime < 2 ^ 63) (now : ℕ) :
  Decides (Traced.after events) ip cleanIp c now
    ↔ Sound ((Traced.after events).history cleanIp) c now
  := by
  obtain ⟨last, h⟩ := inv_after hclock
  generalize Traced.after events = x at h ⊢
  have hcount := h.failCnt_eq cleanIp hinterval hunlock now
  have htally := h.getUserInfo_eq cleanIp c.failInterval c.unlockTime now
  have hlocked : (∃ status, x.store.getOneLockStatus ip c now = some status ∧
        status.lockStatus = true) ↔
      c.lockThreshold ≤ failCnt c.failInterval c.unlockTime now (x.store.files cleanIp) := by
    have hne : c.lockThreshold ≠ 0 := by omega
    simp [Store.getOneLockStatus, hip, lockStatusOf, hne]
  have hfirst : x.history cleanIp ≠ [] → 0 < c.failInterval →
      0 < Tally.recent c.failInterval (x.history cleanIp) := by
    intro hne hpos
    obtain ⟨t, ts, hts⟩ := List.exists_cons_of_ne_nil hne
    rw [Tally.recent, hts, List.countP_pos_iff]
    exact ⟨t, List.mem_cons_self, decide_eq_true (by simpa using hpos)⟩
  have hnone : x.history cleanIp = [] → Tally.recent c.failInterval (x.history cleanIp) = 0 := by
    intro hnil
    rw [hnil]
    rfl
  have hdecides : Decides x ip cleanIp c now ↔
      ((c.lockThreshold ≤ failCnt c.failInterval c.unlockTime now (x.store.files cleanIp) ↔
          c.lockThreshold ≤ Tally.recent c.failInterval (x.history cleanIp) ∧
            now ≤ (x.history cleanIp).headD 0 + c.unlockTime) ∧
        failCnt c.failInterval c.unlockTime now (x.store.files cleanIp)
          = (Tally.getUserInfo c.unlockTime c.failInterval now
              ((x.store.files cleanIp).map fun r => ⟨true, r.timestamp⟩)).1) := by
    rw [← hlocked]
    exact ⟨fun h => ⟨h.1, h.2⟩, fun h => ⟨h.1, h.2⟩⟩
  rw [hdecides, hcount, htally]
  exact sound_iff hthreshold.1 hfirst hnone

/-! ### An early clock -/

/-- The address `10.0.0.7`. -/
def client : Ip := ['1', '0', '.', '0', '.', '0', '.', '7']

/-- Three failures of the address in the first seconds of the clock. -/
def earlyFailures : List Event :=
  [⟨10, by decide, .increaseFailRecord client false none⟩,
    ⟨10, by decide, .increaseFailRecord client false none⟩,
    ⟨11, by decide, .increaseFailRecord client false none⟩]

/-- Three failures within five minutes lock for five minutes. -/
def plainConf : LockConf := ⟨3, 300, 300⟩

theorem decides_iff_early :
  Decides (Traced.after earlyFailures) client client plainConf 12
    ↔ Sound ((Traced.after earlyFailures).history client) plainConf 12
  :=
  decides_iff (by decide) (by decide) (by decide) (by decide) (by decide) 12

/-- The address is not locked. -/
theorem not_decides_early :
  ¬Decides (Traced.after earlyFailures) client client plainConf 12
  := by
  intro h
  have hcount := h.count_eq
  revert hcount
  decide

end IpLock

end BmcAccount
