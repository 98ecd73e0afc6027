import BmcAccount.Lib.OldestLog

/-!
# The tally of failed logins

The failed logins of a user are kept in a file of at most 1024 records. A new record is
appended, or replaces the oldest one when the file is full; reading the file gives the time
of the latest failure and the number of failures shortly before it.

`Holds records times` says that the file holds the most recent of the given failures,
listed with the latest one first: it is a log that overwrites its oldest record, and all of its
records are valid.
-/

namespace BmcAccount

namespace Tally

/-- A record of a failed login. -/
structure Record where
  valid : Bool
  timestamp : ℕ
deriving DecidableEq

/-- `MAX_RECORDS`. -/
def maxRecords : ℕ := 1024

/-- `read_tally`: at most so many records are read. -/
def readTally (file : List Record) : List Record := file.take maxRecords

/-- `update_tally`. -/
def updateTally (now : ℕ) (records : List Record) : List Record :=
  OldestLog.record Record.timestamp maxRecords ⟨true, now⟩ records

/-- `increment_pam_tally`. -/
def incrementPamTally (now : ℕ) (file : List Record) : List Record :=
  updateTally now (readTally file)

/-- The first loop of `get_user_info`: the time of the latest failure. -/
def latestTime (records : List Record) : ℕ :=
  (records.filter Record.valid).foldl (fun t r => max t r.timestamp) 0

/-- The second loop of `get_user_info`: the failures within the interval before the latest. -/
def failures (interval : ℕ) (records : List Record) : ℕ :=
  records.countP fun r => r.valid && decide (latestTime records - r.timestamp < interval)

/-- `get_user_info`: the number of failures and the time of the latest one, unless they are
older than the lock would last. -/
def getUserInfo (unlockTime interval now : ℕ) (file : List Record) : ℕ × ℕ :=
  let records := readTally file
  if now ≤ latestTime records + unlockTime then (failures interval records, latestTime records)
  else (0, 0)

/-! ## Files that hold failures -/

/-- The times of failures, the latest one first. -/
def Ordered (times : List ℕ) : Prop := times.Pairwise (· ≥ ·)

theorem Ordered.le_headD {times : List ℕ} (h : Ordered times) {t : ℕ} (ht : t ∈ times) :
  t ≤ times.headD 0
  := by
  cases times with
  | nil => cases ht
  | cons t₀ l =>
    obtain rfl | ht := List.mem_cons.mp ht
    · exact le_refl t
    · exact List.rel_of_pairwise_cons h ht

/-- The file holds the most recent of the failures. -/
def Holds (records : List Record) (times : List ℕ) : Prop :=
  records.Perm ((times.take maxRecords).map (Record.mk true))

/-- The number of failures within the interval before the latest one. -/
def recent (interval : ℕ) (times : List ℕ) : ℕ :=
  times.countP fun t => decide (times.headD 0 - t < interval)

theorem Holds.length_le {records : List Record} {times : List ℕ} (h : Holds records times) :
  records.length ≤ maxRecords
  := by
  rw [h.length_eq, List.length_map, List.length_take]
  exact min_le_left _ _

theorem Holds.readTally_eq {records : List Record} {times : List ℕ} (h : Holds records times) :
  readTally records = records
  := List.take_of_length_le h.length_le

theorem holds_nil :
  Holds [] []
  := List.Perm.refl _

/-- A file holds failures as a log that overwrites its oldest record does, and its records are
valid. -/
theorem holds_iff {records : List Record} {times : List ℕ} :
  Holds records times ↔ OldestLog.Holds Record.timestamp maxRecords records times
    ∧ ∀ r ∈ records, r.valid = true
  := by
  constructor
  · intro h
    constructor
    · have hkeys := h.map Record.timestamp
      rwa [List.map_map, show Record.timestamp ∘ Record.mk true = id from rfl, List.map_id]
        at hkeys
    · intro r hr
      obtain ⟨t, -, rfl⟩ := List.mem_map.mp (h.mem_iff.mp hr)
      rfl
  · rintro ⟨hlog, hvalid⟩
    have hsame : (records.map Record.timestamp).map (Record.mk true) = records := by
      rw [List.map_map]
      have hid : records.map (Record.mk true ∘ Record.timestamp) = records.map id := by
        apply List.map_congr_left
        intro r hr
        rw [Function.comp, ← hvalid r hr]
        rfl
      rw [hid, List.map_id]
    unfold Holds
    rw [← hsame]
    exact hlog.map _

/-- A new failure is held, and in a full file it takes the place of the oldest one. -/
theorem Holds.increment {records : List Record} {times : List ℕ} {now : ℕ}
    (h : Holds records times) (hord : Ordered times) :
  Holds (incrementPamTally now records) (now :: times)
  := by
  unfold incrementPamTally
  rw [h.readTally_eq]
  obtain ⟨hlog, hvalid⟩ := holds_iff.mp h
  refine holds_iff.mpr ⟨hlog.record (by decide) hord ⟨true, now⟩, ?_⟩
  intro r hr
  rcases OldestLog.mem_of_mem_record hr with rfl | hr
  · rfl
  · exact hvalid r hr

/-! ## What is read from a file -/

section Read

variable {records : List Record} {times : List ℕ} {interval unlockTime now : ℕ}

theorem Holds.latestTime_eq (h : Holds records times) (hord : Ordered times) :
  latestTime records = times.headD 0
  := by
  obtain ⟨hlog, hvalid⟩ := holds_iff.mp h
  unfold latestTime
  rw [List.filter_eq_self.mpr hvalid]
  exact hlog.foldl_max (by decide) hord

theorem headD_take (times : List ℕ) :
  (times.take maxRecords).headD 0 = times.headD 0
  := by
  cases times <;> rfl

theorem Holds.failures_eq (h : Holds records times) (hord : Ordered times) :
  failures interval records = recent interval (times.take maxRecords)
  := by
  unfold failures recent
  rw [h.latestTime_eq hord, headD_take, List.Perm.countP_eq _ h, List.countP_map]
  rfl

theorem Holds.failures_le (h : Holds records times) (hord : Ordered times) :
  failures interval records ≤ recent interval times
  := by
  rw [h.failures_eq hord]
  unfold recent
  rw [headD_take]
  exact (List.take_sublist _ _).countP_le

/-- The file loses no failure that matters as long as the threshold fits into it. -/
theorem Holds.le_failures (h : Holds records times) (hord : Ordered times) {threshold : ℕ}
    (hmax : threshold ≤ maxRecords) (hrecent : threshold ≤ recent interval times) :
  threshold ≤ failures interval records
  := by
  rw [h.failures_eq hord]
  unfold recent at hrecent ⊢
  rw [headD_take, OldestLog.countP_take]
  · exact le_min hmax hrecent
  · apply hord.imp
    intro t t' hge hp
    simp only [decide_eq_true_eq] at hp ⊢
    omega

theorem Holds.getUserInfo_of_le (h : Holds records times) (hord : Ordered times)
    (hnow : now ≤ times.headD 0 + unlockTime) :
  getUserInfo unlockTime interval now records = (failures interval records, times.headD 0)
  := by
  unfold getUserInfo
  simp only [h.readTally_eq, h.latestTime_eq hord]
  exact if_pos hnow

theorem Holds.getUserInfo_of_lt (h : Holds records times) (hord : Ordered times)
    (hnow : times.headD 0 + unlockTime < now) :
  getUserInfo unlockTime interval now records = (0, 0)
  := by
  unfold getUserInfo
  simp only [h.readTally_eq, h.latestTime_eq hord]
  exact if_neg (Nat.not_le_of_lt hnow)

end Read

end Tally

end BmcAccount
