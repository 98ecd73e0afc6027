import BmcAccount.Lib.Run
import BmcAccount.Lib.Table
import BmcAccount.Lockout.Service

/-!
# The lockout of password tests

Over IPMI a handler may test the password of a user. Wrong answers are counted for each pair
of a handler and a user, in records that are looked at, and emptied when they are old, by the
next test and by a monitor. A change of the threshold empties the records of the pairs that
are not locked.

The failures of a pair are carried along a run, the latest one first, from the last success,
the last time the record was emptied, and the last creation of either account. A test is
refused as it should be as long as no account is created over a record that is still alive:
the records are not removed with an account.
-/

namespace BmcAccount

namespace Lockout

/-! ## Records -/

/-- The record of a pair; what is not there reads as in `TestRecord.none`. -/
structure TestRecord where
  lastLockFlag : UserLocked
  testFailCnt : ℕ
  lastFailTime : ℕ
deriving DecidableEq

/-- The values that `get_ipmi_test_pwd_lock_record` falls back on. -/
def TestRecord.none : TestRecord := ⟨.userUnlock, 0, 0⟩

/-- The record without failures. -/
def TestRecord.clean (r : TestRecord) : TestRecord := { r with testFailCnt := 0 }

/-- The record without failures, if the pair was not seen locked. -/
def TestRecord.cleanUnlock (r : TestRecord) : TestRecord :=
  if r.lastLockFlag = .userUnlock then r.clean else r

/-- What the cache holds of an account. -/
structure TestAccount where
  roleId : ℕ
  currentPrivileges : List PrivilegeType

/-- `AccountLock`, with the cache of the accounts and the threshold. -/
structure TestLock where
  records : ℕ → ℕ → TestRecord
  locks : ℕ → Option LockState
  cache : Table ℕ TestAccount
  threshold : ℕ

/-- The users whose passwords are tested. -/
def testIds : List ℕ := List.range' 2 16

/-- The accounts that the monitor does not look at. -/
def notTestAccountId : List ℕ := [18, 20, 21, 22, 23]

namespace TestLock

/-- `set_ipmi_test_pwd_lock_record`. -/
def setRecord (h u : ℕ) (f : TestRecord → TestRecord) (s : TestLock) : TestLock :=
  { s with
    records :=
      Function.update s.records h (Function.update (s.records h) u (f (s.records h u))) }

/-- `get_account_lock_state`, its state. -/
def lockState (s : TestLock) (id : ℕ) : UserLocked :=
  (s.locks id).elim .userUnlock LockState.state

/-- `check_ipmi_user_test_state`. -/
def checkIpmiUserTestState (duration now h u : ℕ) (s : TestLock) : UserLocked × TestLock :=
  if s.threshold = 0 then (.userUnlock, s)
  else if now < (s.records h u).lastFailTime + duration then
    if s.threshold ≤ (s.records h u).testFailCnt then (.userLock, s) else (s.lockState u, s)
  else (s.lockState u, s.setRecord h u TestRecord.clean)

/-- `test_password_fail_cnt_increase`. -/
def testPasswordFailCntIncrease (now h u : ℕ) (s : TestLock) : TestLock :=
  s.setRecord h u fun r => { r with testFailCnt := r.testFailCnt + 1, lastFailTime := now }

/-- `clean_specific_ipmi_test_password_failures`. -/
def cleanSpecificIpmiTestPasswordFailures (h u : ℕ) (s : TestLock) : TestLock :=
  s.setRecord h u TestRecord.clean

/-- `set_ipmi_test_password_lock_status`. -/
def setIpmiTestPasswordLockStatus (h u : ℕ) (status : UserLocked) (s : TestLock) : TestLock :=
  if (s.cache.lookup h).isNone then s
  else s.setRecord h u fun r => { r with lastLockFlag := status }

/-- `clean_account_all_ipmi_test_password_failures`. -/
def cleanAccountAllIpmiTestPasswordFailures (s : TestLock) (h : ℕ) : TestLock :=
  testIds.foldl (fun s i => s.setRecord h i TestRecord.clean) s

/-- `clean_account_unlock_ipmi_test_password_failures`. -/
def cleanAccountUnlockIpmiTestPasswordFailures (s : TestLock) (h : ℕ) : TestLock :=
  testIds.foldl (fun s i => s.setRecord h i TestRecord.cleanUnlock) s

/-- `clean_all_user_lock_state`. -/
def cleanAllUserLockState (s : TestLock) : TestLock :=
  s.cache.keys.foldl cleanAccountAllIpmiTestPasswordFailures s

/-- `clean_unlock_user_lock_state`. -/
def cleanUnlockUserLockState (s : TestLock) : TestLock :=
  s.cache.keys.foldl (fun s id =>
    if s.lockState id = .userUnlock then s.cleanAccountUnlockIpmiTestPasswordFailures id else s) s

/-- `set_account_lockout_threshold`, for a threshold in its range; `stored` says whether it
gets past the files of PAM. -/
def setAccountLockoutThreshold (threshold : ℕ) (stored : Bool) (s : TestLock) : TestLock :=
  let s' := if s.threshold = 0 ∨ threshold = 0 then s.cleanAllUserLockState
    else if s.threshold ≠ threshold then s.cleanUnlockUserLockState else s
  { s' with threshold := if stored then threshold else s.threshold }

/-- The monitor at a pair, in `check_ipmi_user_test_lock_states_task`. It sleeps before it
comes to the next one. -/
def checkPair (duration now h u : ℕ) (s : TestLock) : TestLock :=
  if h ∈ notTestAccountId then s
  else
    let s := if (s.cache.lookup u).isNone then s.setIpmiTestPasswordLockStatus h u .userUnlock
      else s
    let (status, s) := s.checkIpmiUserTestState duration now h u
    s.setIpmiTestPasswordLockStatus h u status

/-- The signals of the account service: an account is added. -/
def newAccountCache (id : ℕ) (account : TestAccount) (s : TestLock) : TestLock :=
  { s with cache := s.cache.insert id account }

/-- The signals of the account service: an account is removed, and its state with it. -/
def delAccountCache (id : ℕ) (s : TestLock) : TestLock :=
  { s with cache := s.cache.erase id, locks := Function.update s.locks id Option.none }

/-- `set_account_lock_state`. -/
def setAccountLockState (id : ℕ) (l : LockState) (s : TestLock) : TestLock :=
  { s with locks := Function.update s.locks id (some l) }

end TestLock

/-! ## A test -/

/-- `check_ipmi_password_privilege`, unless it raises. -/
def checkIpmiPasswordPrivilege (cache : Table ℕ TestAccount) (h u : ℕ) : Option Bool :=
  if h > 17 ∨ h < 2 then some true
  else (cache.lookup h).map fun handler =>
    if handler.currentPrivileges = [.configureSelf] then h = u else handler.roleId = 4

/-- How a test ends before the password is looked at, or that it does not. -/
inductive TestReply where
  | userDontExist
  | indexNil
  | unSupported
  | userIsLocked
  | tested
deriving DecidableEq

/-- `ipmi_test_account_password`, up to the test of the password. -/
def TestLock.ipmiTestAccountPassword (duration now h u : ℕ) (s : TestLock) :
    TestReply × TestLock :=
  if (s.cache.lookup u).isNone then (.userDontExist, s)
  else match checkIpmiPasswordPrivilege s.cache h u with
    | none => (.indexNil, s)
    | some false => (.unSupported, s)
    | some true =>
      let (state, s) := s.checkIpmiUserTestState duration now h u
      if state = .userLock then (.userIsLocked, s) else (.tested, s)

/-- `ipmi_test_account_password`, once the password was found right or wrong. -/
def TestLock.testAnswered (now h u : ℕ) (right : Bool) (s : TestLock) : TestLock :=
  if right then s.cleanSpecificIpmiTestPasswordFailures h u
  else s.testPasswordFailCntIncrease now h u

/-! ## What is done to the record of a pair -/

namespace TestLock

variable {duration now h u h' u' : ℕ}

theorem records_setRecord (s : TestLock) (f : TestRecord → TestRecord) :
  (s.setRecord h u f).records h' u' =
    if h' = h ∧ u' = u then f (s.records h u) else s.records h' u'
  := by
  unfold setRecord
  by_cases hh : h' = h
  · subst hh
    by_cases hu : u' = u
    · subst hu
      simp
    · simp [hu]
  · simp [hh]

@[simp]
theorem records_setRecord_self (s : TestLock) (f : TestRecord → TestRecord) :
  (s.setRecord h u f).records h u = f (s.records h u)
  := by
  simp [records_setRecord]

/-- Emptying the records of a handler for a list of users, each in the same way. -/
theorem records_foldl_setRecord {f : TestRecord → TestRecord} (hf : ∀ r, f (f r) = f r) (h : ℕ)
    (l : List ℕ) (s : TestLock) (h' u' : ℕ) :
  (l.foldl (fun s i => s.setRecord h i f) s).records h' u' =
    if h' = h ∧ u' ∈ l then f (s.records h' u') else s.records h' u'
  := by
  induction l generalizing s with
  | nil => simp
  | cons i l ih =>
    rw [List.foldl_cons, ih, records_setRecord]
    by_cases hh : h' = h
    · subst hh
      by_cases hi : u' = i
      · subst hi
        by_cases hl : u' ∈ l <;> simp [hl, hf]
      · simp [hi]
    · simp [hh]

theorem locks_foldl_setRecord (f : TestRecord → TestRecord) (h : ℕ) (l : List ℕ) (s : TestLock) :
  (l.foldl (fun s i => s.setRecord h i f) s).locks = s.locks
  := by
  induction l generalizing s with
  | nil => rfl
  | cons i l ih => exact ih _

/-- Emptying the records of the handlers in a list that meet a condition on the locks. -/
theorem records_foldl_clean {f : TestRecord → TestRecord} (hf : ∀ r, f (f r) = f r)
    (c : (ℕ → Option LockState) → ℕ → Prop) [∀ locks id, Decidable (c locks id)] (ids : List ℕ)
    (s : TestLock) (h' u' : ℕ) :
  (ids.foldl (fun s id =>
      if c s.locks id then testIds.foldl (fun s i => s.setRecord id i f) s else s) s).records h' u' =
    if h' ∈ ids ∧ c s.locks h' ∧ u' ∈ testIds then f (s.records h' u') else s.records h' u'
  := by
  induction ids generalizing s with
  | nil => simp
  | cons id ids ih =>
    rw [List.foldl_cons]
    by_cases hc : c s.locks id
    · rw [if_pos hc, ih, locks_foldl_setRecord, records_foldl_setRecord hf]
      by_cases hid : h' = id
      · subst hid
        by_cases hu : u' ∈ testIds
        · by_cases hmem : h' ∈ ids <;> simp [hc, hu, hmem, hf]
        · simp [hu]
      · simp [hid]
    · rw [if_neg hc, ih]
      by_cases hid : h' = id
      · subst hid
        simp [hc]
      · simp [hid]

/-- The pairs whose records a change of the threshold empties. -/
def Cleans (s : TestLock) (threshold h u : ℕ) : Prop :=
  h ∈ s.cache.keys ∧ u ∈ testIds ∧
    (s.threshold = 0 ∨ threshold = 0 ∨
      (s.threshold ≠ threshold ∧ s.lockState h = .userUnlock
        ∧ (s.records h u).lastLockFlag = .userUnlock))

instance (s : TestLock) (threshold h u : ℕ) : Decidable (s.Cleans threshold h u) :=
  inferInstanceAs (Decidable (_ ∧ _))

theorem clean_clean (r : TestRecord) :
  r.clean.clean = r.clean
  := rfl

theorem cleanUnlock_cleanUnlock (r : TestRecord) :
  r.cleanUnlock.cleanUnlock = r.cleanUnlock
  := by
  unfold TestRecord.cleanUnlock
  by_cases hflag : r.lastLockFlag = .userUnlock
  · rw [if_pos hflag, if_pos (show r.clean.lastLockFlag = .userUnlock from hflag), clean_clean]
  · rw [if_neg hflag, if_neg hflag]

theorem records_setAccountLockoutThreshold (s : TestLock) (threshold : ℕ) (stored : Bool)
    (h u : ℕ) :
  (s.setAccountLockoutThreshold threshold stored).records h u =
    if s.Cleans threshold h u then (s.records h u).clean else s.records h u
  := by
  have hcleans : s.Cleans threshold h u ↔ h ∈ s.cache.keys ∧ u ∈ testIds ∧
      (s.threshold = 0 ∨ threshold = 0 ∨ (s.threshold ≠ threshold ∧ s.lockState h = .userUnlock
        ∧ (s.records h u).lastLockFlag = .userUnlock)) := Iff.rfl
  unfold setAccountLockoutThreshold
  by_cases hzero : s.threshold = 0 ∨ threshold = 0
  · have hall := records_foldl_clean clean_clean (fun _ _ => True) s.cache.keys s h u
    simp only [if_true, true_and] at hall
    simp only [if_pos hzero]
    refine hall.trans ?_
    congr 1
    apply propext
    tauto
  simp only [if_neg hzero]
  by_cases hsame : s.threshold = threshold
  · rw [if_neg (not_not.mpr hsame)]
    exact (if_neg (by tauto)).symm
  · rw [if_pos hsame]
    have hunlock := records_foldl_clean cleanUnlock_cleanUnlock
      (fun locks id => (locks id).elim .userUnlock LockState.state = .userUnlock)
      s.cache.keys s h u
    refine hunlock.trans ?_
    unfold TestRecord.cleanUnlock
    have hstate : s.lockState h = .userUnlock
        ↔ (s.locks h).elim .userUnlock LockState.state = .userUnlock := Iff.rfl
    by_cases hflag : (s.records h u).lastLockFlag = .userUnlock
    · rw [if_pos hflag]
      congr 1
      apply propext
      tauto
    · rw [if_neg hflag, ite_self]
      exact (if_neg (by tauto)).symm

end TestLock

/-! ## Failures -/

/-- The number of failures up to the latest one, each less than the duration after the one
before it. -/
def streak (duration : ℕ) : List ℕ → ℕ
  | [] => 0
  | [_] => 1
  | t :: t' :: l => if t < t' + duration then streak duration (t' :: l) + 1 else 1

/-- There have been enough consecutive failures, the last one less than the duration ago. -/
structure MustLock (threshold duration : ℕ) (fails : List ℕ) (now : ℕ) : Prop where
  enough : threshold ≤ streak duration fails
  current : now < fails.headD 0 + duration

/-- The record holds the failures: it counts them, or it is too old to count and so are they. -/
def RecordSynced (duration clock : ℕ) (r : TestRecord) (fails : List ℕ) : Prop :=
  (r.testFailCnt = streak duration fails ∧ (fails ≠ [] → r.lastFailTime = fails.headD 0)) ∨
    ((r.testFailCnt = 0 ∨ r.lastFailTime + duration ≤ clock)
      ∧ (fails = [] ∨ fails.headD 0 + duration ≤ clock))

section Synced

variable {duration clock now threshold : ℕ} {r : TestRecord} {fails : List ℕ}

theorem streak_cons (t : ℕ) (hne : fails ≠ []) :
  streak duration (t :: fails)
    = if t < fails.headD 0 + duration then streak duration fails + 1 else 1
  := by
  cases fails with
  | nil => exact absurd rfl hne
  | cons t' l => rfl

theorem one_le_streak (hne : fails ≠ []) :
  1 ≤ streak duration fails
  := by
  rcases fails with - | ⟨t, - | ⟨t', l⟩⟩
  · exact absurd rfl hne
  · exact le_rfl
  · unfold streak
    split <;> omega

/-- A record that was emptied holds no failures. -/
theorem recordSynced_nil (hcount : r.testFailCnt = 0) :
  RecordSynced duration clock r []
  := Or.inl ⟨hcount, fun h => absurd rfl h⟩

theorem RecordSynced.later (h : RecordSynced duration clock r fails) (hnow : clock ≤ now) :
  RecordSynced duration now r fails
  := by
  obtain h | ⟨hr, hf⟩ := h
  · exact Or.inl h
  · exact Or.inr ⟨hr.imp_right (·.trans hnow), hf.imp_right (·.trans hnow)⟩

/-- Only the count and the time of a record matter. -/
theorem RecordSynced.congr {r' : TestRecord} (h : RecordSynced duration clock r fails)
    (hcount : r'.testFailCnt = r.testFailCnt) (htime : r'.lastFailTime = r.lastFailTime) :
  RecordSynced duration clock r' fails
  := by
  unfold RecordSynced
  rw [hcount, htime]
  exact h

/-- An old record is emptied. -/
theorem RecordSynced.clean (h : RecordSynced duration clock r fails)
    (hold : r.lastFailTime + duration ≤ clock) :
  RecordSynced duration clock r.clean fails
  := by
  right
  refine ⟨Or.inl rfl, ?_⟩
  obtain ⟨-, htime⟩ | ⟨-, hf⟩ := h
  · by_cases hne : fails = []
    · exact Or.inl hne
    · right
      rw [← htime hne]
      exact hold
  · exact hf

/-- One more failure, while the failures that are counted are not too old. -/
theorem RecordSynced.fail (h : RecordSynced duration clock r fails) (hnow : clock ≤ now)
    (hlive : r.testFailCnt = 0 ∨ now < r.lastFailTime + duration) :
  RecordSynced duration now { r with testFailCnt := r.testFailCnt + 1, lastFailTime := now }
    (now :: fails)
  := by
  left
  refine ⟨?_, fun _ => rfl⟩
  change r.testFailCnt + 1 = streak duration (now :: fails)
  by_cases hne : fails = []
  · subst hne
    obtain ⟨hcount, -⟩ | ⟨hr, -⟩ := h
    · exact congrArg (· + 1) hcount
    · have hzero : r.testFailCnt = 0 := by omega
      rw [hzero]
      rfl
  · rw [streak_cons now hne]
    obtain ⟨hcount, htime⟩ | ⟨hr, hf⟩ := h
    · have hone : 1 ≤ streak duration fails := one_le_streak hne
      rw [htime hne] at hlive
      rw [if_pos (by omega), hcount]
    · have hzero : r.testFailCnt = 0 := by omega
      have hold : fails.headD 0 + duration ≤ clock := hf.resolve_left hne
      rw [if_neg (by omega), hzero]

/-- The record is that of a lock exactly when there have been enough failures. -/
theorem RecordSynced.mustLock_iff (h : RecordSynced duration clock r fails) (hnow : clock ≤ now)
    (hpos : 0 < threshold) :
  (now < r.lastFailTime + duration ∧ threshold ≤ r.testFailCnt)
    ↔ MustLock threshold duration fails now
  := by
  by_cases hne : fails = []
  · have hno : ¬ MustLock threshold duration fails now := by
      intro hlock
      have henough := hlock.enough
      rw [hne] at henough
      exact absurd hpos (Nat.not_lt_of_le henough)
    refine iff_of_false ?_ hno
    subst hne
    rintro ⟨hlive, hcount⟩
    obtain ⟨hzero, -⟩ | ⟨hr, -⟩ := h
    · rw [hzero] at hcount
      exact absurd hpos (Nat.not_lt_of_le hcount)
    · omega
  · obtain ⟨hcount, htime⟩ | ⟨hr, hf⟩ := h
    · rw [hcount, htime hne]
      exact ⟨fun h => ⟨h.2, h.1⟩, fun h => ⟨h.current, h.enough⟩⟩
    · have hold : fails.headD 0 + duration ≤ clock := hf.resolve_left hne
      refine iff_of_false ?_ fun hlock => ?_
      · rintro ⟨hlive, hcount⟩
        omega
      · have hcurrent := hlock.current
        omega

end Synced

/-! ## Runs -/

/-- What can happen. A test comes in two parts, before and after the password is looked at, and
the monitor comes to one pair after the other. -/
inductive TestEvent where
  | test (h u : ℕ)
  | answered (h u : ℕ) (right : Bool)
  | monitor (h u : ℕ)
  | setThreshold (threshold : ℕ) (stored : Bool)
  | added (id : ℕ) (account : TestAccount)
  | removed (id : ℕ)
  | setLock (id : ℕ) (l : LockState)

/-- Something that happens at a time. -/
structure TimedTest where
  now : ℕ
  event : TestEvent

/-- The state along a run: with the failures of every pair since the last success, the last
time its record was emptied on purpose, and the last creation of either account, and the time of
the latest event. -/
structure TestTrace where
  lock : TestLock
  fails : ℕ → ℕ → List ℕ
  clock : ℕ

/-- There are no records yet. -/
def TestTrace.start (cache : Table ℕ TestAccount) (locks : ℕ → Option LockState)
    (threshold : ℕ) : TestTrace :=
  ⟨⟨fun _ _ => TestRecord.none, locks, cache, threshold⟩, fun _ _ => [], 0⟩

/-- The state after an event. -/
def TestLock.after (duration : ℕ) (s : TestLock) (e : TimedTest) : TestLock :=
  match e.event with
  | .test h u => (s.ipmiTestAccountPassword duration e.now h u).2
  | .answered h u right => s.testAnswered e.now h u right
  | .monitor h u => s.checkPair duration e.now h u
  | .setThreshold threshold stored => s.setAccountLockoutThreshold threshold stored
  | .added id account => s.newAccountCache id account
  | .removed id => s.delAccountCache id
  | .setLock id l => s.setAccountLockState id l

/-- The failures after an event. -/
def TestTrace.nextFails (x : TestTrace) (e : TimedTest) (h u : ℕ) : List ℕ :=
  match e.event with
  | .answered h' u' right =>
      if h = h' ∧ u = u' then (if right then [] else e.now :: x.fails h u) else x.fails h u
  | .setThreshold threshold _ => if x.lock.Cleans threshold h u then [] else x.fails h u
  | .added id _ => if h = id ∨ u = id then [] else x.fails h u
  | _ => x.fails h u

/-- One event. -/
def testStep (duration : ℕ) (x : TestTrace) (e : TimedTest) : TestTrace :=
  ⟨x.lock.after duration e, x.nextFails e, e.now⟩

/-- The clock does not go back, and the threshold stays positive. -/
def TimedTest.Regular (x : TestTrace) (e : TimedTest) : Prop :=
  x.clock ≤ e.now ∧
    match e.event with
    | .setThreshold threshold _ => 0 < threshold
    | _ => True

/-- An account is created over records of its pairs that are empty or old. And while a wrong
password was looked at, the failures before it have not become old. -/
def TimedTest.Careful (duration : ℕ) (x : TestTrace) (e : TimedTest) : Prop :=
  match e.event with
  | .added id _ => ∀ h u, h = id ∨ u = id →
      (x.lock.records h u).testFailCnt = 0
        ∨ (x.lock.records h u).lastFailTime + duration ≤ e.now
  | .answered h u false =>
      (x.lock.records h u).testFailCnt = 0
        ∨ e.now < (x.lock.records h u).lastFailTime + duration
  | _ => True

/-- The test comes to the look at the lock. -/
def TestLock.Admits (s : TestLock) (h u : ℕ) : Prop :=
  (s.cache.lookup u).isSome ∧ checkIpmiPasswordPrivilege s.cache h u = some true

/-- A test that comes to the look at the lock is refused exactly when the user is locked, or
there have been enough failures. -/
def TimedTest.Right (duration : ℕ) (x : TestTrace) (e : TimedTest) : Prop :=
  match e.event with
  | .test h u =>
      (x.lock.ipmiTestAccountPassword duration e.now h u).1 = .userIsLocked ↔
        x.lock.Admits h u ∧ (x.lock.lockState u = .userLock
          ∨ MustLock x.lock.threshold duration (x.fails h u) e.now)
  | _ => True

/-- The threshold is positive, and every record holds the failures of its pair. -/
structure TestLock.Synced (duration clock : ℕ) (fails : ℕ → ℕ → List ℕ) (s : TestLock) : Prop where
  threshold_pos : 0 < s.threshold
  record : ∀ h u, RecordSynced duration clock (s.records h u) (fails h u)

section Steps

variable {duration clock now h u : ℕ} {fails : ℕ → ℕ → List ℕ} {s : TestLock}

theorem TestLock.Synced.later (hs : s.Synced duration clock fails) (hnow : clock ≤ now) :
  s.Synced duration now fails
  := ⟨hs.threshold_pos, fun h u => (hs.record h u).later hnow⟩

/-- Changing one record. -/
theorem TestLock.Synced.setRecord {f : TestRecord → TestRecord} {fails' : List ℕ}
    (hs : s.Synced duration clock fails)
    (hf : RecordSynced duration clock (f (s.records h u)) fails') :
  (s.setRecord h u f).Synced duration clock
    (fun h' u' => if h' = h ∧ u' = u then fails' else fails h' u')
  := by
  refine ⟨hs.threshold_pos, fun h' u' => ?_⟩
  rw [TestLock.records_setRecord]
  by_cases hpair : h' = h ∧ u' = u
  · rw [if_pos hpair, if_pos hpair]
    exact hf
  · rw [if_neg hpair, if_neg hpair]
    exact hs.record h' u'

/-- Changing one record, with the same failures. -/
theorem TestLock.Synced.setRecord_same {f : TestRecord → TestRecord}
    (hs : s.Synced duration clock fails)
    (hf : RecordSynced duration clock (f (s.records h u)) (fails h u)) :
  (s.setRecord h u f).Synced duration clock fails
  := by
  refine ⟨hs.threshold_pos, fun h' u' => ?_⟩
  rw [TestLock.records_setRecord]
  split
  · rename_i hpair
    obtain ⟨rfl, rfl⟩ := hpair
    exact hf
  · exact hs.record h' u'

theorem TestLock.Synced.setStatus (hs : s.Synced duration clock fails) (h u : ℕ)
    (status : UserLocked) :
  (s.setIpmiTestPasswordLockStatus h u status).Synced duration clock fails
  := by
  unfold TestLock.setIpmiTestPasswordLockStatus
  split
  · exact hs
  · exact hs.setRecord_same ((hs.record h u).congr rfl rfl)

theorem TestLock.Synced.check (hs : s.Synced duration now fails) (h u : ℕ) :
  (s.checkIpmiUserTestState duration now h u).2.Synced duration now fails
  := by
  unfold TestLock.checkIpmiUserTestState
  rw [if_neg hs.threshold_pos.ne']
  split
  · split <;> exact hs
  · rename_i hold
    exact hs.setRecord_same ((hs.record h u).clean (Nat.le_of_not_lt hold))

/-- The look at the lock of a pair. -/
theorem TestLock.Synced.check_eq_userLock_iff (hs : s.Synced duration now fails) (h u : ℕ) :
  (s.checkIpmiUserTestState duration now h u).1 = .userLock ↔
    s.lockState u = .userLock ∨ MustLock s.threshold duration (fails h u) now
  := by
  rw [← (hs.record h u).mustLock_iff le_rfl hs.threshold_pos]
  unfold TestLock.checkIpmiUserTestState
  rw [if_neg hs.threshold_pos.ne']
  by_cases hlive : now < (s.records h u).lastFailTime + duration
  · rw [if_pos hlive]
    by_cases hcount : s.threshold ≤ (s.records h u).testFailCnt
    · rw [if_pos hcount]
      exact iff_of_true rfl (Or.inr ⟨hlive, hcount⟩)
    · rw [if_neg hcount]
      exact ⟨Or.inl, fun h => h.resolve_right fun h => hcount h.2⟩
  · rw [if_neg hlive]
    exact ⟨Or.inl, fun h => h.resolve_right fun h => hlive h.1⟩

/-- A test is refused exactly when it is to be. -/
theorem TestLock.Synced.test_iff (hs : s.Synced duration now fails) (h u : ℕ) :
  (s.ipmiTestAccountPassword duration now h u).1 = .userIsLocked ↔
    s.Admits h u ∧ (s.lockState u = .userLock ∨ MustLock s.threshold duration (fails h u) now)
  := by
  rw [← hs.check_eq_userLock_iff h u]
  unfold TestLock.ipmiTestAccountPassword TestLock.Admits
  cases hu : s.cache.lookup u with
  | none => simp
  | some account =>
    cases hpriv : checkIpmiPasswordPrivilege s.cache h u with
    | none => simp
    | some allowed =>
      cases allowed with
      | false => simp
      | true =>
        cases hcheck : (s.checkIpmiUserTestState duration now h u).1 <;> simp [hcheck]

theorem TestLock.Synced.ipmiTestAccountPassword (hs : s.Synced duration now fails) (h u : ℕ) :
  (s.ipmiTestAccountPassword duration now h u).2.Synced duration now fails
  := by
  have hcheck := hs.check h u
  unfold TestLock.ipmiTestAccountPassword
  split
  · exact hs
  split
  · exact hs
  · exact hs
  · simp only
    split <;> exact hcheck

theorem TestLock.Synced.checkPair (hs : s.Synced duration now fails) (h u : ℕ) :
  (s.checkPair duration now h u).Synced duration now fails
  := by
  unfold TestLock.checkPair
  split
  · exact hs
  simp only
  split
  · exact ((hs.setStatus h u _).check h u).setStatus h u _
  · exact (hs.check h u).setStatus h u _

/-- Every event keeps the records in step with the failures. -/
theorem testStep_synced {x : TestTrace} {e : TimedTest}
    (hx : x.lock.Synced duration x.clock x.fails) (hregular : e.Regular x)
    (hcareful : e.Careful duration x) :
  (testStep duration x e).lock.Synced duration (testStep duration x e).clock
    (testStep duration x e).fails
  := by
  obtain ⟨now, event⟩ := e
  have hs : x.lock.Synced duration now x.fails := hx.later hregular.1
  change (x.lock.after duration ⟨now, event⟩).Synced duration now (x.nextFails ⟨now, event⟩)
  cases event with
  | test h u => exact hs.ipmiTestAccountPassword h u
  | answered h u right =>
    cases right with
    | true =>
      have hset := hs.setRecord (h := h) (u := u) (f := TestRecord.clean) (recordSynced_nil rfl)
      refine ⟨hset.threshold_pos, fun h' u' => ?_⟩
      exact hset.record h' u'
    | false =>
      have hfail := (hx.record h u).fail hregular.1 hcareful
      have hset := hs.setRecord (h := h) (u := u)
        (f := fun r => { r with testFailCnt := r.testFailCnt + 1, lastFailTime := now }) hfail
      refine ⟨hset.threshold_pos, fun h' u' => ?_⟩
      have hrecord := hset.record h' u'
      change RecordSynced duration now ((x.lock.setRecord h u fun r =>
          { r with testFailCnt := r.testFailCnt + 1, lastFailTime := now }).records h' u')
        (if h' = h ∧ u' = u then now :: x.fails h' u' else x.fails h' u')
      by_cases hpair : h' = h ∧ u' = u
      · obtain ⟨rfl, rfl⟩ := hpair
        simpa using hrecord
      · simpa [hpair] using hrecord
  | monitor h u => exact hs.checkPair h u
  | setThreshold threshold stored =>
    refine ⟨?_, fun h u => ?_⟩
    · change 0 < if stored then threshold else x.lock.threshold
      split
      · exact hregular.2
      · exact hs.threshold_pos
    · change RecordSynced duration now
        ((x.lock.setAccountLockoutThreshold threshold stored).records h u)
        (if x.lock.Cleans threshold h u then [] else x.fails h u)
      rw [TestLock.records_setAccountLockoutThreshold]
      by_cases hclean : x.lock.Cleans threshold h u
      · rw [if_pos hclean, if_pos hclean]
        exact recordSynced_nil rfl
      · rw [if_neg hclean, if_neg hclean]
        exact hs.record h u
  | added id account =>
    refine ⟨hs.threshold_pos, fun h u => ?_⟩
    change RecordSynced duration now (x.lock.records h u)
      (if h = id ∨ u = id then [] else x.fails h u)
    by_cases hpair : h = id ∨ u = id
    · rw [if_pos hpair]
      exact Or.inr ⟨hcareful h u hpair, Or.inl rfl⟩
    · rw [if_neg hpair]
      exact hs.record h u
  | removed id => exact ⟨hs.threshold_pos, hs.record⟩
  | setLock id l => exact ⟨hs.threshold_pos, hs.record⟩

end Steps

/-- Along a run in which no account is created over a living record, and no failure gets old
while a wrong password is looked at, every test is refused exactly when it is to be. -/
theorem test_refused_iff {duration threshold : ℕ} (cache : Table ℕ TestAccount)
    (locks : ℕ → Option LockState) (hpos : 0 < threshold) {events : List TimedTest}
    (hregular : Run.Along (testStep duration) (fun x e => e.Regular x)
      (TestTrace.start cache locks threshold) events)
    (hcareful : Run.Along (testStep duration) (fun x e => e.Careful duration x)
      (TestTrace.start cache locks threshold) events) :
  Run.Along (testStep duration) (fun x e => e.Right duration x)
    (TestTrace.start cache locks threshold) events
  := by
  have hstart : (TestTrace.start cache locks threshold).lock.Synced duration 0 fun _ _ => [] :=
    ⟨hpos, fun _ _ => recordSynced_nil rfl⟩
  apply Run.along_of_invariant (I := fun x => x.lock.Synced duration x.clock x.fails)
    (fun x e hx he => testStep_synced hx he.1 he.2) _ hstart (hregular.and hcareful)
  rintro x ⟨now, event⟩ hx ⟨hr, -⟩
  cases event with
  | test h u => exact (hx.later hr.1).test_iff h u
  | _ => trivial

/-- Two administrators. -/
def twoAdministrators : Table ℕ TestAccount :=
  (AList.insert 2 ⟨4, []⟩ (∅ : Table ℕ TestAccount)).insert 3 ⟨4, []⟩

/-- The password of the user is tested wrongly, the user is deleted and created again, and the
password is tested once more. -/
def recreated : List TimedTest :=
  [⟨1000, .test 2 3⟩, ⟨1000, .answered 2 3 false⟩, ⟨1010, .removed 3⟩,
    ⟨1020, .added 3 ⟨4, []⟩⟩, ⟨1030, .test 2 3⟩]

theorem test_refused_after_failure :
  Run.Along (testStep 300) (fun x e => e.Right 300 x)
    (TestTrace.start twoAdministrators (fun _ => none) 1)
    [⟨1000, .test 2 3⟩, ⟨1000, .answered 2 3 false⟩, ⟨1030, .test 2 3⟩]
  := test_refused_iff twoAdministrators _ (by decide)
    ⟨⟨by decide, trivial⟩, ⟨by decide, trivial⟩, ⟨by decide, trivial⟩, trivial⟩
    ⟨trivial, Or.inl rfl, trivial, trivial⟩

/-- The failure of the user that was deleted refuses the test of the new one. -/
theorem recreated_user_locked :
  ¬ ∀ (duration threshold : ℕ) (cache : Table ℕ TestAccount) (locks : ℕ → Option LockState)
      (events : List TimedTest), 0 < threshold →
    Run.Along (testStep duration) (fun x e => e.Regular x)
        (TestTrace.start cache locks threshold) events →
      Run.Along (testStep duration) (fun x e => e.Right duration x)
        (TestTrace.start cache locks threshold) events
  := by
  intro h
  have hrun := h 300 1 twoAdministrators (fun _ => none) recreated (by decide)
    ⟨⟨by decide, trivial⟩, ⟨by decide, trivial⟩, ⟨by decide, trivial⟩, ⟨by decide, trivial⟩,
      ⟨by decide, trivial⟩, trivial⟩
  obtain ⟨-, -, -, -, hlast, -⟩ := hrun
  obtain ⟨-, hlocked | henough⟩ := hlast.mp (by decide)
  · exact absurd hlocked (by decide)
  · exact absurd henough.enough (by decide)

end Lockout

end BmcAccount
