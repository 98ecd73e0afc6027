import BmcAccount.Account.Types
import BmcAccount.Lockout.Tally

/-!
# The lockout of users

A login by password is refused without a look at the password while the tally of the user
holds too many recent failures. Besides the tallies there is a state in memory for each
account, which a monitor sets every three seconds; the start of a lock is taken from it once
the monitor has seen the lock.

What is done to an account depends only on its tally and on its state in memory. This pair
is a `Guard`, and the functions of the service are those of guards, applied to the account
that the cache finds.
-/

namespace BmcAccount

namespace Lockout

/-! ## One account -/

/-- The states of an account in memory. -/
inductive UserLocked where
  | userUnlock
  | userLock
deriving DecidableEq

/-- The state that the monitor sets. -/
def UserLocked.ofBool (locked : Bool) : UserLocked := if locked then .userLock else .userUnlock

/-- The entry of an account in `m_account_lock_state`. -/
structure LockState where
  state : UserLocked
  lockStartTime : ℕ

/-- The state is that of a lock. -/
def LockState.isLocked (l : LockState) : Bool := l.state = .userLock

/-- What the lock of an account is decided from: its tally, and its entry in memory. -/
structure Guard where
  tally : List Tally.Record
  lock : Option LockState

/-- The configuration: `account_lockout_threshold`, `account_lockout_duration`,
`account_lockout_reset_time`, and whether the policy of the inter-chassis account shows it. -/
structure LockConfig where
  threshold : ℕ
  duration : ℕ
  failInterval : ℕ
  interChassisVisible : Bool

/-- How an attempt to log in ends: refused without a look at the password, or by a password
that is wrong or right. -/
inductive Outcome where
  | refused
  | failed
  | accepted
deriving DecidableEq

namespace Guard

/-- `get_account_lock_state`. -/
def lockState (g : Guard) : LockState := g.lock.getD ⟨.userUnlock, 0⟩

/-- `get_user_lock_state`, for an account of the cache and a threshold that is not zero. -/
def getUserLockState (cfg : LockConfig) (now : ℕ) (g : Guard) : Bool × Guard :=
  let info := Tally.getUserInfo cfg.duration cfg.failInterval now g.tally
  let g := if g.lockState.state = .userUnlock then { g with lock := some ⟨.userUnlock, info.2⟩ }
    else g
  if now - g.lockState.lockStartTime ≤ cfg.duration then (decide (cfg.threshold ≤ info.1), g)
  else (false, { g with tally := [] })

/-- `check_user_lock_status`, for one account. -/
def checkUserLockStatus (cfg : LockConfig) (now : ℕ) (g : Guard) : Guard :=
  let (locked, g) := g.getUserLockState cfg now
  if locked != g.lockState.isLocked then
    { g with lock := some ⟨.ofBool locked, g.lockState.lockStartTime⟩ }
  else g

/-- The account types whose tally a right password resets. -/
def resetsTally : AccountType → Bool
  | .localUser | .oem | .interChassis => true
  | _ => false

/-- What `local_authenticate` does after the check of the lock; the account service answers
with the type of the account, or not at all. -/
def authenticate (now : ℕ) (answer : Option AccountType) (g : Guard) : Outcome × Guard :=
  match answer with
  | none => (.failed, { g with tally := Tally.incrementPamTally now g.tally })
  | some t => (.accepted, if resetsTally t then { g with tally := [] } else g)

/-- `local_authenticate`, where the policy does not hide the account. -/
def localAuthenticate (cfg : LockConfig) (now : ℕ) (answer : Option AccountType) (g : Guard) :
    Outcome × Guard :=
  let (locked, g) := g.getUserLockState cfg now
  if locked then (.refused, g) else g.authenticate now answer

end Guard

/-! ## The service -/

/-- What the cache holds of an account. -/
structure Cached where
  userName : String
  accountType : AccountType

/-- The name of the file in which the failures of a user are kept. -/
def tallyFile (userName : String) : String := if userName = "root" then "<root>" else userName

/-- The account cache: no identifier is used twice, and no two accounts share a tally. -/
structure AccountCache where
  entries : List (ℕ × Cached)
  ids_nodup : (entries.map Prod.fst).Nodup
  files_nodup : (entries.map fun e => tallyFile e.2.userName).Nodup

/-- `get_account_by_name`. -/
def AccountCache.getAccountByName (cache : AccountCache) (userName : String) :
    Option (ℕ × Cached) :=
  cache.entries.find? fun e => e.2.userName = userName

/-- The tallies of all users, and the states in memory of all accounts. -/
structure Service where
  tallies : String → List Tally.Record
  locks : ℕ → Option LockState

namespace Service

/-- The guard of an account. -/
def guard (s : Service) (id : ℕ) (userName : String) : Guard :=
  ⟨s.tallies (tallyFile userName), s.locks id⟩

/-- The service with the guard of an account replaced. -/
def setGuard (id : ℕ) (userName : String) (g : Guard) (s : Service) : Service where
  tallies := Function.update s.tallies (tallyFile userName) g.tally
  locks := Function.update s.locks id g.lock

/-- `get_user_lock_state`. -/
def getUserLockState (cache : AccountCache) (cfg : LockConfig) (now : ℕ) (userName : String)
    (s : Service) : Bool × Service :=
  match cache.getAccountByName userName with
  | none => (false, s)
  | some (id, _) =>
    if cfg.threshold = 0 then (false, s)
    else
      let (locked, g) := (s.guard id userName).getUserLockState cfg now
      (locked, s.setGuard id userName g)

/-- The accounts that `check_user_lock_status` looks at. -/
def monitored (cfg : LockConfig) (account : Cached) : Bool :=
  account.accountType = .localUser || account.accountType = .vnc
    || (account.accountType = .interChassis && cfg.interChassisVisible)

/-- The step of `check_user_lock_status` for one account of the cache. -/
def visitAccount (cache : AccountCache) (cfg : LockConfig) (now : ℕ) (s : Service)
    (e : ℕ × Cached) : Service :=
  if monitored cfg e.2 then
    let (locked, s) := s.getUserLockState cache cfg now e.2.userName
    let l := (s.locks e.1).getD ⟨.userUnlock, 0⟩
    if locked != l.isLocked then
      { s with
        locks := Function.update s.locks e.1 (some ⟨.ofBool locked, l.lockStartTime⟩) }
    else s
  else s

/-- `check_user_lock_status`. -/
def checkUserLockStatus (cache : AccountCache) (cfg : LockConfig) (now : ℕ) (s : Service) :
    Service :=
  cache.entries.foldl (visitAccount cache cfg now) s

/-- The policy hides the account. -/
def hidden (cfg : LockConfig) (account : Option (ℕ × Cached)) : Bool :=
  account.any fun e => e.2.accountType = .interChassis && !cfg.interChassisVisible

/-- The service with the failure of a user counted. -/
def incrementPamTally (now : ℕ) (userName : String) (s : Service) : Service :=
  { s with
    tallies := Function.update s.tallies (tallyFile userName)
      (Tally.incrementPamTally now (s.tallies (tallyFile userName))) }

/-- The service with the tally of a user empty. -/
def resetPamTally (userName : String) (s : Service) : Service :=
  { s with tallies := Function.update s.tallies (tallyFile userName) [] }

/-- `local_authenticate`; the account service answers with the type of the account if the
password is right. -/
def localAuthenticate (cache : AccountCache) (cfg : LockConfig) (now : ℕ) (userName : String)
    (answer : Option AccountType) (s : Service) : Outcome × Service :=
  if hidden cfg (cache.getAccountByName userName) then (.refused, s)
  else
    let (locked, s) := s.getUserLockState cache cfg now userName
    if locked then (.refused, s)
    else match answer with
      | none => (.failed, s.incrementPamTally now userName)
      | some t => (.accepted, if Guard.resetsTally t then s.resetPamTally userName else s)

end Service

/-! ## The guard of one account -/

section Guards

variable {cache : AccountCache} {cfg : LockConfig} {id : ℕ} {account : Cached}

/-- Two accounts of the cache with the same tally are the same. -/
theorem eq_of_tallyFile_eq {e e' : ℕ × Cached} (he : e ∈ cache.entries) (he' : e' ∈ cache.entries)
    (h : tallyFile e.2.userName = tallyFile e'.2.userName) :
  e = e'
  := List.inj_on_of_nodup_map cache.files_nodup he he' h

theorem eq_of_id_eq {e e' : ℕ × Cached} (he : e ∈ cache.entries) (he' : e' ∈ cache.entries)
    (h : e.1 = e'.1) :
  e = e'
  := List.inj_on_of_nodup_map cache.ids_nodup he he' h

/-- An account of the cache is found by its name. -/
theorem getAccountByName_eq (h : (id, account) ∈ cache.entries) :
  cache.getAccountByName account.userName = some (id, account)
  := by
  unfold AccountCache.getAccountByName
  have hsome : (cache.entries.find? fun e => e.2.userName = account.userName).isSome = true := by
    rw [List.find?_isSome]
    exact ⟨_, h, decide_eq_true rfl⟩
  obtain ⟨e, he⟩ := Option.isSome_iff_exists.mp hsome
  have hname : e.2.userName = account.userName := by
    have := List.find?_some he
    simpa using this
  rw [he, eq_of_tallyFile_eq (List.mem_of_find?_eq_some he) h (by rw [hname])]

theorem mem_of_getAccountByName {userName : String} {e : ℕ × Cached}
    (h : cache.getAccountByName userName = some e) :
  e ∈ cache.entries ∧ e.2.userName = userName
  := by
  refine ⟨List.mem_of_find?_eq_some h, ?_⟩
  have := List.find?_some h
  simpa using this

namespace Service

@[simp]
theorem guard_setGuard (s : Service) (id : ℕ) (userName : String) (g : Guard) :
  (s.setGuard id userName g).guard id userName = g
  := by
  simp [guard, setGuard]

theorem guard_setGuard_ne {s : Service} {id' : ℕ} {userName userName' : String} {g : Guard}
    (hid : id ≠ id') (hfile : tallyFile userName ≠ tallyFile userName') :
  (s.setGuard id' userName' g).guard id userName = s.guard id userName
  := by
  simp [guard, setGuard, Function.update_of_ne hid, Function.update_of_ne hfile]

theorem getUserLockState_eq (h : (id, account) ∈ cache.entries) (hT : cfg.threshold ≠ 0) (now : ℕ)
    (s : Service) :
  s.getUserLockState cache cfg now account.userName =
    (((s.guard id account.userName).getUserLockState cfg now).1,
      s.setGuard id account.userName ((s.guard id account.userName).getUserLockState cfg now).2)
  := by
  unfold getUserLockState
  rw [getAccountByName_eq h]
  simp only [if_neg hT]

variable (cfg) in
/-- The lock state of a user whose tally is another one leaves the guard as it is. -/
theorem guard_getUserLockState_ne (h : (id, account) ∈ cache.entries) {userName : String}
    (hfile : tallyFile userName ≠ tallyFile account.userName) (now : ℕ) (s : Service) :
  (s.getUserLockState cache cfg now userName).2.guard id account.userName
    = s.guard id account.userName
  := by
  unfold getUserLockState
  cases he : cache.getAccountByName userName with
  | none => rfl
  | some e =>
    obtain ⟨hmem, rfl⟩ := mem_of_getAccountByName he
    simp only
    split_ifs
    · rfl
    · apply guard_setGuard_ne _ hfile.symm
      intro hid
      apply hfile
      rw [eq_of_id_eq hmem h hid.symm]

/-- A login of the account acts on its guard. -/
theorem localAuthenticate_eq (h : (id, account) ∈ cache.entries) (hT : cfg.threshold ≠ 0)
    (hhidden : hidden cfg (some (id, account)) = false) (now : ℕ) (answer : Option AccountType)
    (s : Service) :
  (s.localAuthenticate cache cfg now account.userName answer).1
      = ((s.guard id account.userName).localAuthenticate cfg now answer).1 ∧
    (s.localAuthenticate cache cfg now account.userName answer).2.guard id account.userName
      = ((s.guard id account.userName).localAuthenticate cfg now answer).2
  := by
  unfold localAuthenticate Guard.localAuthenticate
  rw [getAccountByName_eq h, hhidden, getUserLockState_eq h hT]
  simp only [Bool.false_eq_true, if_false]
  split_ifs
  · exact ⟨rfl, guard_setGuard ..⟩
  · cases answer with
    | none =>
      refine ⟨rfl, ?_⟩
      simp [guard, setGuard, incrementPamTally, Guard.authenticate]
    | some t =>
      refine ⟨rfl, ?_⟩
      cases hreset : Guard.resetsTally t <;>
        simp [guard, setGuard, resetPamTally, Guard.authenticate, hreset]

/-- A login of a user whose tally is another one leaves the guard as it is. -/
theorem guard_localAuthenticate_ne (h : (id, account) ∈ cache.entries) {userName : String}
    (hfile : tallyFile userName ≠ tallyFile account.userName) (now : ℕ)
    (answer : Option AccountType) (s : Service) :
  (s.localAuthenticate cache cfg now userName answer).2.guard id account.userName
    = s.guard id account.userName
  := by
  have hlock := guard_getUserLockState_ne cfg h hfile now s
  unfold localAuthenticate
  split_ifs
  · rfl
  · simp only
    split_ifs
    · exact hlock
    · rw [← hlock]
      cases answer with
      | none => simp [guard, incrementPamTally, Function.update_of_ne hfile.symm]
      | some t =>
        cases hreset : Guard.resetsTally t <;>
          simp [guard, resetPamTally, hreset, Function.update_of_ne hfile.symm]

theorem guard_visitAccount_ne (h : (id, account) ∈ cache.entries) {e : ℕ × Cached}
    (he : e ∈ cache.entries) (hne : e ≠ (id, account)) (now : ℕ) (s : Service) :
  (s.visitAccount cache cfg now e).guard id account.userName = s.guard id account.userName
  := by
  have hfile : tallyFile e.2.userName ≠ tallyFile account.userName :=
    fun heq => hne (eq_of_tallyFile_eq he h heq)
  have hid : id ≠ e.1 := fun heq => hne (eq_of_id_eq he h heq.symm)
  have hlock := guard_getUserLockState_ne cfg h hfile now s
  unfold visitAccount
  split_ifs
  · simp only
    split_ifs
    · rw [← hlock]
      simp [guard, Function.update_of_ne hid]
    · exact hlock
  · rfl

/-- The monitor acts on the guard of an account that it looks at. -/
theorem guard_visitAccount (h : (id, account) ∈ cache.entries) (hT : cfg.threshold ≠ 0)
    (hmon : monitored cfg account = true) (now : ℕ) (s : Service) :
  (s.visitAccount cache cfg now (id, account)).guard id account.userName
    = (s.guard id account.userName).checkUserLockStatus cfg now
  := by
  unfold visitAccount Guard.checkUserLockStatus
  simp only [hmon, if_true]
  rw [getUserLockState_eq h hT]
  rcases (s.guard id account.userName).getUserLockState cfg now with ⟨locked, g⟩
  simp only [setGuard, Function.update_self, Guard.lockState]
  split_ifs with hchange
  · simp_all [guard]
  · simp_all [guard]

variable (cfg) in
theorem guard_foldl_visitAccount_ne (h : (id, account) ∈ cache.entries) {l : List (ℕ × Cached)}
    (hl : ∀ e ∈ l, e ∈ cache.entries ∧ e ≠ (id, account)) (now : ℕ) (s : Service) :
  (l.foldl (visitAccount cache cfg now) s).guard id account.userName = s.guard id account.userName
  := by
  induction l generalizing s with
  | nil => rfl
  | cons e l ih =>
    obtain ⟨he, hne⟩ := hl e List.mem_cons_self
    rw [List.foldl_cons, ih (fun e' he' => hl e' (List.mem_cons_of_mem e he')),
      guard_visitAccount_ne h he hne]

/-- A pass of the monitor acts once on the guard of an account that it looks at, and not at
all on the guards of the others. -/
theorem guard_checkUserLockStatus (h : (id, account) ∈ cache.entries) (hT : cfg.threshold ≠ 0)
    (now : ℕ) (s : Service) :
  (s.checkUserLockStatus cache cfg now).guard id account.userName =
    if monitored cfg account then (s.guard id account.userName).checkUserLockStatus cfg now
    else s.guard id account.userName
  := by
  obtain ⟨pre, post, happ⟩ := List.append_of_mem h
  have hnodup : cache.entries.Nodup := List.Nodup.of_map _ cache.ids_nodup
  rw [happ, List.nodup_middle, List.nodup_cons] at hnodup
  have hother : ∀ e ∈ pre ++ post, e ∈ cache.entries ∧ e ≠ (id, account) := by
    intro e he
    constructor
    · rw [happ]
      exact List.mem_append.mpr ((List.mem_append.mp he).imp_right (List.mem_cons_of_mem _))
    · rintro rfl
      exact hnodup.1 he
  unfold checkUserLockStatus
  rw [happ, List.foldl_append, List.foldl_cons,
    guard_foldl_visitAccount_ne cfg h fun e he => hother e (List.mem_append_right _ he)]
  have hpre := guard_foldl_visitAccount_ne cfg h
    (fun e he => hother e (List.mem_append_left _ he)) now s
  split_ifs with hmon
  · rw [guard_visitAccount h hT hmon, hpre]
  · rw [show ∀ s : Service, visitAccount cache cfg now s (id, account) = s from
      fun _ => if_neg hmon, hpre]

end Service

end Guards

end Lockout

end BmcAccount
