import BmcAccount.Lib.Run
import BmcAccount.Lockout.Service

/-!
# Forgotten failures

An account is to be locked once there have been enough failed logins since the last
successful one and since the last lock has expired. The failures that count are carried
along a run as a list of times, the latest one first, and compared with the guard of the
account.

The guard forgets failures in two situations. When a lock has expired and the monitor has
not seen it yet, every login and the monitor itself measure the time from the start of the
old lock, and empty the tally. And failures that are older than the duration of a lock are
dropped even if the interval in which failures are counted together is longer. Along runs
in which no call is made in such a situation the guard is `Synced` with the failures.
-/

namespace BmcAccount

namespace Lockout

open Tally (Holds Ordered recent)

/-! ## The failures that count -/

/-- The failures that count at the time `now`: none if they have led to a lock that has
expired. -/
def expire (cfg : LockConfig) (now : ℕ) (fails : List ℕ) : List ℕ :=
  if cfg.threshold ≤ recent cfg.failInterval fails ∧ fails.headD 0 + cfg.duration < now then []
  else fails

/-- The failures that count after a login. -/
def Outcome.fails (now : ℕ) (fails : List ℕ) : Outcome → List ℕ
  | .refused => fails
  | .failed => now :: fails
  | .accepted => []

/-- There have been enough failures, close enough to the latest one, which is not older than
the duration of a lock. -/
structure MustRefuse (cfg : LockConfig) (fails : List ℕ) (now : ℕ) : Prop where
  enough : cfg.threshold ≤ recent cfg.failInterval fails
  current : now ≤ fails.headD 0 + cfg.duration

theorem expire_of_le {cfg : LockConfig} {now : ℕ} {fails : List ℕ}
    (h : now ≤ fails.headD 0 + cfg.duration) :
  expire cfg now fails = fails
  := if_neg fun h' => absurd h'.2 (Nat.not_lt_of_le h)

/-- A call at the time `now` forgets failures: an expired lock is still in memory and there
have been failures since, or the latest failure is older than the duration of a lock and some
failure is not older than the interval. -/
def Forgets (cfg : LockConfig) (g : Guard) (now : ℕ) : Prop :=
  (g.lockState.state = .userLock ∧ g.lockState.lockStartTime + cfg.duration < now ∧
    ∃ r ∈ g.tally, g.lockState.lockStartTime + cfg.duration < r.timestamp) ∨
  (g.lockState.state = .userUnlock ∧ Tally.latestTime g.tally + cfg.duration < now ∧
    ∃ r ∈ g.tally, now < r.timestamp + cfg.failInterval)

/-! ## Guards in step with the failures -/

/-- The account is not locked in memory. The tally holds the failures `held`; the others,
`stale`, are too old to count with any that is to come. -/
structure Unlocked (cfg : LockConfig) (clock : ℕ) (g : Guard) (held stale : List ℕ) : Prop where
  state : g.lockState.state = .userUnlock
  holds : Holds g.tally held
  ordered : Ordered (held ++ stale)
  past : ∀ t ∈ held ++ stale, t ≤ clock
  old : ∀ t ∈ stale, t + cfg.failInterval ≤ clock ∧ t + cfg.duration < clock
  apart : ∀ t ∈ stale, ∀ t' ∈ held, t + cfg.failInterval ≤ t'

/-- The monitor has seen the lock that the failures have led to. -/
structure Locked (cfg : LockConfig) (g : Guard) (fails : List ℕ) : Prop where
  lock : g.lock = some ⟨.userLock, fails.headD 0⟩
  enough : cfg.threshold ≤ recent cfg.failInterval fails
  read : Tally.readTally g.tally = g.tally
  latest : Tally.latestTime g.tally = fails.headD 0
  failures : cfg.threshold ≤ Tally.failures cfg.failInterval g.tally

/-- The lock that started at `start` has expired and the monitor has not seen that. -/
structure Expired (cfg : LockConfig) (clock : ℕ) (g : Guard) (fails : List ℕ) (start : ℕ) :
    Prop where
  lock : g.lock = some ⟨.userLock, start⟩
  passed : start + cfg.duration < clock
  holds : Holds g.tally fails
  later : ∀ t ∈ fails, start + cfg.duration < t

/-- The guard is in step with the failures that count. -/
def Synced (cfg : LockConfig) (clock : ℕ) (g : Guard) (fails : List ℕ) : Prop :=
  (∃ held stale, fails = held ++ stale ∧ Unlocked cfg clock g held stale) ∨
    Locked cfg g fails ∨ ∃ start, Expired cfg clock g fails start

section Unlocked

variable {cfg : LockConfig} {clock now : ℕ} {g : Guard} {held stale : List ℕ}

/-- A guard with an empty tally is in step with no failures. -/
theorem unlocked_nil (h : g.lockState.state = .userUnlock) :
  Unlocked cfg clock { g with tally := [] } [] []
  where
  state := h
  holds := Tally.holds_nil
  ordered := List.Pairwise.nil
  past := by simp
  old := by simp
  apart := by simp

/-- A failure is counted. -/
theorem Unlocked.increment (h : Unlocked cfg clock g held stale) (hnow : clock ≤ now) :
  Unlocked cfg now { g with tally := Tally.incrementPamTally now g.tally } (now :: held) stale
  where
  state := h.state
  holds := h.holds.increment (h.ordered.sublist (List.sublist_append_left _ _))
  ordered := List.pairwise_cons.mpr ⟨fun t ht => (h.past t ht).trans hnow, h.ordered⟩
  past := by
    intro t ht
    obtain rfl | ht := List.mem_cons.mp ht
    · exact le_refl t
    · exact (h.past t ht).trans hnow
  old := fun t ht => ⟨(h.old t ht).1.trans hnow, (h.old t ht).2.trans_le hnow⟩
  apart := by
    intro t ht t' ht'
    obtain rfl | ht' := List.mem_cons.mp ht'
    · exact (h.old t ht).1.trans hnow
    · exact h.apart t ht t' ht'

theorem Unlocked.later (h : Unlocked cfg clock g held stale) (hnow : clock ≤ now)
    {lock : Option LockState} (hlock : (Guard.mk g.tally lock).lockState.state = .userUnlock) :
  Unlocked cfg now ⟨g.tally, lock⟩ held stale
  where
  state := hlock
  holds := h.holds
  ordered := h.ordered
  past := fun t ht => (h.past t ht).trans hnow
  old := fun t ht => ⟨(h.old t ht).1.trans hnow, (h.old t ht).2.trans_le hnow⟩
  apart := h.apart

/-- Where the tally holds a failure, the stale ones do not count. -/
theorem Unlocked.recent_eq (h : Unlocked cfg clock g held stale) (hne : held ≠ []) :
  recent cfg.failInterval (held ++ stale) = recent cfg.failInterval held
  := by
  obtain ⟨t, l, rfl⟩ := List.exists_cons_of_ne_nil hne
  unfold recent
  rw [List.countP_append]
  have hzero : stale.countP (fun t' => decide ((t :: l ++ stale).headD 0 - t' < cfg.failInterval))
      = 0 := by
    rw [List.countP_eq_zero]
    intro t' ht' hlt
    have hapart := h.apart t' ht' t List.mem_cons_self
    have hlt : t - t' < cfg.failInterval := of_decide_eq_true hlt
    omega
  rw [hzero]
  rfl

/-- Failures that are too old for a lock are all stale once a call has been made. -/
theorem Unlocked.forget (h : Unlocked cfg clock g held stale) (hnow : clock ≤ now)
    (hold : (held ++ stale).headD 0 + cfg.duration < now)
    (hf : ∀ r ∈ g.tally, r.timestamp + cfg.failInterval ≤ now) :
  ∀ t ∈ held ++ stale, t + cfg.failInterval ≤ now ∧ t + cfg.duration < now
  := by
  intro t ht
  constructor
  · obtain ht | ht := List.mem_append.mp ht
    · have hord : Ordered held := h.ordered.sublist (List.sublist_append_left held stale)
      have hle := hord.le_headD ht
      obtain ⟨t₀, l, rfl⟩ := List.exists_cons_of_ne_nil (List.ne_nil_of_mem ht)
      have hmem : (⟨true, t₀⟩ : Tally.Record) ∈ g.tally := by
        rw [h.holds.mem_iff]
        exact List.mem_map_of_mem List.mem_cons_self
      exact (Nat.add_le_add_right hle _).trans (hf _ hmem)
    · exact (h.old t ht).1.trans hnow
  · exact (Nat.add_le_add_right (h.ordered.le_headD ht) _).trans_lt hold

/-- The guard after the lock state has been computed while the account is not locked in
memory. -/
theorem getUserLockState_of_unlocked (hstate : g.lockState.state = .userUnlock) :
  g.getUserLockState cfg now =
    let info := Tally.getUserInfo cfg.duration cfg.failInterval now g.tally
    if now - info.2 ≤ cfg.duration then
      (decide (cfg.threshold ≤ info.1), ⟨g.tally, some ⟨.userUnlock, info.2⟩⟩)
    else (false, ⟨[], some ⟨.userUnlock, info.2⟩⟩)
  := by
  unfold Guard.getUserLockState
  simp only [if_pos hstate]
  rfl

/-- What computing the lock state does to a guard that is not locked in memory: it answers
that the account is locked, or it stays in step. -/
theorem Unlocked.getUserLockState (h : Unlocked cfg clock g held stale) (hT : 1 ≤ cfg.threshold)
    (hmax : cfg.threshold ≤ Tally.maxRecords) (hnow : clock ≤ now) (hf : ¬ Forgets cfg g now) :
  (g.getUserLockState cfg now
        = (true, ⟨g.tally, some ⟨.userUnlock, (held ++ stale).headD 0⟩⟩) ∧
      held ≠ [] ∧ now ≤ (held ++ stale).headD 0 + cfg.duration ∧
      cfg.threshold ≤ Tally.failures cfg.failInterval g.tally) ∨
    (¬ MustRefuse cfg (held ++ stale) now ∧
      (g.getUserLockState cfg now).1 = false ∧
      ∃ held' stale', expire cfg now (held ++ stale) = held' ++ stale' ∧
        Unlocked cfg now (g.getUserLockState cfg now).2 held' stale')
  := by
  have hord := h.ordered.sublist (List.sublist_append_left held stale)
  rw [getUserLockState_of_unlocked h.state]
  by_cases hold : (held ++ stale).headD 0 + cfg.duration < now
  · right
    have hheld : held.headD 0 + cfg.duration < now := by
      cases held with
      | nil =>
        rw [List.headD_nil]
        omega
      | cons t l => exact hold
    have hreset : ¬ now - 0 ≤ cfg.duration := by omega
    simp only [h.holds.getUserInfo_of_lt hord hheld, if_neg hreset]
    refine ⟨fun hmust => absurd hmust.current (Nat.not_le_of_lt hold), trivial, ?_⟩
    unfold expire
    split_ifs
    · exact ⟨[], [], rfl, unlocked_nil (g := ⟨[], _⟩) rfl⟩
    · refine ⟨[], held ++ stale, rfl, ?_⟩
      have hforget := h.forget hnow hold fun r hr => by
        by_contra hlt
        apply hf
        refine Or.inr ⟨h.state, ?_, r, hr, Nat.lt_of_not_le hlt⟩
        rw [h.holds.latestTime_eq hord]
        exact hheld
      exact
        { state := rfl
          holds := Tally.holds_nil
          ordered := h.ordered
          past := fun t ht => (h.past t ht).trans hnow
          old := hforget
          apart := by simp }
  · rw [not_lt] at hold
    rw [expire_of_le hold]
    by_cases hne : held = []
    · right
      subst hne
      have hstale : stale = [] := by
        cases stale with
        | nil => rfl
        | cons t l =>
          have hlt := (h.old t List.mem_cons_self).2
          simp only [List.nil_append, List.headD_cons] at hold
          omega
      subst hstale
      have hdur : now - 0 ≤ cfg.duration := by simpa using hold
      have htally : g.tally = [] := List.perm_nil.mp h.holds
      have hfail : Tally.failures cfg.failInterval g.tally = 0 := by
        rw [htally]
        rfl
      have hnot : ¬ cfg.threshold ≤ 0 := by omega
      simp only [h.holds.getUserInfo_of_le hord hold, List.headD_nil, if_pos hdur, hfail]
      exact ⟨fun hmust => hnot hmust.enough, decide_eq_false hnot, [], [], rfl, h.later hnow rfl⟩
    · have hhead : (held ++ stale).headD 0 = held.headD 0 := by
        obtain ⟨t, l, rfl⟩ := List.exists_cons_of_ne_nil hne
        rfl
      have hsub : now - held.headD 0 ≤ cfg.duration := by omega
      simp only [h.holds.getUserInfo_of_le hord (hhead ▸ hold), if_pos hsub]
      by_cases hcount : cfg.threshold ≤ Tally.failures cfg.failInterval g.tally
      · left
        refine ⟨?_, hne, hold, hcount⟩
        rw [decide_eq_true hcount, hhead]
      · right
        refine ⟨?_, decide_eq_false hcount, held, stale, rfl, h.later hnow rfl⟩
        intro hmust
        apply hcount
        apply h.holds.le_failures hord hmax
        rw [← h.recent_eq hne]
        exact hmust.enough

end Unlocked

section Step

variable {cfg : LockConfig} {clock now : ℕ} {g : Guard} {fails : List ℕ}

/-- A lock that the monitor has seen holds until it has expired; then the tally is emptied. -/
theorem Locked.getUserLockState (h : Locked cfg g fails) :
  g.getUserLockState cfg now =
    if now ≤ fails.headD 0 + cfg.duration then (true, g) else (false, { g with tally := [] })
  := by
  have hstate : g.lockState = ⟨.userLock, fails.headD 0⟩ := by
    unfold Guard.lockState
    rw [h.lock]
    rfl
  unfold Guard.getUserLockState Tally.getUserInfo
  simp only [hstate, reduceCtorEq, if_false, h.read, h.latest]
  by_cases hnow : now ≤ fails.headD 0 + cfg.duration
  · have hsub : now - fails.headD 0 ≤ cfg.duration := by omega
    simp only [if_pos hnow, if_pos hsub, decide_eq_true h.failures]
  · have hsub : ¬ now - fails.headD 0 ≤ cfg.duration := by omega
    simp only [if_neg hnow, if_neg hsub]

/-- An expired lock that is still in memory empties the tally. -/
theorem Expired.getUserLockState {start : ℕ} (h : Expired cfg clock g fails start)
    (hnow : clock ≤ now) :
  g.getUserLockState cfg now = (false, { g with tally := [] })
  := by
  have hstate : g.lockState = ⟨.userLock, start⟩ := by
    unfold Guard.lockState
    rw [h.lock]
    rfl
  have hsub : ¬ now - start ≤ cfg.duration := by
    have := h.passed
    omega
  unfold Guard.getUserLockState
  simp only [hstate, reduceCtorEq, if_false, if_neg hsub]

/-- Where nothing is forgotten, there has been no failure since the lock has expired. -/
theorem Expired.fails_eq_nil {start : ℕ} (h : Expired cfg clock g fails start)
    (hnow : clock ≤ now) (hf : ¬ Forgets cfg g now) :
  fails = []
  := by
  by_contra hne
  obtain ⟨t, l, rfl⟩ := List.exists_cons_of_ne_nil hne
  apply hf
  have hstate : g.lockState = ⟨.userLock, start⟩ := by
    unfold Guard.lockState
    rw [h.lock]
    rfl
  have hmem : (⟨true, t⟩ : Tally.Record) ∈ g.tally := by
    rw [h.holds.mem_iff]
    exact List.mem_map_of_mem List.mem_cons_self
  left
  rw [hstate]
  exact ⟨rfl, h.passed.trans_le hnow, _, hmem, h.later t List.mem_cons_self⟩

theorem expire_of_locked (h : Locked cfg g fails) (hnow : ¬ now ≤ fails.headD 0 + cfg.duration) :
  expire cfg now fails = []
  := if_pos ⟨h.enough, Nat.lt_of_not_le hnow⟩

/-- The lock in memory has expired, and nothing has been counted since. -/
theorem expired_nil {start : ℕ} (hlock : g.lock = some ⟨.userLock, start⟩)
    (hpassed : start + cfg.duration < now) :
  Expired cfg now { g with tally := [] } [] start
  where
  lock := hlock
  passed := hpassed
  holds := Tally.holds_nil
  later := by simp

/-- The first failure after the lock in memory has expired. -/
theorem expired_singleton {start : ℕ} (hlock : g.lock = some ⟨.userLock, start⟩)
    (hpassed : start + cfg.duration < now) :
  Expired cfg now { g with tally := Tally.incrementPamTally now [] } [now] start
  where
  lock := hlock
  passed := hpassed
  holds := Tally.holds_nil.increment List.Pairwise.nil
  later := by simpa using hpassed

theorem authenticate_some {t : AccountType} (h : Guard.resetsTally t = true) (g : Guard) :
  Guard.authenticate now (some t) g = (.accepted, { g with tally := [] })
  := by
  unfold Guard.authenticate
  simp only [h, if_true]

/-- The guard after an expired lock has been met with, whatever the password. -/
theorem synced_authenticate_expired {start : ℕ} (hlock : g.lock = some ⟨.userLock, start⟩)
    (hpassed : start + cfg.duration < now) {answer : Option AccountType}
    (hanswer : ∀ t, answer = some t → Guard.resetsTally t = true) :
  Synced cfg now (Guard.authenticate now answer { g with tally := [] }).2
    (Outcome.fails now [] (Guard.authenticate now answer { g with tally := [] }).1)
  := by
  cases answer with
  | none => exact Or.inr (Or.inr ⟨start, expired_singleton hlock hpassed⟩)
  | some t =>
    rw [authenticate_some (hanswer t rfl)]
    exact Or.inr (Or.inr ⟨start, expired_nil hlock hpassed⟩)

/-- A login that forgets nothing keeps the guard in step with the failures. -/
theorem Synced.localAuthenticate (h : Synced cfg clock g fails) (hT : 1 ≤ cfg.threshold)
    (hmax : cfg.threshold ≤ Tally.maxRecords) (hnow : clock ≤ now) (hf : ¬ Forgets cfg g now)
    {answer : Option AccountType} (hanswer : ∀ t, answer = some t → Guard.resetsTally t = true) :
  Synced cfg now (g.localAuthenticate cfg now answer).2
    ((g.localAuthenticate cfg now answer).1.fails now (expire cfg now fails))
  := by
  unfold Guard.localAuthenticate
  obtain ⟨held, stale, rfl, h⟩ | h | ⟨start, h⟩ := h
  · obtain ⟨heq, -, hle, -⟩ | ⟨-, hfalse, held', stale', hexp, h'⟩ :=
      h.getUserLockState hT hmax hnow hf
    · simp only [heq, if_true, Outcome.fails, expire_of_le hle]
      exact Or.inl ⟨held, stale, rfl, h.later hnow rfl⟩
    · simp only [hfalse, Bool.false_eq_true, if_false, hexp]
      cases answer with
      | none => exact Or.inl ⟨now :: held', stale', rfl, h'.increment le_rfl⟩
      | some t =>
        rw [authenticate_some (hanswer t rfl)]
        exact Or.inl ⟨[], [], rfl, unlocked_nil h'.state⟩
  · rw [h.getUserLockState]
    by_cases hle : now ≤ fails.headD 0 + cfg.duration
    · simp only [if_pos hle, if_true, Outcome.fails, expire_of_le hle]
      exact Or.inr (Or.inl h)
    · simp only [if_neg hle, Bool.false_eq_true, if_false, expire_of_locked h hle]
      exact synced_authenticate_expired h.lock (Nat.lt_of_not_le hle) hanswer
  · obtain rfl := h.fails_eq_nil hnow hf
    have hexp : expire cfg now [] = [] := by
      unfold expire
      split_ifs <;> rfl
    rw [h.getUserLockState hnow, hexp]
    exact synced_authenticate_expired h.lock (h.passed.trans_le hnow) hanswer

/-- A look of the monitor that forgets nothing keeps the guard in step with the failures. -/
theorem Synced.checkUserLockStatus (h : Synced cfg clock g fails) (hT : 1 ≤ cfg.threshold)
    (hmax : cfg.threshold ≤ Tally.maxRecords) (hnow : clock ≤ now) (hf : ¬ Forgets cfg g now) :
  Synced cfg now (g.checkUserLockStatus cfg now) (expire cfg now fails)
  := by
  unfold Guard.checkUserLockStatus
  obtain ⟨held, stale, rfl, h⟩ | h | ⟨start, h⟩ := h
  · have hord : Ordered held := h.ordered.sublist (List.sublist_append_left held stale)
    obtain ⟨heq, hne, hle, hcount⟩ | ⟨-, hfalse, held', stale', hexp, h'⟩ :=
      h.getUserLockState hT hmax hnow hf
    · have hhead : (held ++ stale).headD 0 = held.headD 0 := by
        obtain ⟨t, l, rfl⟩ := List.exists_cons_of_ne_nil hne
        rfl
      rw [heq, expire_of_le hle]
      refine Or.inr (Or.inl ?_)
      exact
        { lock := rfl
          enough := by
            rw [h.recent_eq hne]
            exact hcount.trans (h.holds.failures_le hord)
          read := h.holds.readTally_eq
          latest := by
            rw [hhead]
            exact h.holds.latestTime_eq hord
          failures := hcount }
    · have hunlocked : (g.getUserLockState cfg now).2.lockState.isLocked = false := by
        unfold LockState.isLocked
        rw [h'.state]
        rfl
      rw [hexp]
      left
      refine ⟨held', stale', rfl, ?_⟩
      simp only [hfalse, hunlocked, bne_self_eq_false, Bool.false_eq_true, if_false]
      exact h'
  · rw [h.getUserLockState]
    have hlocked : g.lockState.isLocked = true := by
      unfold LockState.isLocked Guard.lockState
      rw [h.lock]
      rfl
    by_cases hle : now ≤ fails.headD 0 + cfg.duration
    · simp only [if_pos hle, hlocked, bne_self_eq_false, Bool.false_eq_true, if_false,
        expire_of_le hle]
      exact Or.inr (Or.inl h)
    · have hlocked' : (Guard.mk [] g.lock).lockState.isLocked = true := hlocked
      simp only [if_neg hle, hlocked', expire_of_locked h hle]
      exact Or.inl ⟨[], [], rfl, unlocked_nil (g := ⟨[], _⟩) rfl⟩
  · obtain rfl := h.fails_eq_nil hnow hf
    have hexp : expire cfg now [] = [] := by
      unfold expire
      split_ifs <;> rfl
    have hlocked : (Guard.mk [] g.lock).lockState.isLocked = true := by
      unfold LockState.isLocked Guard.lockState
      rw [h.lock]
      rfl
    rw [h.getUserLockState hnow, hexp]
    simp only [hlocked]
    exact Or.inl ⟨[], [], rfl, unlocked_nil (g := ⟨[], _⟩) rfl⟩

/-- A login that is to be refused is refused, where nothing is forgotten. -/
theorem Synced.refused (h : Synced cfg clock g fails) (hT : 1 ≤ cfg.threshold)
    (hmax : cfg.threshold ≤ Tally.maxRecords) (hnow : clock ≤ now) (hf : ¬ Forgets cfg g now)
    (hmust : MustRefuse cfg fails now) (answer : Option AccountType) :
  (g.localAuthenticate cfg now answer).1 = .refused
  := by
  unfold Guard.localAuthenticate
  obtain ⟨held, stale, rfl, h⟩ | h | ⟨start, h⟩ := h
  · obtain ⟨heq, -⟩ | ⟨hnot, -⟩ := h.getUserLockState hT hmax hnow hf
    · simp only [heq, if_true]
    · exact absurd hmust hnot
  · rw [h.getUserLockState, if_pos hmust.current]
    rfl
  · obtain rfl := h.fails_eq_nil hnow hf
    have : ¬ cfg.threshold ≤ 0 := by omega
    exact absurd hmust.enough this

end Step

/-! ## Runs -/

/-- What happens to the service: a login, or a pass of the monitor. -/
inductive Event where
  | login (userName : String) (answer : Option AccountType)
  | monitor

/-- An event and its time. -/
structure TimedEvent where
  now : ℕ
  event : Event

/-- The service, with the failures of an account that count and the time of the last event
that was about the account. -/
structure Traced where
  service : Service
  fails : List ℕ
  clock : ℕ

/-- The service when it has started, with no failures. -/
def Traced.start : Traced := ⟨⟨fun _ => [], fun _ => none⟩, [], 0⟩

section Runs

variable (cache : AccountCache) (cfg : LockConfig) (id : ℕ) (account : Cached)

/-- One event, as it is seen from one account of the cache. -/
def lockoutStep (x : Traced) (e : TimedEvent) : Traced :=
  match e.event with
  | .login userName answer =>
    let r := x.service.localAuthenticate cache cfg e.now userName answer
    if userName = account.userName then
      ⟨r.2, r.1.fails e.now (expire cfg e.now x.fails), e.now⟩
    else ⟨r.2, x.fails, x.clock⟩
  | .monitor =>
    let s := x.service.checkUserLockStatus cache cfg e.now
    if Service.monitored cfg account then ⟨s, expire cfg e.now x.fails, e.now⟩
    else ⟨s, x.fails, x.clock⟩

/-- The event is about the account: a login with its name, or a pass of the monitor over it. -/
def TimedEvent.Concerns (e : TimedEvent) : Prop :=
  match e.event with
  | .login userName _ => userName = account.userName
  | .monitor => Service.monitored cfg account = true

/-- The clock does not go back, a right password resets the tally of the account, and other
users have other tallies. -/
def TimedEvent.Regular (x : Traced) (e : TimedEvent) : Prop :=
  x.clock ≤ e.now ∧
    match e.event with
    | .login userName answer =>
      (userName = account.userName → ∀ t, answer = some t → Guard.resetsTally t = true) ∧
      (userName ≠ account.userName → tallyFile userName ≠ tallyFile account.userName)
    | .monitor => True

/-- The event is regular, and it forgets no failures of the account. -/
def TimedEvent.Careful (x : Traced) (e : TimedEvent) : Prop :=
  e.Regular account x ∧
    (e.Concerns cfg account → ¬ Forgets cfg (x.service.guard id account.userName) e.now)

variable {cache cfg id account}

theorem lockoutStep_synced (hmem : (id, account) ∈ cache.entries) (hT : 1 ≤ cfg.threshold)
    (hmax : cfg.threshold ≤ Tally.maxRecords)
    (hhidden : Service.hidden cfg (some (id, account)) = false) {x : Traced} {e : TimedEvent}
    (h : Synced cfg x.clock (x.service.guard id account.userName) x.fails)
    (he : e.Careful cfg id account x) :
  Synced cfg (lockoutStep cache cfg account x e).clock
    ((lockoutStep cache cfg account x e).service.guard id account.userName)
    (lockoutStep cache cfg account x e).fails
  := by
  have hT' : cfg.threshold ≠ 0 := by omega
  obtain ⟨now, event⟩ := e
  obtain ⟨⟨hnow, hregular⟩, hcareful⟩ := he
  unfold lockoutStep
  cases event with
  | login userName answer =>
    obtain ⟨hanswer, hfile⟩ := hregular
    by_cases hname : userName = account.userName
    · subst hname
      obtain ⟨hout, hguard⟩ :=
        Service.localAuthenticate_eq hmem hT' hhidden now answer x.service
      simp only [if_true, hout, hguard]
      exact h.localAuthenticate hT hmax hnow (hcareful rfl) (hanswer rfl)
    · simp only [if_neg hname]
      rw [Service.guard_localAuthenticate_ne hmem (hfile hname)]
      exact h
  | monitor =>
    by_cases hmon : Service.monitored cfg account = true
    · simp only [hmon, if_true]
      rw [Service.guard_checkUserLockStatus hmem hT', if_pos hmon]
      exact h.checkUserLockStatus hT hmax hnow (hcareful hmon)
    · simp only [if_neg hmon]
      rw [Service.guard_checkUserLockStatus hmem hT', if_neg hmon]
      exact h

/-- An account that is hidden is refused in any case. -/
theorem localAuthenticate_hidden (hmem : (id, account) ∈ cache.entries)
    (hhidden : Service.hidden cfg (some (id, account)) = true) (now : ℕ)
    (answer : Option AccountType) (s : Service) :
  (s.localAuthenticate cache cfg now account.userName answer).1 = .refused
  := by
  unfold Service.localAuthenticate
  rw [getAccountByName_eq hmem, if_pos hhidden]

end Runs

/-- In every state of a run all of whose events are careful, a login that is careful is refused
if there have been enough failures. -/
theorem run_refused (cache : AccountCache) (cfg : LockConfig) (id : ℕ) (account : Cached)
    (hmem : (id, account) ∈ cache.entries) (hT : 1 ≤ cfg.threshold)
    (hmax : cfg.threshold ≤ Tally.maxRecords) (events : List TimedEvent)
    (h : Run.Along (lockoutStep cache cfg account) (fun x e => e.Careful cfg id account x)
      Traced.start events) :
  ∀ x ∈ Run.states (lockoutStep cache cfg account) Traced.start events,
    ∀ now answer, x.clock ≤ now →
      ¬ Forgets cfg (x.service.guard id account.userName) now → MustRefuse cfg x.fails now →
      (x.service.localAuthenticate cache cfg now account.userName answer).1 = .refused
  := by
  intro x hx now answer hnow hf hmust
  cases hhidden : Service.hidden cfg (some (id, account)) with
  | true => exact localAuthenticate_hidden hmem hhidden now answer x.service
  | false =>
    have hstart : Synced cfg Traced.start.clock
        (Traced.start.service.guard id account.userName) Traced.start.fails :=
      Or.inl ⟨[], [], rfl, unlocked_nil (g := ⟨[], none⟩) rfl⟩
    have hsynced := Run.invariant
      (I := fun x => Synced cfg x.clock (x.service.guard id account.userName) x.fails)
      (fun x e h he => lockoutStep_synced hmem hT hmax hhidden h he) hstart h x hx
    have hT' : cfg.threshold ≠ 0 := by omega
    rw [(Service.localAuthenticate_eq hmem hT' hhidden now answer x.service).1]
    exact hsynced.refused hT hmax hnow hf hmust answer

/-! ### Failures after an expired lock -/

/-- One local user. -/
def oneUser : AccountCache := ⟨[(2, ⟨"Administrator", .localUser⟩)], by decide, by decide⟩

/-- Two failures within five minutes lock a user for five minutes. -/
def fiveMinutes : LockConfig := ⟨2, 300, 300, true⟩

/-- The user is locked, which the monitor sees; right after the lock has expired two more
logins fail before the monitor looks again. -/
def staleLock : List TimedEvent :=
  [⟨1000, .login "Administrator" none⟩, ⟨1001, .login "Administrator" none⟩, ⟨1003, .monitor⟩,
   ⟨1302, .login "Administrator" none⟩, ⟨1302, .login "Administrator" none⟩]

/-- A wrong password of the account is regular if the clock does not go back. -/
theorem regular_failed {account : Cached} {x : Traced} {now : ℕ} (h : x.clock ≤ now) :
  TimedEvent.Regular account x ⟨now, .login account.userName none⟩
  := ⟨h, fun _ _ h => (Option.some_ne_none _ h.symm).elim, fun h => absurd rfl h⟩

theorem stale_lock_forgets_failures :
  ¬ ∀ (cache : AccountCache) (cfg : LockConfig) (id : ℕ) (account : Cached)
    (events : List TimedEvent), (id, account) ∈ cache.entries → 1 ≤ cfg.threshold →
    cfg.threshold ≤ Tally.maxRecords → 0 < cfg.failInterval →
    Run.Along (lockoutStep cache cfg account) (fun x e => e.Regular account x)
      Traced.start events →
    ∀ x ∈ Run.states (lockoutStep cache cfg account) Traced.start events,
      ∀ now answer, x.clock ≤ now → MustRefuse cfg x.fails now →
      (x.service.localAuthenticate cache cfg now account.userName answer).1 = .refused
  := by
  intro h
  have halong : Run.Along (lockoutStep oneUser fiveMinutes ⟨"Administrator", .localUser⟩)
      (fun x e => e.Regular ⟨"Administrator", .localUser⟩ x) Traced.start staleLock :=
    ⟨regular_failed (by decide +kernel), regular_failed (by decide +kernel),
      ⟨by decide +kernel, trivial⟩, regular_failed (by decide +kernel),
      regular_failed (by decide +kernel), trivial⟩
  have hlast := h oneUser fiveMinutes 2 ⟨"Administrator", .localUser⟩ staleLock
    (List.mem_singleton.mpr rfl) (by decide) (by decide) (by decide) halong _
    (List.getLast_mem (by simp [staleLock, Run.states])) 1303 (some .localUser) (by decide +kernel)
    ⟨by decide +kernel, by decide +kernel⟩
  revert hlast
  decide +kernel

instance (cfg : LockConfig) (g : Guard) (now : ℕ) : Decidable (Forgets cfg g now) :=
  inferInstanceAs (Decidable (_ ∨ _))

/-- The monitor sees that the lock has expired before the next two failures. -/
def seenExpiry : List TimedEvent :=
  [⟨1000, .login "Administrator" none⟩, ⟨1001, .login "Administrator" none⟩, ⟨1003, .monitor⟩,
   ⟨1303, .monitor⟩, ⟨1304, .login "Administrator" none⟩, ⟨1305, .login "Administrator" none⟩]

/-- The state after them. -/
def lockedAgain : Traced :=
  seenExpiry.foldl (lockoutStep oneUser fiveMinutes ⟨"Administrator", .localUser⟩) Traced.start

/-- The user is locked again, and not even the right password is looked at. -/
theorem run_refused_locked_again :
  (1 ≤ fiveMinutes.threshold ∧ fiveMinutes.threshold ≤ Tally.maxRecords)
    ∧ ¬ Forgets fiveMinutes (lockedAgain.service.guard 2 "Administrator") 1306
    ∧ MustRefuse fiveMinutes lockedAgain.fails 1306
    ∧ (lockedAgain.service.localAuthenticate oneUser fiveMinutes 1306 "Administrator"
      (some .localUser)).1 = .refused
  := by
  have halong : Run.Along (lockoutStep oneUser fiveMinutes ⟨"Administrator", .localUser⟩)
      (fun x e => e.Careful fiveMinutes 2 ⟨"Administrator", .localUser⟩ x) Traced.start
      seenExpiry := by
    refine ⟨⟨regular_failed ?_, fun _ => ?_⟩, ⟨regular_failed ?_, fun _ => ?_⟩,
      ⟨⟨?_, trivial⟩, fun _ => ?_⟩, ⟨⟨?_, trivial⟩, fun _ => ?_⟩,
      ⟨regular_failed ?_, fun _ => ?_⟩, ⟨regular_failed ?_, fun _ => ?_⟩, trivial⟩
    all_goals decide +kernel
  have hforgets : ¬ Forgets fiveMinutes (lockedAgain.service.guard 2 "Administrator") 1306 := by
    decide +kernel
  have hmust : MustRefuse fiveMinutes lockedAgain.fails 1306 :=
    ⟨by decide +kernel, by decide +kernel⟩
  refine ⟨by decide, hforgets, hmust, ?_⟩
  exact run_refused oneUser fiveMinutes 2 ⟨"Administrator", .localUser⟩
    (List.mem_singleton.mpr rfl) (by decide) (by decide) seenExpiry halong lockedAgain
    (Run.foldl_mem_states _ _ _) 1306 (some .localUser) (by decide +kernel) hforgets hmust

end Lockout

end BmcAccount
