import BmcAccount.Account.Types
import BmcAccount.Lib.Run
import BmcAccount.Lib.Table

/-!
# Jumps of the clock

The age of a password is counted from a reading of the clock, so the start times have to move
with the clock when it is set. The monitor of the user times reads the clock every few
seconds; if a reading differs from the one before by more than ten minutes it takes the
difference for a jump and adds it to the start times of all accounts.

The readings of the clock and the start times are integers. The model has a ledger beside the
state of the code, in which the jumps are entered when they happen, so that it can be said
what the start times should be.
-/

namespace BmcAccount

/-! ## The monitor -/

/-- What the monitor sees of an account. -/
structure TimedAccount where
  cls : AccountClass
  passwordValidStartTime : ℤ
deriving DecidableEq

/-- The clock, the local variables of the monitor, and the accounts. -/
structure TimeState where
  clock : ℤ
  firstSync : Bool
  lastTimestamp : ℤ
  accounts : Table ℕ TimedAccount

/-- `BASE_TIMESTAMP`. -/
def baseTimestamp : ℤ := 600

/-- `MIN_SECOND_TO_RESET`. -/
def minSecondToReset : ℕ := 600

namespace TimeState

/-- `update_all_password_valid_start_time`. -/
def updateAllPasswordValidStartTime (timediff : ℤ) (s : TimeState) : TimeState :=
  { s with accounts := s.accounts.map fun _ a =>
    { a with passwordValidStartTime := timediff + a.passwordValidStartTime } }

/-- A round of `user_time_monitor_func`. While the clock is at its default the round is
passed, and the first reading is only remembered. -/
def tick (s : TimeState) : TimeState :=
  if s.clock < baseTimestamp then s
  else if s.firstSync then { s with firstSync := false, lastTimestamp := s.clock }
  else
    let timeDiff := s.clock - s.lastTimestamp
    let s' := if minSecondToReset < timeDiff.natAbs then s.updateAllPasswordValidStartTime timeDiff
      else s
    { s' with lastTimestamp := s.clock }

end TimeState

/-- `set_account_password` of the class changes a password; for the others it does nothing. -/
def AccountClass.changesPassword : AccountClass → Bool
  | .localAccount | .vncAccount | .oemAccount | .snmpCommunity => true
  | _ => false

/-- `set_account_password` of the class ends with `update_password_valid_start_time`. -/
def AccountClass.recordsPasswordTime : AccountClass → Bool
  | .localAccount | .vncAccount => true
  | _ => false

/-- The state after the password of an account is changed. -/
def TimeState.setPassword (id : ℕ) (s : TimeState) : TimeState :=
  { s with accounts := s.accounts.modify id fun a =>
    if a.cls.recordsPasswordTime then { a with passwordValidStartTime := s.clock } else a }

/-- The state after an account is created under an identifier that is free. -/
def TimeState.newAccount (id : ℕ) (cls : AccountClass) (s : TimeState) : TimeState :=
  if (s.accounts.lookup id).isSome then s
  else { s with accounts := s.accounts.insert id ⟨cls, s.clock⟩ }

/-! ## The ledger -/

/-- What is known of the last change of a password: the reading of the clock, by how much the
clock has been set since, and by how much it has been set since the monitor read it last, if
that was later. -/
structure Mark where
  recorded : ℤ
  jumps : ℤ
  moved : ℤ

/-- The state of the code, with the marks of its accounts. -/
structure Timeline where
  state : TimeState
  marks : ℕ → Mark

inductive TimeEvent where
  | pass (seconds : ℕ)
  | jump (seconds : ℤ)
  | setPassword (id : ℕ)
  | newAccount (id : ℕ) (cls : AccountClass)
  | tick
deriving DecidableEq

namespace Timeline

/-- The clock is set. -/
def jump (d : ℤ) (t : Timeline) : Timeline where
  state := { t.state with clock := t.state.clock + d }
  marks id := { t.marks id with jumps := (t.marks id).jumps + d, moved := (t.marks id).moved + d }

/-- The password of the account is changed now. -/
def mark (id : ℕ) (t : Timeline) : ℕ → Mark :=
  Function.update t.marks id ⟨t.state.clock, 0, 0⟩

/-- The password of an account is changed, if there is one. -/
def setPassword (id : ℕ) (t : Timeline) : Timeline where
  state := t.state.setPassword id
  marks := if (t.state.accounts.lookup id).any fun a => a.cls.changesPassword then t.mark id
    else t.marks

def newAccount (id : ℕ) (cls : AccountClass) (t : Timeline) : Timeline where
  state := t.state.newAccount id cls
  marks := if (t.state.accounts.lookup id).isSome then t.marks else t.mark id

/-- A round of the monitor, which reads the clock unless that is at its default. -/
def tick (t : Timeline) : Timeline where
  state := t.state.tick
  marks := if t.state.clock < baseTimestamp then t.marks
    else fun id => { t.marks id with moved := 0 }

def step (t : Timeline) : TimeEvent → Timeline
  | .pass seconds => { t with state := { t.state with clock := t.state.clock + seconds } }
  | .jump seconds => t.jump seconds
  | .setPassword id => t.setPassword id
  | .newAccount id cls => t.newAccount id cls
  | .tick => t.tick

end Timeline

/-- The start time of the account is the instant of the last change of its password in terms of
the present clock: the clock as it was read then, moved by every jump since, and by none
before. It does not lie in the future. -/
structure StartsAtMark (t : Timeline) (id : ℕ) (a : TimedAccount) : Prop where
  instant : a.passwordValidStartTime = (t.marks id).recorded + (t.marks id).jumps
  notLater : a.passwordValidStartTime ≤ t.state.clock

/-- The start times of all accounts are right. -/
def Timeline.Right (t : Timeline) : Prop :=
  ∀ id a, t.state.accounts.lookup id = some a → StartsAtMark t id a

/-! ## Between the rounds -/

/-- Between two rounds the start times are right except for what the clock has been moved. -/
structure Pending (t : Timeline) (id : ℕ) (a : TimedAccount) : Prop where
  instant :
    a.passwordValidStartTime + (t.marks id).moved = (t.marks id).recorded + (t.marks id).jumps
  notLater : (t.marks id).recorded + (t.marks id).jumps ≤ t.state.clock

def Timeline.Kept (t : Timeline) : Prop :=
  ∀ id a, t.state.accounts.lookup id = some a → Pending t id a

/-- What a round adds to the start times. -/
def TimeState.tickShift (s : TimeState) : ℤ :=
  if baseTimestamp ≤ s.clock ∧ s.firstSync = false ∧
      minSecondToReset < (s.clock - s.lastTimestamp).natAbs
    then s.clock - s.lastTimestamp else 0

theorem lookup_updateAllPasswordValidStartTime (timediff : ℤ) (s : TimeState) (id : ℕ) :
  (s.updateAllPasswordValidStartTime timediff).accounts.lookup id
    = (s.accounts.lookup id).map fun a =>
      { a with passwordValidStartTime := timediff + a.passwordValidStartTime }
  := by
  simp [TimeState.updateAllPasswordValidStartTime]

theorem lookup_tick (s : TimeState) (id : ℕ) :
  s.tick.accounts.lookup id = (s.accounts.lookup id).map fun a =>
    { a with passwordValidStartTime := s.tickShift + a.passwordValidStartTime }
  := by
  by_cases h : baseTimestamp ≤ s.clock ∧ s.firstSync = false ∧
      minSecondToReset < (s.clock - s.lastTimestamp).natAbs
  · have hshift : s.tickShift = s.clock - s.lastTimestamp := if_pos h
    have htick : s.tick.accounts
        = (s.updateAllPasswordValidStartTime (s.clock - s.lastTimestamp)).accounts := by
      simp [TimeState.tick, Int.not_lt.mpr h.1, h.2.1, h.2.2]
    rw [hshift, htick]
    exact lookup_updateAllPasswordValidStartTime ..
  · have hshift : s.tickShift = 0 := if_neg h
    have htick : s.tick.accounts = s.accounts := by
      unfold TimeState.tick
      split_ifs with hdefault hfirst
      · rfl
      · rfl
      · have hdiff : ¬ minSecondToReset < (s.clock - s.lastTimestamp).natAbs :=
          fun hdiff => h ⟨Int.not_lt.mp hdefault, eq_false_of_ne_true hfirst, hdiff⟩
        simp only [if_neg hdiff]
    rw [hshift, htick]
    simp

theorem clock_tick (s : TimeState) :
  s.tick.clock = s.clock
  := by
  unfold TimeState.tick TimeState.updateAllPasswordValidStartTime
  split_ifs <;> simp only
  split_ifs <;> rfl

namespace Timeline

variable {t : Timeline}

theorem recorded_tick (t : Timeline) (id : ℕ) :
  (t.tick.marks id).recorded = (t.marks id).recorded
  := by
  unfold tick
  dsimp only
  split_ifs <;> rfl

theorem jumps_tick (t : Timeline) (id : ℕ) :
  (t.tick.marks id).jumps = (t.marks id).jumps
  := by
  unfold tick
  dsimp only
  split_ifs <;> rfl

/-- A round leaves right start times exactly if each account has seen the clock move by what
the round adds. -/
theorem right_tick_iff (ht : t.Kept) :
  t.tick.Right ↔ ∀ id a, t.state.accounts.lookup id = some a →
    (t.marks id).moved = t.state.tickShift
  := by
  constructor
  · intro h id a ha
    have hafter := h id _ ((lookup_tick t.state id).trans (congrArg _ ha))
    have hinstant := hafter.instant
    rw [recorded_tick, jumps_tick] at hinstant
    have hbefore := (ht id a ha).instant
    simp only at hinstant
    omega
  · intro h id a' ha'
    have hlookup := (lookup_tick t.state id).symm.trans ha'
    obtain ⟨a, ha, rfl⟩ := Option.map_eq_some_iff.mp hlookup
    have hmoved := h id a ha
    have hinstant := (ht id a ha).instant
    have hnotLater := (ht id a ha).notLater
    constructor
    · rw [recorded_tick, jumps_tick]
      simp only
      omega
    · change _ ≤ t.state.tick.clock
      rw [clock_tick]
      simp only
      omega

/-- The event leaves the start times right: a round finds that the clock has been moved, since
it was read last or since the password was changed if that was later, by exactly what the
round adds, and a password is changed only where the change is recorded. -/
def Compensates (t : Timeline) : TimeEvent → Prop
  | .tick => ∀ id a, t.state.accounts.lookup id = some a →
      (t.marks id).moved = t.state.tickShift
  | .setPassword id => ∀ a, t.state.accounts.lookup id = some a →
      a.cls.changesPassword = true → a.cls.recordsPasswordTime = true
  | _ => True

theorem kept_pass (ht : t.Kept) (seconds : ℕ) :
  (t.step (.pass seconds)).Kept
  := by
  intro id a ha
  have h := ht id a ha
  have hclock : (t.step (.pass seconds)).state.clock = t.state.clock + seconds := rfl
  constructor
  · exact h.instant
  · rw [hclock]
    have hle : (t.marks id).recorded + (t.marks id).jumps ≤ t.state.clock := h.notLater
    change (t.marks id).recorded + (t.marks id).jumps ≤ _
    omega

theorem kept_jump (ht : t.Kept) (d : ℤ) :
  (t.jump d).Kept
  := by
  intro id a ha
  have h := ht id a ha
  constructor
  · have hinstant := h.instant
    simp only [jump]
    omega
  · have hnotLater := h.notLater
    simp only [jump]
    omega

/-- An account whose start time has just been recorded. -/
theorem pending_mark {t' : Timeline} {id : ℕ} {a : TimedAccount}
    (hmark : t'.marks id = ⟨t'.state.clock, 0, 0⟩)
    (hstart : a.passwordValidStartTime = t'.state.clock) :
  Pending t' id a
  := by
  constructor
  · simp [hmark, hstart]
  · simp [hmark]

theorem kept_setPassword (ht : t.Kept) {id : ℕ} (h : t.Compensates (.setPassword id)) :
  (t.setPassword id).Kept
  := by
  intro i a' ha'
  by_cases hi : i = id
  · subst hi
    have hlookup : ((t.state.accounts.lookup i).map fun a =>
        if a.cls.recordsPasswordTime then { a with passwordValidStartTime := t.state.clock }
        else a) = some a' := by
      rw [← ha']
      simp [setPassword, TimeState.setPassword]
    obtain ⟨a, ha, rfl⟩ := Option.map_eq_some_iff.mp hlookup
    cases hchanges : a.cls.changesPassword with
    | true =>
      rw [if_pos (h a ha hchanges)]
      apply pending_mark
      · simp [setPassword, TimeState.setPassword, mark, ha, hchanges]
      · rfl
    | false =>
      have hrecords : ¬ a.cls.recordsPasswordTime = true := by
        intro hrecords
        cases hcls : a.cls <;> simp [hcls, AccountClass.recordsPasswordTime,
          AccountClass.changesPassword] at hrecords hchanges
      have hmarks : (t.setPassword i).marks i = t.marks i := by
        simp [setPassword, ha, hchanges]
      have hpending := ht i a ha
      rw [if_neg hrecords]
      constructor
      · rw [hmarks]
        exact hpending.instant
      · rw [hmarks]
        exact hpending.notLater
  · have ha : t.state.accounts.lookup i = some a' := by
      rw [← ha']
      simp [setPassword, TimeState.setPassword, Table.lookup_modify_ne hi]
    have hmarks : (t.setPassword id).marks i = t.marks i := by
      simp only [setPassword, mark]
      split_ifs
      · exact Function.update_of_ne hi ..
      · rfl
    have hpending := ht i a' ha
    constructor
    · rw [hmarks]
      exact hpending.instant
    · rw [hmarks]
      exact hpending.notLater

theorem kept_newAccount (ht : t.Kept) (id : ℕ) (cls : AccountClass) :
  (t.newAccount id cls).Kept
  := by
  cases hid : (t.state.accounts.lookup id).isSome with
  | true =>
    have hsame : t.newAccount id cls = t := by
      simp [newAccount, TimeState.newAccount, hid]
    rw [hsame]
    exact ht
  | false =>
    have hstate : (t.newAccount id cls).state
        = { t.state with accounts := t.state.accounts.insert id ⟨cls, t.state.clock⟩ } := by
      simp [newAccount, TimeState.newAccount, hid]
    have hmarks : (t.newAccount id cls).marks = t.mark id := by
      simp [newAccount, hid]
    intro i a ha
    rw [hstate] at ha
    by_cases hi : i = id
    · subst hi
      obtain rfl : ⟨cls, t.state.clock⟩ = a := by simpa using ha
      apply pending_mark
      · rw [hmarks, hstate]
        exact Function.update_self ..
      · rw [hstate]
    · rw [AList.lookup_insert_ne hi] at ha
      have hpending := ht i a ha
      have hmark : (t.newAccount id cls).marks i = t.marks i := by
        rw [hmarks]
        exact Function.update_of_ne hi ..
      constructor
      · rw [hmark]
        exact hpending.instant
      · rw [hmark, hstate]
        exact hpending.notLater

/-- After a round that is right nothing is pending. -/
theorem kept_tick (ht : t.Kept) (h : t.Compensates .tick) :
  t.tick.Kept
  := by
  intro id a' ha'
  have hright := (right_tick_iff ht).mpr h id a' ha'
  have hmoved : (t.tick.marks id).moved = 0 := by
    by_cases hdefault : t.state.clock < baseTimestamp
    · obtain ⟨a, ha, -⟩ := Option.map_eq_some_iff.mp ((lookup_tick t.state id).symm.trans ha')
      have hshift : t.state.tickShift = 0 := if_neg fun h => absurd h.1 (Int.not_le.mpr hdefault)
      simp only [tick, if_pos hdefault]
      rw [h id a ha, hshift]
    · simp [tick, hdefault]
  constructor
  · rw [hmoved, Int.add_zero]
    exact hright.instant
  · rw [← hright.instant]
    exact hright.notLater

theorem kept_step {e : TimeEvent} (ht : t.Kept) (h : t.Compensates e) :
  (t.step e).Kept
  := by
  cases e with
  | pass seconds => exact kept_pass ht seconds
  | jump d => exact kept_jump ht d
  | setPassword id => exact kept_setPassword ht h
  | newAccount id cls => exact kept_newAccount ht id cls
  | tick => exact kept_tick ht h

end Timeline

/-! ## Runs -/

/-- Along every run whose events compensate, the start times are right after each round. -/
theorem run_startTimes_right (t : Timeline) (ht : t.Kept) (events : List TimeEvent)
    (h : Run.Along Timeline.step Timeline.Compensates t events) :
  ∀ before later, events = before ++ .tick :: later →
    ((before ++ [.tick]).foldl Timeline.step t).Right
  := by
  rintro before later rfl
  obtain ⟨hkept, hcompensates⟩ :=
    Run.invariant_before (fun _ _ => Timeline.kept_step) ht h
  rw [List.foldl_append]
  exact (Timeline.right_tick_iff hkept).mpr hcompensates

/-- A system without accounts whose clock has been set. -/
def bootTimeline : Timeline where
  state := ⟨1000000000, true, 0, ∅⟩
  marks _ := ⟨0, 0, 0⟩

theorem kept_bootTimeline :
  bootTimeline.Kept
  := by
  intro id a ha
  cases ha

/-- The clock is set a day ahead, and a password is changed before the monitor has seen it. -/
def changeAfterJump : List TimeEvent :=
  [.newAccount 2 .localAccount, .tick, .jump 86400, .setPassword 2, .tick]

theorem changeAfterJump_not_right :
  ¬ ∀ (t : Timeline) (events : List TimeEvent), t.Kept →
    ∀ before later, events = before ++ .tick :: later →
      ((before ++ [.tick]).foldl Timeline.step t).Right
  := by
  intro h
  have hright := h bootTimeline changeAfterJump kept_bootTimeline
    [.newAccount 2 .localAccount, .tick, .jump 86400, .setPassword 2] [] rfl
    2 ⟨.localAccount, 1000172800⟩ (by decide +kernel)
  have hnotLater := hright.notLater
  revert hnotLater
  decide +kernel

theorem Timeline.compensates_tick {t : Timeline}
    (h : ∀ e ∈ t.state.accounts.entries, (t.marks e.1).moved = t.state.tickShift) :
  t.Compensates .tick
  := fun id a ha => h ⟨id, a⟩ (Table.mem_entries_iff.mpr ha)

/-- A run in which the jump is seen before a password is changed. -/
theorem run_startTimes_right_seen :
  ([.newAccount 2 .localAccount, .pass 3, .tick, .jump 86400, .tick, .setPassword 2, .pass 5,
    .tick].foldl Timeline.step bootTimeline).Right
  := by
  apply run_startTimes_right bootTimeline kept_bootTimeline
    [.newAccount 2 .localAccount, .pass 3, .tick, .jump 86400, .tick, .setPassword 2, .pass 5,
     .tick] _
    [.newAccount 2 .localAccount, .pass 3, .tick, .jump 86400, .tick, .setPassword 2, .pass 5] []
    rfl
  refine ⟨trivial, trivial, ?_, trivial, ?_, ?_, trivial, ?_, trivial⟩
  · exact Timeline.compensates_tick (by decide +kernel)
  · exact Timeline.compensates_tick (by decide +kernel)
  · intro a ha _
    have hcls : ∀ a, ([TimeEvent.newAccount 2 .localAccount, .pass 3, .tick, .jump 86400,
        .tick].foldl Timeline.step bootTimeline).state.accounts.lookup 2 = some a →
        a.cls.recordsPasswordTime = true := by
      decide +kernel
    exact hcls a ha
  · exact Timeline.compensates_tick (by decide +kernel)

end BmcAccount
