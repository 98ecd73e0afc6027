import BmcAccount.Lib.Raise
import BmcAccount.Lib.Run

/-!
# The settings of the lockout

The threshold, the duration and the reset time of the lockout, and the greatest threshold and
duration that may be set, are columns of the table `Authentication`. Each has a setter of its
own, which refuses a value out of range. The first three are also written into the two files
of the PAM module `pam_faillock`, one after the other, and into the table when both files are
there.

The settings are `Valid` when every column is in its range and both files say what the table
says. A run of setters keeps them so exactly when no setter writes a new value into the first
file only, and no duration shorter than the reset time is stored.
-/

namespace BmcAccount

namespace Lockout

open Raise

/-! ## The table and the files -/

/-- The columns of `Authentication` that belong to the lockout. -/
structure AuthConfig where
  accountLockoutDuration : ℤ
  maxAccountLockoutDuration : ℤ
  accountLockoutThreshold : ℤ
  maxAccountLockoutThreshold : ℤ
  accountLockoutCounterResetAfter : ℤ
deriving DecidableEq

/-- The lines that are written for `pam_faillock`: two into `PAM_FAILLOCK`, and the one of
`preauth` into `PAM_FAILLOCK_PRE`. -/
inductive FaillockAction where
  | authfail
  | authsucc
  | preauth
deriving DecidableEq

/-- A line of `pam_faillock`, with the numbers that it is formatted from. -/
structure FaillockRule where
  action : FaillockAction
  deny : ℤ
  failInterval : ℤ
  unlockTime : ℤ
  rootUnlockTime : ℤ
deriving DecidableEq

/-- What a file holds, if it is there. -/
abbrev FaillockFile := Option (List FaillockRule)

/-- The properties that an error names. -/
inductive LockoutProperty where
  | accountLockoutDuration
  | maxAccountLockoutDuration
  | accountLockoutThreshold
  | maxAccountLockoutThreshold
  | accountLockoutCounterResetAfter
deriving DecidableEq

/-- The errors of the setters. -/
inductive SettingError where
  | propertyValueOutOfRange (value : ℤ) (name : LockoutProperty)
  | internalError
deriving DecidableEq

/-- What a change of the threshold calls: the two ways to clean the records of failures, and
the signal. -/
inductive ThresholdEvent where
  | cleanAllUserLockState
  | cleanUnlockUserLockState
  | lockThresholdChanged
deriving DecidableEq

/-- The table, the two files, and the calls made so far. -/
structure Settings where
  config : AuthConfig
  pamFaillock : FaillockFile
  pamFaillockPre : FaillockFile
  events : List ThresholdEvent
deriving DecidableEq

/-- A program over the settings. -/
abbrev SettingM (α : Type) : Type := Prog SettingError Settings α

/-! ## Writing the files -/

/-- How the calls end that write one file: the temporary file is opened for writing and then
for reading, and it is moved to the place of the file. -/
structure FlashCalls where
  tmpWritten : Bool
  tmpRead : Bool
  moved : Bool

/-- A file is written. A file that has the content already is left alone. -/
def FlashCalls.succeeds (o : FlashCalls) (file : FaillockFile) (content : List FaillockRule) :
    Bool :=
  o.tmpWritten && o.tmpRead && (file = some content || o.moved)

/-- How the calls end for the two files. -/
structure PamCalls where
  faillock : FlashCalls
  faillockPre : FlashCalls

/-- The line for an action. -/
def AuthConfig.rule (c : AuthConfig) (action : FaillockAction) : FaillockRule where
  action := action
  deny := c.accountLockoutThreshold
  failInterval := c.accountLockoutCounterResetAfter
  unlockTime := c.accountLockoutDuration
  rootUnlockTime := c.accountLockoutDuration

/-- The content of `PAM_FAILLOCK`. -/
def AuthConfig.faillock (c : AuthConfig) : List FaillockRule :=
  [c.rule .authfail, c.rule .authsucc]

/-- The content of `PAM_FAILLOCK_PRE`. -/
def AuthConfig.faillockPre (c : AuthConfig) : List FaillockRule :=
  [c.rule .preauth]

/-- The columns with the values that are given. -/
def AuthConfig.over (c : AuthConfig) (duration threshold resetTime : Option ℤ) : AuthConfig :=
  { c with
    accountLockoutDuration := duration.getD c.accountLockoutDuration
    accountLockoutThreshold := threshold.getD c.accountLockoutThreshold
    accountLockoutCounterResetAfter := resetTime.getD c.accountLockoutCounterResetAfter }

/-- `write_flash_with_content` for `PAM_FAILLOCK`. -/
def writeFaillock (o : FlashCalls) (content : List FaillockRule) : SettingM Unit := do
  let s ← get
  refuse (!o.succeeds s.pamFaillock content) .internalError
  modify fun s => { s with pamFaillock := some content }

/-- `write_flash_with_content` for `PAM_FAILLOCK_PRE`. -/
def writeFaillockPre (o : FlashCalls) (content : List FaillockRule) : SettingM Unit := do
  let s ← get
  refuse (!o.succeeds s.pamFaillockPre content) .internalError
  modify fun s => { s with pamFaillockPre := some content }

/-- `update_pam_faillock`: whatever goes wrong is an internal error. -/
def updatePamFaillock (o : PamCalls) (duration threshold resetTime : Option ℤ) :
    SettingM Unit :=
  protect (do
    let s ← get
    let c := s.config.over duration threshold resetTime
    writeFaillock o.faillock c.faillock
    writeFaillockPre o.faillockPre c.faillockPre) fun _ => throw .internalError

/-! ## The setters -/

/-- A column is changed and saved. -/
def modifyConfig (f : AuthConfig → AuthConfig) : SettingM Unit :=
  modify fun s => { s with config := f s.config }

/-- A call is made. -/
def emit (e : ThresholdEvent) : SettingM Unit :=
  modify fun s => { s with events := s.events ++ [e] }

/-- The values that `set_account_lockout_threshold` takes. -/
def AuthConfig.ThresholdAllowed (c : AuthConfig) (threshold : ℤ) : Prop :=
  ¬ (threshold > c.maxAccountLockoutThreshold ∨ threshold < 0)

/-- The values that `set_max_account_lockout_threshold` takes. -/
def AuthConfig.MaxThresholdAllowed (c : AuthConfig) (threshold : ℤ) : Prop :=
  ¬ (threshold < 6 ∨ threshold < c.accountLockoutThreshold ∨ threshold > 255)

/-- The values that `set_account_lockout_duration` takes. -/
def AuthConfig.DurationAllowed (c : AuthConfig) (duration : ℤ) : Prop :=
  ¬ (duration > c.maxAccountLockoutDuration ∨ duration < 60 ∨ duration % 60 ≠ 0)

/-- The values that `set_max_account_lockout_duration` takes. -/
def AuthConfig.MaxDurationAllowed (c : AuthConfig) (duration : ℤ) : Prop :=
  ¬ (duration < c.accountLockoutDuration ∨ duration < 1800 ∨ duration > 86400
    ∨ duration % 60 ≠ 0)

/-- The values that `set_account_lockout_reset_time` takes. -/
def AuthConfig.ResetTimeAllowed (c : AuthConfig) (resetTime : ℤ) : Prop :=
  ¬ (resetTime > 1800 ∨ resetTime < 0 ∨ resetTime > c.accountLockoutDuration)

instance (c : AuthConfig) (n : ℤ) : Decidable (c.ThresholdAllowed n) :=
  inferInstanceAs (Decidable (¬ _))

instance (c : AuthConfig) (n : ℤ) : Decidable (c.MaxThresholdAllowed n) :=
  inferInstanceAs (Decidable (¬ _))

instance (c : AuthConfig) (n : ℤ) : Decidable (c.DurationAllowed n) :=
  inferInstanceAs (Decidable (¬ _))

instance (c : AuthConfig) (n : ℤ) : Decidable (c.MaxDurationAllowed n) :=
  inferInstanceAs (Decidable (¬ _))

instance (c : AuthConfig) (n : ℤ) : Decidable (c.ResetTimeAllowed n) :=
  inferInstanceAs (Decidable (¬ _))

/-- What `set_account_lockout_threshold` cleans before it writes. -/
def cleanLockState (old threshold : ℤ) : SettingM Unit :=
  if old = 0 ∨ threshold = 0 then do
    emit .cleanAllUserLockState
    emit .lockThresholdChanged
  else if old ≠ threshold then do
    emit .cleanUnlockUserLockState
    emit .lockThresholdChanged
  else
    pure ()

/-- `set_account_lockout_threshold`. -/
def setAccountLockoutThreshold (o : PamCalls) (threshold : ℤ) : SettingM Unit := do
  let s ← get
  refuse (!s.config.ThresholdAllowed threshold)
    (.propertyValueOutOfRange threshold .accountLockoutThreshold)
  cleanLockState s.config.accountLockoutThreshold threshold
  updatePamFaillock o none (some threshold) none
  modifyConfig fun c => { c with accountLockoutThreshold := threshold }

/-- `set_max_account_lockout_threshold`. -/
def setMaxAccountLockoutThreshold (threshold : ℤ) : SettingM Unit := do
  let s ← get
  refuse (!s.config.MaxThresholdAllowed threshold)
    (.propertyValueOutOfRange threshold .maxAccountLockoutThreshold)
  modifyConfig fun c => { c with maxAccountLockoutThreshold := threshold }

/-- `set_account_lockout_duration`. -/
def setAccountLockoutDuration (o : PamCalls) (duration : ℤ) : SettingM Unit := do
  let s ← get
  refuse (!s.config.DurationAllowed duration)
    (.propertyValueOutOfRange duration .accountLockoutDuration)
  updatePamFaillock o (some duration) none none
  modifyConfig fun c => { c with accountLockoutDuration := duration }

/-- `set_max_account_lockout_duration`. -/
def setMaxAccountLockoutDuration (duration : ℤ) : SettingM Unit := do
  let s ← get
  refuse (!s.config.MaxDurationAllowed duration)
    (.propertyValueOutOfRange duration .maxAccountLockoutDuration)
  modifyConfig fun c => { c with maxAccountLockoutDuration := duration }

/-- `set_account_lockout_reset_time`. -/
def setAccountLockoutResetTime (o : PamCalls) (resetTime : ℤ) : SettingM Unit := do
  let s ← get
  refuse (!s.config.ResetTimeAllowed resetTime)
    (.propertyValueOutOfRange resetTime .accountLockoutCounterResetAfter)
  updatePamFaillock o none none (some resetTime)
  modifyConfig fun c => { c with accountLockoutCounterResetAfter := resetTime }

/-- A call of one of the setters. -/
inductive SettingOp where
  | setAccountLockoutThreshold (o : PamCalls) (threshold : ℤ)
  | setMaxAccountLockoutThreshold (threshold : ℤ)
  | setAccountLockoutDuration (o : PamCalls) (duration : ℤ)
  | setMaxAccountLockoutDuration (duration : ℤ)
  | setAccountLockoutResetTime (o : PamCalls) (resetTime : ℤ)

/-- The setter that is called. -/
def SettingOp.run : SettingOp → SettingM Unit
  | .setAccountLockoutThreshold o n => Lockout.setAccountLockoutThreshold o n
  | .setMaxAccountLockoutThreshold n => Lockout.setMaxAccountLockoutThreshold n
  | .setAccountLockoutDuration o n => Lockout.setAccountLockoutDuration o n
  | .setMaxAccountLockoutDuration n => Lockout.setMaxAccountLockoutDuration n
  | .setAccountLockoutResetTime o n => Lockout.setAccountLockoutResetTime o n

/-- The settings after a call, whether it is accepted or refused. -/
def Settings.step (s : Settings) (op : SettingOp) : Settings := after op.run s

/-! ## What a setter leaves -/

/-- Both files are written. -/
def PamCalls.Done (o : PamCalls) (s : Settings) (c : AuthConfig) : Prop :=
  o.faillock.succeeds s.pamFaillock c.faillock
    ∧ o.faillockPre.succeeds s.pamFaillockPre c.faillockPre

/-- The first file is written and the second one is not. -/
def PamCalls.Torn (o : PamCalls) (s : Settings) (c : AuthConfig) : Prop :=
  o.faillock.succeeds s.pamFaillock c.faillock
    ∧ ¬ o.faillockPre.succeeds s.pamFaillockPre c.faillockPre

instance (o : PamCalls) (s : Settings) (c : AuthConfig) : Decidable (o.Done s c) :=
  inferInstanceAs (Decidable (_ ∧ _))

instance (o : PamCalls) (s : Settings) (c : AuthConfig) : Decidable (o.Torn s c) :=
  inferInstanceAs (Decidable (_ ∧ _))

/-- The settings with the columns `c`, and with what was written of them. -/
def Settings.written (s : Settings) (o : PamCalls) (c : AuthConfig) : Settings :=
  if o.Done s c then
    { s with config := c, pamFaillock := some c.faillock, pamFaillockPre := some c.faillockPre }
  else if o.Torn s c then
    { s with pamFaillock := some c.faillock }
  else s

theorem exec_writeFaillock (o : FlashCalls) (content : List FaillockRule) (s : Settings) :
  exec (writeFaillock o content) s =
    if o.succeeds s.pamFaillock content then (.ok (), { s with pamFaillock := some content })
    else (.error .internalError, s)
  := by
  unfold writeFaillock
  rw [exec_bind_ok (exec_get s), exec_bind, exec_refuse]
  cases o.succeeds s.pamFaillock content <;> rfl

theorem exec_writeFaillockPre (o : FlashCalls) (content : List FaillockRule) (s : Settings) :
  exec (writeFaillockPre o content) s =
    if o.succeeds s.pamFaillockPre content then
      (.ok (), { s with pamFaillockPre := some content })
    else (.error .internalError, s)
  := by
  unfold writeFaillockPre
  rw [exec_bind_ok (exec_get s), exec_bind, exec_refuse]
  cases o.succeeds s.pamFaillockPre content <;> rfl

/-- The columns are changed where both files are written, and nothing else is. -/
theorem after_update_modify {f : AuthConfig → AuthConfig} {o : PamCalls} {s : Settings}
    {duration threshold resetTime : Option ℤ}
    (hf : f s.config = s.config.over duration threshold resetTime) :
  after (do
    updatePamFaillock o duration threshold resetTime
    modifyConfig f) s = s.written o (s.config.over duration threshold resetTime)
  := by
  unfold updatePamFaillock Settings.written PamCalls.Done PamCalls.Torn after
  rw [exec_bind, exec_protect, exec_bind_ok (exec_get s)]
  generalize hc : s.config.over duration threshold resetTime = c at hf ⊢
  by_cases h₁ : o.faillock.succeeds s.pamFaillock c.faillock
  · have hfirst := exec_writeFaillock o.faillock c.faillock s
    rw [if_pos h₁] at hfirst
    rw [exec_bind_ok hfirst, exec_writeFaillockPre]
    by_cases h₂ : o.faillockPre.succeeds s.pamFaillockPre c.faillockPre
    · simp [h₁, h₂, modifyConfig, hf]
    · simp [h₁, h₂]
  · have hfirst := exec_writeFaillock o.faillock c.faillock s
    rw [if_neg h₁] at hfirst
    rw [exec_bind_error hfirst]
    simp [h₁]

/-- A setter whose value is refused changes nothing, and one whose value is taken is what
follows its check. -/
theorem after_check {p : AuthConfig → Prop} [DecidablePred p] {e : SettingError}
    {m : Settings → SettingM Unit} (s : Settings) :
  after (do
    let s ← get
    refuse (!p s.config) e
    m s) s = if p s.config then after (m s) s else s
  := by
  unfold after
  rw [exec_bind_ok (exec_get s), exec_bind, exec_refuse]
  by_cases h : p s.config
  · simp [h]
  · simp [h]

/-- Cleaning the records of failures is not seen in the table and in the files. -/
theorem exec_cleanLockState (old threshold : ℤ) (s : Settings) :
  ∃ events, exec (cleanLockState old threshold) s = (.ok (), { s with events := events })
  := by
  unfold cleanLockState
  split
  · exact ⟨_, rfl⟩
  split
  · exact ⟨_, rfl⟩
  · exact ⟨_, rfl⟩

theorem step_setAccountLockoutThreshold (s : Settings) (o : PamCalls) (n : ℤ) :
  ∃ events, s.step (.setAccountLockoutThreshold o n) =
    if s.config.ThresholdAllowed n then
      { s with events := events }.written o (s.config.over none (some n) none)
    else s
  := by
  obtain ⟨events, hclean⟩ := exec_cleanLockState s.config.accountLockoutThreshold n s
  use events
  refine (after_check (p := fun c => c.ThresholdAllowed n) s).trans ?_
  congr 1
  unfold after
  rw [exec_bind_ok hclean]
  exact after_update_modify rfl

theorem step_setMaxAccountLockoutThreshold (s : Settings) (n : ℤ) :
  s.step (.setMaxAccountLockoutThreshold n) =
    if s.config.MaxThresholdAllowed n then
      { s with config.maxAccountLockoutThreshold := n }
    else s
  := after_check (p := fun c => c.MaxThresholdAllowed n) s

theorem step_setAccountLockoutDuration (s : Settings) (o : PamCalls) (n : ℤ) :
  s.step (.setAccountLockoutDuration o n) =
    if s.config.DurationAllowed n then s.written o (s.config.over (some n) none none) else s
  := by
  refine (after_check (p := fun c => c.DurationAllowed n) s).trans ?_
  congr 1
  exact after_update_modify rfl

theorem step_setMaxAccountLockoutDuration (s : Settings) (n : ℤ) :
  s.step (.setMaxAccountLockoutDuration n) =
    if s.config.MaxDurationAllowed n then
      { s with config.maxAccountLockoutDuration := n }
    else s
  := after_check (p := fun c => c.MaxDurationAllowed n) s

theorem step_setAccountLockoutResetTime (s : Settings) (o : PamCalls) (n : ℤ) :
  s.step (.setAccountLockoutResetTime o n) =
    if s.config.ResetTimeAllowed n then s.written o (s.config.over none none (some n)) else s
  := by
  refine (after_check (p := fun c => c.ResetTimeAllowed n) s).trans ?_
  congr 1
  exact after_update_modify rfl

/-! ## Valid settings -/

/-- Every column is in its range. -/
structure AuthConfig.InRange (c : AuthConfig) : Prop where
  threshold_nonneg : 0 ≤ c.accountLockoutThreshold
  threshold_le : c.accountLockoutThreshold ≤ c.maxAccountLockoutThreshold
  maxThreshold_le : c.maxAccountLockoutThreshold ≤ 255
  duration_ge : 60 ≤ c.accountLockoutDuration
  duration_le : c.accountLockoutDuration ≤ c.maxAccountLockoutDuration
  maxDuration_le : c.maxAccountLockoutDuration ≤ 86400
  duration_dvd : 60 ∣ c.accountLockoutDuration
  maxDuration_dvd : 60 ∣ c.maxAccountLockoutDuration
  resetTime_nonneg : 0 ≤ c.accountLockoutCounterResetAfter
  resetTime_le : c.accountLockoutCounterResetAfter ≤ min 1800 c.accountLockoutDuration

/-- The line has the threshold, the reset time and the duration of the table. -/
def FaillockRule.Says (r : FaillockRule) (c : AuthConfig) : Prop :=
  r.deny = c.accountLockoutThreshold ∧ r.failInterval = c.accountLockoutCounterResetAfter
    ∧ r.unlockTime = c.accountLockoutDuration

/-- The file has lines, and all of them have the values of the table. -/
def FaillockFile.Says (file : FaillockFile) (c : AuthConfig) : Prop :=
  ∃ r rs, file = some (r :: rs) ∧ ∀ r' ∈ r :: rs, r'.Says c

/-- The columns are in their ranges, and both files say what the table says. -/
structure Settings.Valid (s : Settings) : Prop where
  inRange : s.config.InRange
  faillock : FaillockFile.Says s.pamFaillock s.config
  faillockPre : FaillockFile.Says s.pamFaillockPre s.config

/-- The columns that are in the files are the same. -/
def AuthConfig.SamePam (c c' : AuthConfig) : Prop :=
  c.accountLockoutThreshold = c'.accountLockoutThreshold
    ∧ c.accountLockoutCounterResetAfter = c'.accountLockoutCounterResetAfter
    ∧ c.accountLockoutDuration = c'.accountLockoutDuration

theorem says_faillock_iff {c c' : AuthConfig} :
  FaillockFile.Says (some c.faillock) c' ↔ c.SamePam c'
  := by
  constructor
  · rintro ⟨r, rs, h, hall⟩
    obtain ⟨rfl, rfl⟩ := List.cons.inj (Option.some.inj h)
    exact hall _ List.mem_cons_self
  · intro h
    refine ⟨_, _, rfl, fun r hr => ?_⟩
    obtain rfl | hr := List.mem_cons.mp hr
    · exact h
    · obtain rfl := List.mem_singleton.mp hr
      exact h

theorem says_faillockPre_iff {c c' : AuthConfig} :
  FaillockFile.Says (some c.faillockPre) c' ↔ c.SamePam c'
  := by
  constructor
  · rintro ⟨r, rs, h, hall⟩
    obtain ⟨rfl, rfl⟩ := List.cons.inj (Option.some.inj h)
    exact hall _ List.mem_cons_self
  · intro h
    refine ⟨_, _, rfl, fun r hr => ?_⟩
    obtain rfl := List.mem_singleton.mp hr
    exact h

theorem Settings.Valid.written_iff {s : Settings} (h : s.Valid) (o : PamCalls) (c : AuthConfig) :
  (s.written o c).Valid ↔ (o.Done s c → c.InRange) ∧ (o.Torn s c → c.SamePam s.config)
  := by
  unfold Settings.written
  by_cases hdone : o.Done s c
  · have htorn : ¬ o.Torn s c := fun ht => ht.2 hdone.2
    rw [if_pos hdone]
    constructor
    · intro hv
      exact ⟨fun _ => hv.inRange, fun ht => absurd ht htorn⟩
    · intro hv
      exact {
        inRange := hv.1 hdone
        faillock := says_faillock_iff.mpr ⟨rfl, rfl, rfl⟩
        faillockPre := says_faillockPre_iff.mpr ⟨rfl, rfl, rfl⟩
      }
  rw [if_neg hdone]
  by_cases htorn : o.Torn s c
  · rw [if_pos htorn]
    constructor
    · intro hv
      exact ⟨fun hd => absurd hd hdone, fun _ => says_faillock_iff.mp hv.faillock⟩
    · intro hv
      exact { h with faillock := says_faillock_iff.mpr (hv.2 htorn) }
  · rw [if_neg htorn]
    exact ⟨fun _ => ⟨fun hd => absurd hd hdone, fun ht => absurd ht htorn⟩, fun _ => h⟩

/-- A call writes no value into the first file only, unless it is the one that is stored, and
stores no duration that is shorter than the reset time. -/
def Settings.Sound (s : Settings) : SettingOp → Prop
  | .setAccountLockoutThreshold o n =>
      s.config.ThresholdAllowed n → o.Torn s (s.config.over none (some n) none) →
        n = s.config.accountLockoutThreshold
  | .setMaxAccountLockoutThreshold _ => True
  | .setAccountLockoutDuration o n =>
      s.config.DurationAllowed n →
        (o.Done s (s.config.over (some n) none none) →
          s.config.accountLockoutCounterResetAfter ≤ n)
        ∧ (o.Torn s (s.config.over (some n) none none) → n = s.config.accountLockoutDuration)
  | .setMaxAccountLockoutDuration _ => True
  | .setAccountLockoutResetTime o n =>
      s.config.ResetTimeAllowed n → o.Torn s (s.config.over none none (some n)) →
        n = s.config.accountLockoutCounterResetAfter

/-- Changing the greatest threshold or duration is not seen in the files. -/
theorem Settings.Valid.withConfig {s : Settings} (h : s.Valid) {c : AuthConfig}
    (hsame : s.config.SamePam c) (hc : c.InRange) :
  ({ s with config := c } : Settings).Valid
  := by
  have hsays (r : FaillockRule) (hr : r.Says s.config) : r.Says c :=
    ⟨hr.1.trans hsame.1, hr.2.1.trans hsame.2.1, hr.2.2.trans hsame.2.2⟩
  obtain ⟨r, rs, hfile, hall⟩ := h.faillock
  obtain ⟨r', rs', hpre, hall'⟩ := h.faillockPre
  exact {
    inRange := hc
    faillock := ⟨r, rs, hfile, fun x hx => hsays x (hall x hx)⟩
    faillockPre := ⟨r', rs', hpre, fun x hx => hsays x (hall' x hx)⟩
  }

/-- A call keeps valid settings valid exactly when it is sound. -/
theorem Settings.Valid.step_iff {s : Settings} (h : s.Valid) (op : SettingOp) :
  (s.step op).Valid ↔ s.Sound op
  := by
  have hr := h.inRange
  cases op with
  | setAccountLockoutThreshold o n =>
    obtain ⟨events, hstep⟩ := step_setAccountLockoutThreshold s o n
    have h' : ({ s with events := events } : Settings).Valid :=
      ⟨h.inRange, h.faillock, h.faillockPre⟩
    rw [hstep]
    by_cases hn : s.config.ThresholdAllowed n
    · rw [if_pos hn, h'.written_iff]
      have hrange : (s.config.over none (some n) none).InRange := by
        unfold AuthConfig.ThresholdAllowed at hn
        push Not at hn
        exact { hr with threshold_nonneg := hn.2, threshold_le := hn.1 }
      constructor
      · exact fun hv _ htorn => (hv.2 htorn).1
      · intro hsound
        exact ⟨fun _ => hrange, fun htorn => ⟨hsound hn htorn, rfl, rfl⟩⟩
    · rw [if_neg hn]
      exact ⟨fun _ hn' => absurd hn' hn, fun _ => h⟩
  | setMaxAccountLockoutThreshold n =>
    rw [step_setMaxAccountLockoutThreshold]
    refine ⟨fun _ => trivial, fun _ => ?_⟩
    split
    · rename_i hn
      unfold AuthConfig.MaxThresholdAllowed at hn
      push Not at hn
      apply h.withConfig
      · exact ⟨rfl, rfl, rfl⟩
      exact { hr with threshold_le := hn.2.1, maxThreshold_le := hn.2.2 }
    · exact h
  | setAccountLockoutDuration o n =>
    rw [step_setAccountLockoutDuration]
    by_cases hn : s.config.DurationAllowed n
    · rw [if_pos hn, h.written_iff]
      have hn' := hn
      unfold AuthConfig.DurationAllowed at hn'
      push Not at hn'
      constructor
      · intro hv _
        refine ⟨fun hdone => ?_, fun htorn => (hv.2 htorn).2.2⟩
        exact (hv.1 hdone).resetTime_le.trans (min_le_right _ _)
      · intro hsound
        refine ⟨fun hdone => ?_, fun htorn => ⟨rfl, rfl, (hsound hn).2 htorn⟩⟩
        exact { hr with
          duration_ge := hn'.2.1
          duration_le := hn'.1
          duration_dvd := Int.dvd_of_emod_eq_zero hn'.2.2
          resetTime_le :=
            le_min (hr.resetTime_le.trans (min_le_left _ _)) ((hsound hn).1 hdone)
        }
    · rw [if_neg hn]
      exact ⟨fun _ hn' => absurd hn' hn, fun _ => h⟩
  | setMaxAccountLockoutDuration n =>
    rw [step_setMaxAccountLockoutDuration]
    refine ⟨fun _ => trivial, fun _ => ?_⟩
    split
    · rename_i hn
      unfold AuthConfig.MaxDurationAllowed at hn
      push Not at hn
      apply h.withConfig
      · exact ⟨rfl, rfl, rfl⟩
      exact { hr with
        duration_le := hn.1
        maxDuration_le := hn.2.2.1
        maxDuration_dvd := Int.dvd_of_emod_eq_zero hn.2.2.2
      }
    · exact h
  | setAccountLockoutResetTime o n =>
    rw [step_setAccountLockoutResetTime]
    by_cases hn : s.config.ResetTimeAllowed n
    · rw [if_pos hn, h.written_iff]
      have hrange : (s.config.over none none (some n)).InRange := by
        unfold AuthConfig.ResetTimeAllowed at hn
        push Not at hn
        exact { hr with resetTime_nonneg := hn.2.1, resetTime_le := le_min hn.1 hn.2.2 }
      constructor
      · exact fun hv _ htorn => (hv.2 htorn).2.1
      · intro hsound
        exact ⟨fun _ => hrange, fun htorn => ⟨rfl, hsound hn htorn, rfl⟩⟩
    · rw [if_neg hn]
      exact ⟨fun _ hn' => absurd hn' hn, fun _ => h⟩

/-- The settings are valid all along a run exactly when every call of it is sound. -/
theorem lockoutSettings_valid_iff {s : Settings} (h : s.Valid) (ops : List SettingOp) :
  (∀ s' ∈ Run.states Settings.step s ops, s'.Valid) ↔
    Run.Along Settings.step Settings.Sound s ops
  := Run.invariant_iff (fun _ op hs => hs.step_iff op) h

/-- Both files are written. -/
def written : PamCalls :=
  ⟨⟨true, true, true⟩, ⟨true, true, true⟩⟩

/-- Five failures within five minutes lock for five minutes. -/
def plainSettings : Settings where
  config := ⟨300, 1800, 5, 6, 300⟩
  pamFaillock := some (AuthConfig.faillock ⟨300, 1800, 5, 6, 300⟩)
  pamFaillockPre := some (AuthConfig.faillockPre ⟨300, 1800, 5, 6, 300⟩)
  events := []

theorem plainSettings_valid : plainSettings.Valid where
  inRange := by constructor <;> decide
  faillock := says_faillock_iff.mpr ⟨rfl, rfl, rfl⟩
  faillockPre := says_faillockPre_iff.mpr ⟨rfl, rfl, rfl⟩

theorem lockoutSettings_valid_threshold :
  plainSettings.Valid ∧
    ∀ s' ∈ Run.states Settings.step plainSettings [.setAccountLockoutThreshold written 3],
      s'.Valid
  := ⟨plainSettings_valid, (lockoutSettings_valid_iff plainSettings_valid _).mpr
    ⟨fun _ htorn => absurd htorn (by decide), trivial⟩⟩

/-- A lock of one minute is taken, and failures are counted for five. -/
theorem short_duration_accepted :
  ¬ ∀ (s : Settings) (ops : List SettingOp), s.Valid →
    ∀ s' ∈ Run.states Settings.step s ops, s'.Valid
  := by
  intro h
  have hstored := h plainSettings [.setAccountLockoutDuration written 60] plainSettings_valid
    (plainSettings.step (.setAccountLockoutDuration written 60))
    (List.mem_cons_of_mem _ List.mem_cons_self)
  have hlong : ¬ (300 : ℤ) ≤ min 1800 60 := by decide
  exact hlong hstored.inRange.resetTime_le

end Lockout

end BmcAccount
