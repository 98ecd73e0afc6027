import BmcAccount.LoginRule.Time

/-!
# The grammar of time rules

A time rule is a range of moments `A/B`, each written as a date with a time, as a date, or as a
time of the day. A `Moment` is an existing one: its date is in the Gregorian calendar and its time
is one of a day, so what remains to be said of a range is that it begins before it ends.

`checkFormat_iff_and_checkRuleAt` says that the check of the manager accepts the texts of these
ranges and the empty text, and that a rule it accepts admits the times in its range. The range of
times over midnight, which the check of a rule provides for, is never one that is accepted.
-/

namespace BmcAccount

namespace LoginRule

open Fields

/-! ## Moments -/

/-- The days of a month in the Gregorian calendar. -/
def monthDays (year month : ℕ) : ℕ :=
  if month = 2 then if 4 ∣ year ∧ (100 ∣ year → 400 ∣ year) then 29 else 28
  else if month ∈ [4, 6, 9, 11] then 30
  else 31

/-- A date from 1970 to 2050. -/
structure CalendarDate where
  year : ℕ
  month : ℕ
  day : ℕ
  year_mem : 1970 ≤ year ∧ year ≤ 2050
  month_mem : 1 ≤ month ∧ month ≤ 12
  day_mem : 1 ≤ day ∧ day ≤ monthDays year month

/-- A time of the day, from `00:00` to `23:59`. -/
structure DayTime where
  hour : ℕ
  min : ℕ
  hour_lt : hour < 24
  min_lt : min < 60

/-- `YYYY-MM-DD`. -/
def CalendarDate.text (d : CalendarDate) : Text :=
  padded 4 d.year ++ '-' :: padded 2 d.month ++ '-' :: padded 2 d.day

/-- `HH:MM`. -/
def DayTime.text (t : DayTime) : Text :=
  padded 2 t.hour ++ ':' :: padded 2 t.min

/-- An end of a range of times. -/
inductive Moment : TimeType → Type where
  | ymdhm (date : CalendarDate) (time : DayTime) : Moment .ymdhm
  | ymd (date : CalendarDate) : Moment .ymd
  | hm (time : DayTime) : Moment .hm

/-- A time that the clock shows. -/
structure ClockTime where
  year : ℕ
  month : ℕ
  day : ℕ
  hour : ℕ
  min : ℕ
  month_mem : 1 ≤ month ∧ month ≤ 12
  day_mem : 1 ≤ day ∧ day ≤ 31
  hour_lt : hour < 24
  min_lt : min < 60

namespace Moment

variable {t : TimeType}

/-- How a moment is written. -/
def text : Moment t → Text
  | .ymdhm date time => date.text ++ ' ' :: time.text
  | .ymd date => date.text
  | .hm time => time.text

/-- The numbers of a moment, the largest unit first. An earlier moment has smaller ones. -/
def units : Moment t → List ℕ
  | .ymdhm date time => [date.year, date.month, date.day, time.hour, time.min]
  | .ymd date => [date.year, date.month, date.day]
  | .hm time => [time.hour, time.min]

end Moment

/-- What the clock shows in the units of a format. -/
def ClockTime.units (now : ClockTime) : TimeType → List ℕ
  | .ymdhm => [now.year, now.month, now.day, now.hour, now.min]
  | .ymd => [now.year, now.month, now.day]
  | .hm => [now.hour, now.min]

/-! ## The rule of the manager at any time -/

/-- A time from 1970 to 2050 is one that the clock shows. -/
def LocalTime.toClockTime (now : LocalTime) : ClockTime :=
  { now with }

namespace TimeRule

/-- The fields of `os.date`. -/
def clockInfo (now : ClockTime) : TimeInfo :=
  ⟨now.year, now.month, now.day, now.hour, now.min⟩

/-- `check_rule_ymdhm` and `check_rule_ymd`, whatever the clock shows. -/
def checkRuleWithAt (t : TimeType) (stamp : TimeInfo → ℕ) (now : ClockTime) (rule : Text) :
    Bool :=
  let (startTimeInfo, endTimeInfo) := getTimeInfo t rule
  decide (stamp startTimeInfo ≤ stamp (clockInfo now))
    && decide (stamp (clockInfo now) ≤ stamp endTimeInfo)

/-- `check_rule_hm`, whatever the clock shows. -/
def checkRuleHmAt (now : ClockTime) (rule : Text) : Bool :=
  let (startTimeInfo, endTimeInfo) := getTimeInfo .hm rule
  let current := stampHm (clockInfo now)
  if stampHm startTimeInfo < stampHm endTimeInfo then
    decide (stampHm startTimeInfo ≤ current) && decide (current ≤ stampHm endTimeInfo)
  else decide (stampHm startTimeInfo ≤ current) || decide (current ≤ stampHm endTimeInfo)

/-- `time_rule:check_rule`, whatever the clock shows. -/
def checkRuleAt (now : ClockTime) (rule : Text) : Bool :=
  if rule.length = 0 then true
  else match getFormatType rule with
    | some .ymdhm => checkRuleWithAt .ymdhm stampYmdhm now rule
    | some .ymd => checkRuleWithAt .ymd stampYmd now rule
    | some .hm => checkRuleHmAt now rule
    | none => false

theorem checkRule_eq_checkRuleAt (now : LocalTime) (rule : Text) :
  checkRule now rule = checkRuleAt now.toClockTime rule
  := rfl

/-! ## Reading back what is written -/

theorem splitGreedy_of_not_mem {b : Text} (h : '/' ∉ b) :
  splitGreedy b = none
  := by
  induction b with
  | nil => rfl
  | cons c b ih =>
    rw [List.mem_cons, not_or] at h
    rw [splitGreedy, ih h.2]
    exact if_neg fun hc => h.1 hc.1.symm

/-- The split is at the last slash. -/
theorem splitGreedy_append {b : Text} (hne : b ≠ []) (h : '/' ∉ b) (a : Text) :
  splitGreedy (a ++ '/' :: b) = some (a, b)
  := by
  induction a with
  | nil =>
    rw [List.nil_append, splitGreedy, splitGreedy_of_not_mem h]
    exact if_pos ⟨rfl, hne⟩
  | cons c a ih => rw [List.cons_append, splitGreedy, ih]

theorem splitSlash_append {a b : Text} (ha : a ≠ []) (hb : b ≠ []) (h : '/' ∉ b) :
  splitSlash (a ++ '/' :: b) = some (a, b)
  := by
  cases a with
  | nil => exact absurd rfl ha
  | cons c a => rw [List.cons_append, splitSlash, splitGreedy_append hb h, Option.map_some]

theorem matchAt_joinWith {t : TimeType} {fs : List Text} (h : DigitFields (widths t) fs) :
  matchAt t (joinWith (seps t) fs) = some (fs, [])
  := by
  have hcapture : matchAt t (joinWith (seps t) fs ++ []) = some (fs, []) :=
    capture_joinWith h []
  rwa [List.append_nil] at hcapture

theorem matchesWhole_joinWith {t : TimeType} {fs : List Text} (h : DigitFields (widths t) fs) :
  matchesWhole t (joinWith (seps t) fs) = true
  := by
  rw [matchesWhole, matchAt_joinWith h]

/-- The first place where the pattern matches is the beginning. -/
theorem convertTimeStr_joinWith {t : TimeType} {fs : List Text} (h : DigitFields (widths t) fs) :
  convertTimeStr t (joinWith (seps t) fs) = toInfo fs
  := by
  have hfind : (joinWith (seps t) fs).tails.findSome? (matchAt t) = some (fs, []) := by
    have hmatch := matchAt_joinWith h
    cases hs : joinWith (seps t) fs with
    | nil =>
      rw [hs] at hmatch
      simp [hmatch]
    | cons c s =>
      rw [hs] at hmatch
      simp [hmatch]
  rw [convertTimeStr, hfind]

/-- The length of the texts of a format. -/
def textLength : TimeType → ℕ
  | .ymdhm => 16
  | .ymd => 10
  | .hm => 5

theorem length_joinWith {t : TimeType} {fs : List Text} (h : DigitFields (widths t) fs) :
  (joinWith (seps t) fs).length = textLength t
  := by
  cases t with
  | ymdhm =>
    obtain ⟨y, mo, d, h, mi, rfl, hy, hmo, hd, hh, hmi⟩ := CheckLoginRule.fields_ymdhm h
    simp [joinWith, seps, regexp, textLength, hy, hmo, hd, hh, hmi]
  | ymd =>
    obtain ⟨y, mo, d, rfl, hy, hmo, hd⟩ := CheckLoginRule.fields_ymd h
    simp [joinWith, seps, regexp, textLength, hy, hmo, hd]
  | hm =>
    obtain ⟨h, mi, rfl, hh, hmi⟩ := CheckLoginRule.fields_hm h
    simp [joinWith, seps, regexp, textLength, hh, hmi]

theorem matchesWhole_eq_false {t : TimeType} {s : Text} (h : s.length ≠ textLength t) :
  matchesWhole t s = false
  := by
  apply eq_false_of_ne_true
  intro hmatch
  obtain ⟨fs, rfl, hfs, -⟩ := eq_of_matchesWhole hmatch
  exact h (length_joinWith hfs)

theorem slash_not_mem_joinWith {t : TimeType} {fs : List Text} (h : DigitFields (widths t) fs) :
  '/' ∉ joinWith (seps t) fs
  := by
  intro hmem
  rcases mem_joinWith hmem with hmem | ⟨f, hf, hmem⟩
  · cases t <;> exact absurd hmem (by decide)
  · exact absurd (h.isDigit f hf _ hmem) (by decide)

theorem joinWith_ne_nil {t : TimeType} {fs : List Text} (h : DigitFields (widths t) fs) :
  joinWith (seps t) fs ≠ []
  := by
  intro hnil
  have hlen := length_joinWith h
  rw [hnil] at hlen
  cases t <;> cases hlen

variable {t : TimeType} {a b : List Text}

/-- A text of two ends in one format has this format. -/
theorem getFormatType_joinWith (ha : DigitFields (widths t) a) (hb : DigitFields (widths t) b) :
  getFormatType (joinWith (seps t) a ++ '/' :: joinWith (seps t) b) = some t
  := by
  have hwa := matchesWhole_joinWith ha
  have hwb := matchesWhole_joinWith hb
  have hla := length_joinWith ha
  unfold getFormatType
  rw [splitSlash_append (joinWith_ne_nil ha) (joinWith_ne_nil hb) (slash_not_mem_joinWith hb)]
  have hother (t' : TimeType) (h : textLength t ≠ textLength t') :
      matchesWhole t' (joinWith (seps t) a) = false :=
    matchesWhole_eq_false (hla.trans_ne h)
  cases t with
  | ymdhm => simp only [hwa, hwb, Bool.and_self, if_true]
  | ymd => simp only [hother .ymdhm (by decide), hwa, hwb, Bool.false_and, Bool.and_self,
      Bool.false_eq_true, if_false, if_true]
  | hm => simp only [hother .ymdhm (by decide), hother .ymd (by decide), hwa, hwb,
      Bool.false_and, Bool.and_self, Bool.false_eq_true, if_false, if_true]

theorem getTimeInfo_joinWith (ha : DigitFields (widths t) a) (hb : DigitFields (widths t) b) :
  getTimeInfo t (joinWith (seps t) a ++ '/' :: joinWith (seps t) b) = (toInfo a, toInfo b)
  := by
  unfold getTimeInfo
  rw [splitSlash_append (joinWith_ne_nil ha) (joinWith_ne_nil hb) (slash_not_mem_joinWith hb)]
  simp only [convertTimeStr_joinWith ha, convertTimeStr_joinWith hb]

end TimeRule

/-! ## The two ends of a rule -/

namespace TimeRule

/-- The check of an end of a rule. -/
def validEnd : TimeType → TimeInfo → Bool
  | .ymdhm => fun i => isValidDate i && isValidTime i
  | .ymd => isValidDate
  | .hm => isValidTime

/-- The number that stands for an end of a rule. -/
def stamp : TimeType → TimeInfo → ℕ
  | .ymdhm => stampYmdhm
  | .ymd => stampYmd
  | .hm => stampHm

/-- The fields of a format, the largest unit first. -/
def infoUnits : TimeType → TimeInfo → List ℕ
  | .ymdhm, i => [i.year, i.month, i.day, i.hour, i.min]
  | .ymd, i => [i.year, i.month, i.day]
  | .hm, i => [i.hour, i.min]

/-- All fields but the year have at most two digits. -/
structure TwoDigits (i : TimeInfo) : Prop where
  month : i.month < 100
  day : i.day < 100
  hour : i.hour < 100
  min : i.min < 100

theorem checkFormat_of_type {rule : Text} {t : TimeType} (ht : getFormatType rule = some t)
    (hne : rule ≠ []) (hlen : rule.length ≤ 33) :
  checkFormat rule = checkFormatWith t (validEnd t) (stamp t) rule
  := by
  unfold checkFormat
  rw [if_neg (by simpa using hne), if_neg (Nat.not_lt.mpr hlen), ht]
  cases t <;> rfl

theorem stamp_eq {t : TimeType} {i : TimeInfo} (h : TwoDigits i) :
  stamp t i = horner 100 (infoUnits t i).headI (infoUnits t i).tail
  := by
  cases t with
  | ymdhm =>
    rw [stamp, stampYmdhm, number_append_padded _ (by decide) h.min,
      number_append_padded _ (by decide) h.hour, number_append_padded _ (by decide) h.day,
      number_append_padded _ (by decide) h.month, number_padded]
    rfl
  | ymd =>
    rw [stamp, stampYmd, number_append_padded _ (by decide) h.day,
      number_append_padded _ (by decide) h.month, number_padded]
    rfl
  | hm =>
    rw [stamp, stampHm, number_append_padded _ (by decide) h.min, number_padded]
    rfl

/-- Stamps are compared unit by unit; the year may have any number of digits. -/
theorem stamp_le_iff {t : TimeType} {i j : TimeInfo} (hi : TwoDigits i) (hj : TwoDigits j) :
  stamp t i ≤ stamp t j ↔ infoUnits t i ≤ infoUnits t j
  := by
  have htail {i : TimeInfo} (h : TwoDigits i) : ∀ u ∈ (infoUnits t i).tail, u < 100 := by
    cases t <;> simp [infoUnits, h.month, h.day, h.hour, h.min]
  rw [stamp_eq hi, stamp_eq hj, horner_le_iff (by cases t <;> rfl) (htail hi) (htail hj),
    lexLe_iff_le (by cases t <;> rfl)]
  cases t <;> rfl

theorem stamp_lt_iff {t : TimeType} {i j : TimeInfo} (hi : TwoDigits i) (hj : TwoDigits j) :
  stamp t i < stamp t j ↔ infoUnits t i < infoUnits t j
  := by
  rw [← not_le, stamp_le_iff hj hi, not_le]

end TimeRule

/-- The code goes by the lengths of the months. -/
theorem isValidDate_iff (i : TimeInfo) :
  TimeRule.isValidDate i = true ↔ (1970 ≤ i.year ∧ i.year ≤ 2050) ∧
    (1 ≤ i.month ∧ i.month ≤ 12) ∧ 1 ≤ i.day ∧ i.day ≤ monthDays i.year i.month
  := by
  have hleap : (i.year % 4 = 0 ∧ i.year % 100 ≠ 0 ∨ i.year % 400 = 0) ↔
      4 ∣ i.year ∧ (100 ∣ i.year → 400 ∣ i.year) := by
    omega
  have hdays (h : 1 ≤ i.month ∧ i.month ≤ 12) :
      (if i.month ∈ [1, 3, 5, 7, 8, 10, 12] then 31
        else if i.month = 2 then
          if i.year % 4 = 0 ∧ i.year % 100 ≠ 0 ∨ i.year % 400 = 0 then 29 else 28
        else 30) = monthDays i.year i.month := by
    simp only [hleap, monthDays]
    obtain ⟨hlow, hhigh⟩ := h
    interval_cases i.month <;> rfl
  unfold TimeRule.isValidDate
  rw [decide_eq_true_eq]
  constructor
  · rintro ⟨hy, hy', hm, hm', hd, hd'⟩
    exact ⟨⟨hy, hy'⟩, ⟨hm, hm'⟩, hd, hdays ⟨hm, hm'⟩ ▸ hd'⟩
  · rintro ⟨⟨hy, hy'⟩, hm, hd, hd'⟩
    exact ⟨hy, hy', hm.1, hm.2, hd, (hdays hm).symm ▸ hd'⟩

theorem CalendarDate.day_le (d : CalendarDate) :
  d.day ≤ 31
  := by
  have hday := d.day_mem.2
  unfold monthDays at hday
  split_ifs at hday <;> omega

namespace Moment

open TimeRule

variable {t : TimeType}

/-- The fields of a moment. -/
def fields : Moment t → List Text
  | .ymdhm date time => [padded 4 date.year, padded 2 date.month, padded 2 date.day,
      padded 2 time.hour, padded 2 time.min]
  | .ymd date => [padded 4 date.year, padded 2 date.month, padded 2 date.day]
  | .hm time => [padded 2 time.hour, padded 2 time.min]

/-- The fields as the code stores them. -/
def info : Moment t → TimeInfo
  | .ymdhm date time => ⟨date.year, date.month, date.day, time.hour, time.min⟩
  | .ymd date => { year := date.year, month := date.month, day := date.day }
  | .hm time => { hour := time.hour, min := time.min }

@[simp]
theorem infoUnits_info (m : Moment t) :
  infoUnits t m.info = m.units
  := by
  cases m <;> rfl

theorem toInfo_fields (m : Moment t) :
  toInfo m.fields = m.info
  := by
  cases m <;> simp [fields, toInfo, info]

theorem joinWith_fields (m : Moment t) :
  joinWith (seps t) m.fields = m.text
  := by
  cases m <;> simp [joinWith, seps, regexp, fields, text, CalendarDate.text, DayTime.text]

theorem twoDigits_info (m : Moment t) :
  TwoDigits m.info
  := by
  cases m with
  | ymdhm date time =>
    exact ⟨date.month_mem.2.trans_lt (by decide), date.day_le.trans_lt (by decide),
      time.hour_lt.trans (by decide), time.min_lt.trans (by decide)⟩
  | ymd date =>
    exact ⟨date.month_mem.2.trans_lt (by decide), date.day_le.trans_lt (by decide),
      Nat.succ_pos _, Nat.succ_pos _⟩
  | hm time =>
    exact ⟨Nat.succ_pos _, Nat.succ_pos _, time.hour_lt.trans (by decide),
      time.min_lt.trans (by decide)⟩

theorem digitFields (m : Moment t) :
  DigitFields (widths t) m.fields
  := by
  have hyear (date : CalendarDate) : (padded 4 date.year).length = 4 :=
    length_padded (by decide) (date.year_mem.2.trans_lt (by decide))
  have htwo {n : ℕ} (h : n < 100) : (padded 2 n).length = 2 := length_padded (by decide) h
  have hm := m.twoDigits_info
  constructor
  · cases m with
    | ymdhm date time =>
      simp only [fields, List.map_cons, List.map_nil, hyear, htwo (n := date.month) hm.month,
        htwo (n := date.day) hm.day, htwo (n := time.hour) hm.hour, htwo (n := time.min) hm.min]
      rfl
    | ymd date =>
      simp only [fields, List.map_cons, List.map_nil, hyear, htwo (n := date.month) hm.month,
        htwo (n := date.day) hm.day]
      rfl
    | hm time =>
      simp only [fields, List.map_cons, List.map_nil, htwo (n := time.hour) hm.hour,
        htwo (n := time.min) hm.min]
      rfl
  · intro f hf c hc
    obtain ⟨w, n, rfl⟩ : ∃ w n, f = padded w n := by
      cases m <;> simp only [fields, List.mem_cons, List.not_mem_nil, or_false] at hf
      · rcases hf with rfl | rfl | rfl | rfl | rfl <;> exact ⟨_, _, rfl⟩
      · rcases hf with rfl | rfl | rfl <;> exact ⟨_, _, rfl⟩
      · rcases hf with rfl | rfl <;> exact ⟨_, _, rfl⟩
    exact isDigit_padded hc

theorem validEnd_info (m : Moment t) :
  validEnd t m.info = true
  := by
  have hdate (date : CalendarDate) (i : TimeInfo) (hy : i.year = date.year)
      (hm : i.month = date.month) (hd : i.day = date.day) : isValidDate i = true := by
    rw [isValidDate_iff, hy, hm, hd]
    exact ⟨date.year_mem, date.month_mem, date.day_mem⟩
  have htime (time : DayTime) (i : TimeInfo) (hh : i.hour = time.hour)
      (hm : i.min = time.min) : isValidTime i = true := by
    rw [isValidTime, decide_eq_true_eq, hh, hm]
    exact ⟨Nat.le_of_lt_succ time.hour_lt, Nat.le_of_lt_succ time.min_lt⟩
  cases m with
  | ymdhm date time =>
    exact Bool.and_eq_true_iff.mpr ⟨hdate date _ rfl rfl rfl, htime time _ rfl rfl⟩
  | ymd date => exact hdate date _ rfl rfl rfl
  | hm time => exact htime time _ rfl rfl

/-- Fields that pass the check are those of a moment. -/
theorem exists_of_validEnd {fs : List Text} (h : DigitFields (widths t) fs)
    (hvalid : validEnd t (toInfo fs) = true) :
  ∃ m : Moment t, m.fields = fs
  := by
  have hpad {w : ℕ} {f : Text} (hf : f ∈ fs) (hw : f.length = w) (hpos : 0 < w) :
      padded w (number f) = f := by
    subst hw
    exact padded_number (List.length_pos_iff.mp hpos) (h.isDigit f hf)
  cases t with
  | ymdhm =>
    obtain ⟨y, mo, d, h, mi, rfl, hy, hmo, hd, hh, hmi⟩ := CheckLoginRule.fields_ymdhm h
    obtain ⟨hdate, htime⟩ := Bool.and_eq_true_iff.mp hvalid
    obtain ⟨hyear, hmonth, hday⟩ := (isValidDate_iff _).mp hdate
    obtain ⟨hhour, hmin⟩ := of_decide_eq_true htime
    use .ymdhm ⟨_, _, _, hyear, hmonth, hday⟩
      ⟨_, _, Nat.lt_succ_of_le hhour, Nat.lt_succ_of_le hmin⟩
    simp only [fields, toInfo]
    rw [hpad (by simp) hy (by decide), hpad (by simp) hmo (by decide),
      hpad (by simp) hd (by decide), hpad (by simp) hh (by decide), hpad (by simp) hmi (by decide)]
  | ymd =>
    obtain ⟨y, mo, d, rfl, hy, hmo, hd⟩ := CheckLoginRule.fields_ymd h
    obtain ⟨hyear, hmonth, hday⟩ := (isValidDate_iff _).mp hvalid
    use .ymd ⟨_, _, _, hyear, hmonth, hday⟩
    simp only [fields, toInfo]
    rw [hpad (by simp) hy (by decide), hpad (by simp) hmo (by decide),
      hpad (by simp) hd (by decide)]
  | hm =>
    obtain ⟨h, mi, rfl, hh, hmi⟩ := CheckLoginRule.fields_hm h
    obtain ⟨hhour, hmin⟩ := of_decide_eq_true hvalid
    use .hm ⟨_, _, Nat.lt_succ_of_le hhour, Nat.lt_succ_of_le hmin⟩
    simp only [fields, toInfo]
    rw [hpad (by simp) hh (by decide), hpad (by simp) hmi (by decide)]

/-- The length of a rule that is made of two moments. -/
theorem length_rule (a b : Moment t) :
  (a.text ++ '/' :: b.text).length ≤ 33
  := by
  rw [← joinWith_fields, ← joinWith_fields, List.length_append, List.length_cons,
    length_joinWith a.digitFields, length_joinWith b.digitFields]
  cases t <;> decide

end Moment

namespace TimeRule

variable {t : TimeType} (a b : Moment t)

theorem getFormatType_rule :
  getFormatType (a.text ++ '/' :: b.text) = some t
  := by
  rw [← a.joinWith_fields, ← b.joinWith_fields]
  exact getFormatType_joinWith a.digitFields b.digitFields

theorem getTimeInfo_rule :
  getTimeInfo t (a.text ++ '/' :: b.text) = (a.info, b.info)
  := by
  rw [← a.joinWith_fields, ← b.joinWith_fields, ← a.toInfo_fields, ← b.toInfo_fields]
  exact getTimeInfo_joinWith a.digitFields b.digitFields

/-- A rule of two moments is accepted when they are in order. -/
theorem checkFormat_rule :
  checkFormat (a.text ++ '/' :: b.text) = true ↔ a.units < b.units
  := by
  rw [checkFormat_of_type (getFormatType_rule a b) (by simp) (a.length_rule b), checkFormatWith,
    getTimeInfo_rule]
  simp only [a.validEnd_info, b.validEnd_info, Bool.true_and, decide_eq_true_eq,
    stamp_lt_iff a.twoDigits_info b.twoDigits_info, Moment.infoUnits_info]

theorem checkFormat_iff (s : Text) :
  checkFormat s = true ↔
    s = [] ∨ ∃ t, ∃ a b : Moment t, s = a.text ++ '/' :: b.text ∧ a.units < b.units
  := by
  constructor
  · intro h
    by_cases hne : s = []
    · exact Or.inl hne
    · right
      have hlen : s.length ≤ 33 := by
        by_contra hlong
        rw [checkFormat, if_neg (by simpa using hne), if_pos (Nat.not_le.mp hlong)] at h
        cases h
      cases ht : getFormatType s with
      | none =>
        rw [checkFormat, if_neg (by simpa using hne), if_neg (Nat.not_lt.mpr hlen), ht] at h
        cases h
      | some t =>
        have hvalid := (checkFormat_of_type ht hne hlen).symm.trans h
        obtain ⟨fa, fb, hs, hfa, hfb, hinfo⟩ := getFormatType_eq_some ht
        rw [checkFormatWith, hinfo, Bool.and_eq_true_iff, Bool.and_eq_true_iff] at hvalid
        obtain ⟨a, rfl⟩ := Moment.exists_of_validEnd hfa hvalid.1.1
        obtain ⟨b, rfl⟩ := Moment.exists_of_validEnd hfb hvalid.1.2
        rw [a.joinWith_fields, b.joinWith_fields] at hs
        exact ⟨t, a, b, hs, (checkFormat_rule a b).mp (hs ▸ h)⟩
  · rintro (rfl | ⟨t, a, b, rfl, hab⟩)
    · rfl
    · exact (checkFormat_rule a b).mpr hab

theorem twoDigits_clockInfo (now : ClockTime) :
  TwoDigits (clockInfo now)
  where
  month := now.month_mem.2.trans_lt (by decide)
  day := now.day_mem.2.trans_lt (by decide)
  hour := now.hour_lt.trans (by decide)
  min := now.min_lt.trans (by decide)

/-- A range that is accepted does not go over midnight. -/
theorem checkRuleAt_rule (hab : a.units < b.units) (now : ClockTime) :
  checkRuleAt now (a.text ++ '/' :: b.text) = true ↔
    a.units ≤ now.units t ∧ now.units t ≤ b.units
  := by
  have hunits : infoUnits t (clockInfo now) = now.units t := by
    cases t <;> rfl
  have hnow := twoDigits_clockInfo now
  have hle : stamp t a.info ≤ stamp t (clockInfo now) ↔ a.units ≤ now.units t := by
    rw [stamp_le_iff a.twoDigits_info hnow, a.infoUnits_info, hunits]
  have hge : stamp t (clockInfo now) ≤ stamp t b.info ↔ now.units t ≤ b.units := by
    rw [stamp_le_iff hnow b.twoDigits_info, b.infoUnits_info, hunits]
  have hlt : stamp t a.info < stamp t b.info := by
    rw [stamp_lt_iff a.twoDigits_info b.twoDigits_info, a.infoUnits_info, b.infoUnits_info]
    exact hab
  have hinfo := getTimeInfo_rule a b
  unfold checkRuleAt
  rw [if_neg (by simp), getFormatType_rule a b, ← hle, ← hge]
  cases t with
  | ymdhm =>
    simp only [checkRuleWithAt, hinfo, Bool.and_eq_true, decide_eq_true_eq]
    rfl
  | ymd =>
    simp only [checkRuleWithAt, hinfo, Bool.and_eq_true, decide_eq_true_eq]
    rfl
  | hm =>
    have hlt : stampHm a.info < stampHm b.info := hlt
    simp only [checkRuleHmAt, hinfo]
    rw [if_pos hlt, Bool.and_eq_true, decide_eq_true_eq, decide_eq_true_eq]
    rfl

/-- The rules that are accepted are the ranges of moments in one format, and a rule admits the
times of its range. -/
theorem checkFormat_iff_and_checkRuleAt (s : Text) :
  (checkFormat s = true ↔
    s = [] ∨ ∃ t, ∃ a b : Moment t, s = a.text ++ '/' :: b.text ∧ a.units < b.units) ∧
  ∀ (t : TimeType) (a b : Moment t), s = a.text ++ '/' :: b.text → a.units < b.units →
    ∀ now : ClockTime,
      checkRuleAt now s = true ↔ a.units ≤ now.units t ∧ now.units t ≤ b.units
  := by
  refine ⟨checkFormat_iff s, ?_⟩
  rintro t a b rfl hab now
  exact checkRuleAt_rule a b hab now

/-! ### A range over a leap day -/

/-- The leap day of a year. -/
def leapDay : Moment .ymd :=
  .ymd ⟨2024, 2, 29, by decide, by decide, by decide⟩

/-- The day after it. -/
def dayAfter : Moment .ymd :=
  .ymd ⟨2024, 3, 1, by decide, by decide, by decide⟩

/-- The afternoon of the leap day. -/
def leapAfternoon : ClockTime :=
  ⟨2024, 2, 29, 13, 30, by decide, by decide, by decide, by decide⟩

theorem checkRuleAt_leapDay :
  checkRuleAt leapAfternoon (leapDay.text ++ '/' :: dayAfter.text) = true
  := by
  apply ((checkFormat_iff_and_checkRuleAt _).2 .ymd leapDay dayAfter rfl (by decide) leapAfternoon).mpr
  decide

end TimeRule

end LoginRule

end BmcAccount
