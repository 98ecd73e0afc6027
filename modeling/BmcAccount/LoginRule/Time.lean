import BmcAccount.Lib.Fields

/-!
# Time rules

A time rule is a text `start/end` in one of three formats. The manager of the rules, in Lua,
matches the text against patterns, and compares times by the numbers that their decimal
fields make up when written one after the other. The check that the PAM modules make, in C,
tells the formats apart by the length of the text, reads it by `sscanf`, and compares times
by bytes shifted together.

`checkTimeRule_eq_ok_iff` relates the two on the texts that the setter of the manager
accepts: they agree, except for a range of dates that begins before the year 2048 and does
not end before it. The year is cut to a byte there, so such a range is empty for the C
check.
-/

namespace BmcAccount

namespace LoginRule

open Fields

/-- Lua and C strings. -/
abbrev Text : Type := List Char

/-- A local time from 1970 to 2050, the month and the day counted from `1`. -/
structure LocalTime where
  year : ℕ
  month : ℕ
  day : ℕ
  hour : ℕ
  min : ℕ
  year_mem : 1970 ≤ year ∧ year ≤ 2050
  month_mem : 1 ≤ month ∧ month ≤ 12
  day_mem : 1 ≤ day ∧ day ≤ 31
  hour_lt : hour < 24
  min_lt : min < 60

/-- The formats of a time rule. -/
inductive TimeType : Type where
  | ymdhm
  | ymd
  | hm
  deriving DecidableEq

/-- The fields of one end of a time rule. Those that its format does not have are not
read. -/
structure TimeInfo where
  year : ℕ := 0
  month : ℕ := 0
  day : ℕ := 0
  hour : ℕ := 0
  min : ℕ := 0
  deriving DecidableEq

/-! ## The rule of the manager -/

namespace TimeRule

/-- The pattern of `rule_format_type_map`: a field of digits, and further ones each after a
separator. -/
def regexp : TimeType → ℕ × List (Char × ℕ)
  | .ymdhm => (4, [('-', 2), ('-', 2), (' ', 2), (':', 2)])
  | .ymd => (4, [('-', 2), ('-', 2)])
  | .hm => (2, [(':', 2)])

/-- The captures of the pattern at the beginning of a text, and what follows them. -/
def matchAt (t : TimeType) (s : Text) : Option (List Text × Text) :=
  capture (regexp t).1 (regexp t).2 s

/-- The pattern matches the whole text. -/
def matchesWhole (t : TimeType) (s : Text) : Bool :=
  match matchAt t s with
  | some (_, []) => true
  | _ => false

/-- The longest match of `(.*)/(.+)`. -/
def splitGreedy : Text → Option (Text × Text)
  | [] => none
  | c :: s =>
    match splitGreedy s with
    | some p => some (c :: p.1, p.2)
    | none => if c = '/' ∧ s ≠ [] then some ([], s) else none

/-- `string.match(rule, '(.+)/(.+)')`. -/
def splitSlash : Text → Option (Text × Text)
  | [] => none
  | c :: s => (splitGreedy s).map fun p => (c :: p.1, p.2)

/-- `time_rule.get_format_type`. -/
def getFormatType (rule : Text) : Option TimeType :=
  match splitSlash rule with
  | none => none
  | some (startTime, endTime) =>
    if matchesWhole .ymdhm startTime && matchesWhole .ymdhm endTime then some .ymdhm
    else if matchesWhole .ymd startTime && matchesWhole .ymd endTime then some .ymd
    else if matchesWhole .hm startTime && matchesWhole .hm endTime then some .hm
    else none

/-- The table that `convert_time_str` makes of the captures. -/
def toInfo : List Text → TimeInfo
  | [y, mo, d, h, mi] => ⟨number y, number mo, number d, number h, number mi⟩
  | [y, mo, d] => { year := number y, month := number mo, day := number d }
  | [h, mi] => { hour := number h, min := number mi }
  | _ => {}

/-- `time_rule.convert_time_str`: the first place where the pattern matches. -/
def convertTimeStr (t : TimeType) (s : Text) : TimeInfo :=
  match s.tails.findSome? (matchAt t) with
  | some (captures, _) => toInfo captures
  | none => {}

/-- `time_rule.get_time_info`. -/
def getTimeInfo (t : TimeType) (rule : Text) : TimeInfo × TimeInfo :=
  match splitSlash rule with
  | some (startTime, endTime) => (convertTimeStr t startTime, convertTimeStr t endTime)
  | none => ({}, {})

/-- `time_rule.is_valid_date`. -/
def isValidDate (i : TimeInfo) : Bool :=
  let maxDay :=
    if i.month ∈ [1, 3, 5, 7, 8, 10, 12] then 31
    else if i.month = 2 then
      if i.year % 4 = 0 ∧ i.year % 100 ≠ 0 ∨ i.year % 400 = 0 then 29 else 28
    else 30
  decide (1970 ≤ i.year ∧ i.year ≤ 2050 ∧ 1 ≤ i.month ∧ i.month ≤ 12
    ∧ 0 < i.day ∧ i.day ≤ maxDay)

/-- `time_rule.is_valid_time`. -/
def isValidTime (i : TimeInfo) : Bool :=
  decide (i.hour ≤ 23 ∧ i.min ≤ 59)

/-- The number of `%04d%02d%02d%02d%02d`. -/
def stampYmdhm (i : TimeInfo) : ℕ :=
  number (padded 4 i.year ++ padded 2 i.month ++ padded 2 i.day ++ padded 2 i.hour
    ++ padded 2 i.min)

/-- The number of `%04d%02d%02d`. -/
def stampYmd (i : TimeInfo) : ℕ :=
  number (padded 4 i.year ++ padded 2 i.month ++ padded 2 i.day)

/-- The number of `%02d%02d`. -/
def stampHm (i : TimeInfo) : ℕ :=
  number (padded 2 i.hour ++ padded 2 i.min)

/-- The common form of the checks of a format: both ends are valid, and the start is before
the end. -/
def checkFormatWith (t : TimeType) (valid : TimeInfo → Bool) (stamp : TimeInfo → ℕ)
    (rule : Text) : Bool :=
  let (startTimeInfo, endTimeInfo) := getTimeInfo t rule
  valid startTimeInfo && valid endTimeInfo && decide (stamp startTimeInfo < stamp endTimeInfo)

/-- `time_rule.check_format_ymdhm`. -/
def checkFormatYmdhm : Text → Bool :=
  checkFormatWith .ymdhm (fun i => isValidDate i && isValidTime i) stampYmdhm

/-- `time_rule.check_format_ymd`. -/
def checkFormatYmd : Text → Bool :=
  checkFormatWith .ymd isValidDate stampYmd

/-- `time_rule.check_format_hm`. -/
def checkFormatHm : Text → Bool :=
  checkFormatWith .hm isValidTime stampHm

/-- `time_rule.check_format`. -/
def checkFormat (rule : Text) : Bool :=
  if rule.length = 0 then true
  else if 33 < rule.length then false
  else match getFormatType rule with
    | none => false
    | some .ymdhm => checkFormatYmdhm rule
    | some .ymd => checkFormatYmd rule
    | some .hm => checkFormatHm rule

/-- The fields of `os.date`. -/
def nowInfo (now : LocalTime) : TimeInfo :=
  ⟨now.year, now.month, now.day, now.hour, now.min⟩

/-- The common form of `check_rule_ymdhm` and `check_rule_ymd`. -/
def checkRuleWith (t : TimeType) (stamp : TimeInfo → ℕ) (now : LocalTime) (rule : Text) :
    Bool :=
  let (startTimeInfo, endTimeInfo) := getTimeInfo t rule
  decide (stamp startTimeInfo ≤ stamp (nowInfo now))
    && decide (stamp (nowInfo now) ≤ stamp endTimeInfo)

/-- `time_rule.check_rule_ymdhm`. -/
def checkRuleYmdhm : LocalTime → Text → Bool :=
  checkRuleWith .ymdhm stampYmdhm

/-- `time_rule.check_rule_ymd`. -/
def checkRuleYmd : LocalTime → Text → Bool :=
  checkRuleWith .ymd stampYmd

/-- `time_rule.check_rule_hm`: a start after the end means a range over midnight. -/
def checkRuleHm (now : LocalTime) (rule : Text) : Bool :=
  let (startTimeInfo, endTimeInfo) := getTimeInfo .hm rule
  let current := stampHm (nowInfo now)
  if stampHm startTimeInfo < stampHm endTimeInfo then
    decide (stampHm startTimeInfo ≤ current) && decide (current ≤ stampHm endTimeInfo)
  else decide (stampHm startTimeInfo ≤ current) || decide (current ≤ stampHm endTimeInfo)

/-- `time_rule:check_rule`. -/
def checkRule (now : LocalTime) (rule : Text) : Bool :=
  if rule.length = 0 then true
  else match getFormatType rule with
    | some .ymdhm => checkRuleYmdhm now rule
    | some .ymd => checkRuleYmd now rule
    | some .hm => checkRuleHm now rule
    | none => false

end TimeRule

/-- An object of the class `time_rule`: the constructor and `set_rule` check the format. -/
structure LoginTimeRule where
  rule : Text
  valid : TimeRule.checkFormat rule = true

/-- A range of dates that begins before the year 2048 and does not end before it. -/
def Straddles (rule : Text) : Prop :=
  TimeRule.getFormatType rule = some .ymd
    ∧ (TimeRule.getTimeInfo .ymd rule).1.year < 2048
    ∧ 2048 ≤ (TimeRule.getTimeInfo .ymd rule).2.year

instance (rule : Text) : Decidable (Straddles rule) :=
  inferInstanceAs (Decidable (_ ∧ _ ∧ _))

/-! ## The check of the PAM modules -/

/-- The return codes of the check. -/
inductive Ret : Type where
  | ok
  | err
  | userLoginLimited
  deriving DecidableEq

namespace CheckLoginRule

/-- `TIME_RULE_INFO`. -/
structure TimeRuleInfo where
  startTime : TimeInfo
  endTime : TimeInfo

/-- The lower `w` bits of an integer. -/
def lowBits (w : ℕ) (n : ℤ) : ℕ :=
  (n % 2 ^ w).toNat

/-- `timestr_to_numeric`: ten conversions. -/
def timestrToNumeric (s : Text) : Option TimeRuleInfo :=
  match scanInts ['-', '-', ' ', ':', '/', '-', '-', ' ', ':'] s with
  | some [y, mo, d, h, mi, y', mo', d', h', mi'] =>
    some ⟨⟨lowBits 16 y, lowBits 8 mo, lowBits 8 d, lowBits 8 h, lowBits 8 mi⟩,
      ⟨lowBits 16 y', lowBits 8 mo', lowBits 8 d', lowBits 8 h', lowBits 8 mi'⟩⟩
  | _ => none

/-- `parse_time_ymdhm`. -/
def parseTimeYmdhm (month day hour min : ℕ) : ℕ :=
  (month % 256) <<< 24 + (day % 256) <<< 16 + (hour % 256) <<< 8 + min % 256

/-- `parse_time_ymd`: the year is cut to a byte as well. -/
def parseTimeYmd (year month day : ℕ) : ℕ :=
  (year % 256) <<< 16 + (month % 256) <<< 8 + day % 256

/-- `parse_time_hm`. -/
def parseTimeHm (hour min : ℕ) : ℕ :=
  (hour % 256) <<< 8 + min % 256

/-- `check_ymdhm`. -/
def checkYmdhm (now : LocalTime) (r : TimeRuleInfo) : Ret :=
  let nowTmp := parseTimeYmdhm now.month now.day now.hour now.min
  let startTmp := parseTimeYmdhm r.startTime.month r.startTime.day r.startTime.hour
    r.startTime.min
  let endTmp := parseTimeYmdhm r.endTime.month r.endTime.day r.endTime.hour r.endTime.min
  if now.year < r.startTime.year ∨ r.endTime.year < now.year then .err
  else if now.year = r.startTime.year ∧ nowTmp < startTmp then .err
  else if now.year = r.endTime.year ∧ endTmp < nowTmp then .err
  else .ok

/-- `check_ymd`. -/
def checkYmd (now : LocalTime) (r : TimeRuleInfo) : Ret :=
  let nowTmp := parseTimeYmd now.year now.month now.day
  let startTmp := parseTimeYmd r.startTime.year r.startTime.month r.startTime.day
  let endTmp := parseTimeYmd r.endTime.year r.endTime.month r.endTime.day
  if nowTmp < startTmp ∨ endTmp < nowTmp then .err else .ok

/-- `check_hm`. -/
def checkHm (now : LocalTime) (r : TimeRuleInfo) : Ret :=
  let nowTmp := parseTimeHm now.hour now.min
  let startTmp := parseTimeHm r.startTime.hour r.startTime.min
  let endTmp := parseTimeHm r.endTime.hour r.endTime.min
  if nowTmp < startTmp ∨ endTmp < nowTmp then .err else .ok

/-- `check_time_rule`: the length of the text tells its format. The buffer of 64 bytes has
room for each of the three texts that are put together in it. -/
def checkTimeRule (now : LocalTime) (timeRule : Text) : Ret :=
  if timeRule.length = 0 then .ok
  else if timeRule.length % 256 = 33 then
    match timestrToNumeric timeRule with
    | some r => checkYmdhm now r
    | none => .err
  else if timeRule.length % 256 = 21 then
    match timestrToNumeric
        (timeRule.take 10 ++ " 255:255".toList ++ timeRule.drop 10 ++ " 255:255".toList) with
    | some r => checkYmd now r
    | none => .err
  else if timeRule.length % 256 = 11 then
    match timestrToNumeric (("65535-255-255 ".toList ++ timeRule).take 20
        ++ "65535-255-255 ".toList ++ timeRule.drop 6) with
    | some r => checkHm now r
    | none => .err
  else .err

end CheckLoginRule

/-! ## Reading a rule -/

namespace TimeRule

/-- The separators of a format. -/
def seps (t : TimeType) : List Char :=
  (regexp t).2.map Prod.fst

/-- The widths of the fields of a format. -/
def widths (t : TimeType) : List ℕ :=
  (regexp t).1 :: (regexp t).2.map Prod.snd

theorem splitGreedy_eq_some {s a b : Text} (h : splitGreedy s = some (a, b)) :
  s = a ++ '/' :: b
  := by
  induction s generalizing a with
  | nil => simp [splitGreedy] at h
  | cons c s ih =>
    simp only [splitGreedy] at h
    split at h
    next p hp =>
      simp only [Option.some.injEq, Prod.mk.injEq] at h
      obtain ⟨rfl, rfl⟩ := h
      rw [List.cons_append, ← ih hp]
    next =>
      split_ifs at h with hc
      simp only [Option.some.injEq, Prod.mk.injEq] at h
      obtain ⟨rfl, rfl⟩ := h
      rw [hc.1, List.nil_append]

theorem splitSlash_eq_some {s a b : Text} (h : splitSlash s = some (a, b)) :
  s = a ++ '/' :: b
  := by
  cases s with
  | nil => simp [splitSlash] at h
  | cons c s =>
    simp only [splitSlash, Option.map_eq_some_iff, Prod.mk.injEq, Prod.exists] at h
    obtain ⟨a', b', hs, rfl, rfl⟩ := h
    rw [List.cons_append, ← splitGreedy_eq_some hs]

/-- A text that a pattern matches is the text of its captures. -/
theorem eq_of_matchesWhole {t : TimeType} {s : Text} (h : matchesWhole t s = true) :
  ∃ fs, s = joinWith (seps t) fs ∧ DigitFields (widths t) fs ∧ convertTimeStr t s = toInfo fs
  := by
  unfold matchesWhole at h
  split at h
  next fs hm =>
    obtain ⟨hs, hfs⟩ := capture_eq_some hm
    refine ⟨fs, by simpa [seps] using hs, hfs, ?_⟩
    have hfind : s.tails.findSome? (matchAt t) = some (fs, []) := by
      cases s with
      | nil => simp [hm]
      | cons c s => simp [hm]
    rw [convertTimeStr, hfind]
  next => simp at h

/-- What a rule in one of the formats is. -/
theorem getFormatType_eq_some {rule : Text} {t : TimeType} (h : getFormatType rule = some t) :
  ∃ a b, rule = joinWith (seps t) a ++ '/' :: joinWith (seps t) b
    ∧ DigitFields (widths t) a ∧ DigitFields (widths t) b
    ∧ getTimeInfo t rule = (toInfo a, toInfo b)
  := by
  unfold getFormatType at h
  split at h
  case h_1 => simp at h
  case h_2 startTime endTime hsplit =>
    have hboth : matchesWhole t startTime = true ∧ matchesWhole t endTime = true := by
      split_ifs at h with h₁ h₂ h₃ <;> simp only [Option.some.injEq] at h <;> subst h
      · simpa using h₁
      · simpa using h₂
      · simpa using h₃
    obtain ⟨a, rfl, hda, hia⟩ := eq_of_matchesWhole hboth.1
    obtain ⟨b, rfl, hdb, hib⟩ := eq_of_matchesWhole hboth.2
    refine ⟨a, b, splitSlash_eq_some hsplit, hda, hdb, ?_⟩
    rw [getTimeInfo, hsplit]
    simp only [hia, hib]

/-! ## The numbers that are compared -/

/-- The fields of a time have as many digits as their formats give them. -/
structure Bounded (i : TimeInfo) : Prop where
  year : i.year < 10000
  month : i.month < 100
  day : i.day < 100
  hour : i.hour < 100
  min : i.min < 100

theorem bounded_nowInfo (now : LocalTime) :
  Bounded (nowInfo now)
  := by
  have := now.year_mem
  have := now.month_mem
  have := now.day_mem
  have := now.hour_lt
  have := now.min_lt
  constructor <;> simp only [nowInfo] <;> omega

theorem stampYmdhm_eq {i : TimeInfo} (h : Bounded i) :
  stampYmdhm i = horner 100 i.year [i.month, i.day, i.hour, i.min]
  := by
  unfold stampYmdhm
  rw [number_append_padded _ (by decide) h.min, number_append_padded _ (by decide) h.hour,
    number_append_padded _ (by decide) h.day, number_append_padded _ (by decide) h.month,
    number_padded]
  rfl

theorem stampYmd_eq {i : TimeInfo} (h : Bounded i) :
  stampYmd i = horner 100 i.year [i.month, i.day]
  := by
  unfold stampYmd
  rw [number_append_padded _ (by decide) h.day, number_append_padded _ (by decide) h.month,
    number_padded]
  rfl

theorem stampHm_eq {i : TimeInfo} (h : Bounded i) :
  stampHm i = horner 100 i.hour [i.min]
  := by
  unfold stampHm
  rw [number_append_padded _ (by decide) h.min, number_padded]
  rfl

theorem stampYmdhm_le_iff {i j : TimeInfo} (hi : Bounded i) (hj : Bounded j) :
  stampYmdhm i ≤ stampYmdhm j ↔
    i.year < j.year ∨ i.year = j.year
      ∧ LexLe [i.month, i.day, i.hour, i.min] [j.month, j.day, j.hour, j.min]
  := by
  rw [stampYmdhm_eq hi, stampYmdhm_eq hj]
  refine horner_le_iff (by rfl) ?_ ?_
  · simp [hi.month, hi.day, hi.hour, hi.min]
  · simp [hj.month, hj.day, hj.hour, hj.min]

theorem stampYmd_le_iff {i j : TimeInfo} (hi : Bounded i) (hj : Bounded j) :
  stampYmd i ≤ stampYmd j ↔ LexLe [i.year, i.month, i.day] [j.year, j.month, j.day]
  := by
  rw [stampYmd_eq hi, stampYmd_eq hj]
  refine horner_le_iff (by rfl) ?_ ?_
  · simp [hi.month, hi.day]
  · simp [hj.month, hj.day]

theorem stampHm_le_iff {i j : TimeInfo} (hi : Bounded i) (hj : Bounded j) :
  stampHm i ≤ stampHm j ↔ LexLe [i.hour, i.min] [j.hour, j.min]
  := by
  rw [stampHm_eq hi, stampHm_eq hj]
  refine horner_le_iff (by rfl) ?_ ?_
  · simp [hi.min]
  · simp [hj.min]

end TimeRule

namespace CheckLoginRule

open TimeRule

theorem parseTimeYmdhm_eq (month day hour min : ℕ) :
  parseTimeYmdhm month day hour min
    = horner 256 (month % 256) [day % 256, hour % 256, min % 256]
  := by
  simp only [parseTimeYmdhm, Nat.shiftLeft_eq, horner, List.foldl_cons, List.foldl_nil]
  omega

theorem parseTimeYmd_eq (year month day : ℕ) :
  parseTimeYmd year month day = horner 256 (year % 256) [month % 256, day % 256]
  := by
  simp only [parseTimeYmd, Nat.shiftLeft_eq, horner, List.foldl_cons, List.foldl_nil]
  omega

theorem parseTimeHm_eq (hour min : ℕ) :
  parseTimeHm hour min = horner 256 (hour % 256) [min % 256]
  := by
  simp only [parseTimeHm, Nat.shiftLeft_eq, horner, List.foldl_cons, List.foldl_nil]
  omega

theorem parseTimeYmdhm_le_iff {i j : TimeInfo} (hi : Bounded i) (hj : Bounded j) :
  parseTimeYmdhm i.month i.day i.hour i.min ≤ parseTimeYmdhm j.month j.day j.hour j.min ↔
    LexLe [i.month, i.day, i.hour, i.min] [j.month, j.day, j.hour, j.min]
  := by
  obtain ⟨-, h₁, h₂, h₃, h₄⟩ := hi
  obtain ⟨-, k₁, k₂, k₃, k₄⟩ := hj
  rw [parseTimeYmdhm_eq, parseTimeYmdhm_eq]
  simp (disch := omega) only [Nat.mod_eq_of_lt]
  refine horner_le_iff (by rfl) ?_ ?_
  · simp; omega
  · simp; omega

theorem parseTimeYmd_le_iff {i j : TimeInfo} (hi : Bounded i) (hj : Bounded j) :
  parseTimeYmd i.year i.month i.day ≤ parseTimeYmd j.year j.month j.day ↔
    LexLe [i.year % 256, i.month, i.day] [j.year % 256, j.month, j.day]
  := by
  obtain ⟨-, h₁, h₂, -, -⟩ := hi
  obtain ⟨-, k₁, k₂, -, -⟩ := hj
  rw [parseTimeYmd_eq, parseTimeYmd_eq, Nat.mod_eq_of_lt (a := i.month) (by omega),
    Nat.mod_eq_of_lt (a := i.day) (by omega), Nat.mod_eq_of_lt (a := j.month) (by omega),
    Nat.mod_eq_of_lt (a := j.day) (by omega)]
  refine horner_le_iff (by rfl) ?_ ?_
  · simp; omega
  · simp; omega

theorem parseTimeHm_le_iff {i j : TimeInfo} (hi : Bounded i) (hj : Bounded j) :
  parseTimeHm i.hour i.min ≤ parseTimeHm j.hour j.min ↔
    LexLe [i.hour, i.min] [j.hour, j.min]
  := by
  obtain ⟨-, -, -, h₃, h₄⟩ := hi
  obtain ⟨-, -, -, k₃, k₄⟩ := hj
  rw [parseTimeHm_eq, parseTimeHm_eq]
  simp (disch := omega) only [Nat.mod_eq_of_lt]
  refine horner_le_iff (by rfl) ?_ ?_
  · simp; omega
  · simp; omega

/-! ## Reading a rule by its length -/

theorem lowBits_natCast (w n : ℕ) :
  lowBits w n = n % 2 ^ w
  := by
  unfold lowBits
  norm_cast

/-- The ten conversions on a text of ten fields. -/
theorem timestrToNumeric_joinWith {ws : List ℕ} {y mo d h mi y' mo' d' h' mi' : Text}
    (hf : DigitFields ws [y, mo, d, h, mi, y', mo', d', h', mi']) (hpos : ∀ w ∈ ws, 0 < w) :
  timestrToNumeric (joinWith ['-', '-', ' ', ':', '/', '-', '-', ' ', ':']
      [y, mo, d, h, mi, y', mo', d', h', mi'])
    = some ⟨⟨number y % 2 ^ 16, number mo % 2 ^ 8, number d % 2 ^ 8, number h % 2 ^ 8,
          number mi % 2 ^ 8⟩,
        ⟨number y' % 2 ^ 16, number mo' % 2 ^ 8, number d' % 2 ^ 8, number h' % 2 ^ 8,
          number mi' % 2 ^ 8⟩⟩
  := by
  have hne : ∀ f ∈ [y, mo, d, h, mi, y', mo', d', h', mi'], f ≠ [] := by
    rintro f hmem rfl
    have : (0 : ℕ) ∈ ws := hf.widths_eq ▸ List.mem_map.mpr ⟨[], hmem, rfl⟩
    exact absurd (hpos 0 this) (by decide)
  have hseps : (['-', '-', ' ', ':', '/', '-', '-', ' ', ':'].all fun c => !c.isDigit) = true := by
    decide
  have hscan := scanInts_joinWith ['-', '-', ' ', ':', '/', '-', '-', ' ', ':']
    (by rfl) hne hf.isDigit fun c hc => by simpa using List.all_eq_true.mp hseps c hc
  unfold timestrToNumeric
  rw [hscan]
  simp only [List.map_cons, List.map_nil, lowBits_natCast]

theorem digitFields_255 :
  DigitFields [3, 3] ["255".toList, "255".toList]
  :=
  .of_all (by decide) (by decide)

theorem digitFields_65535 :
  DigitFields [5, 3, 3] ["65535".toList, "255".toList, "255".toList]
  :=
  .of_all (by decide) (by decide)

/-! ## The three comparisons -/

theorem checkYmdhm_eq_ok_iff {now : LocalTime} {s e : TimeInfo} (hs : Bounded s)
    (he : Bounded e) :
  checkYmdhm now ⟨s, e⟩ = .ok ↔
    stampYmdhm s ≤ stampYmdhm (nowInfo now) ∧ stampYmdhm (nowInfo now) ≤ stampYmdhm e
  := by
  have hn := bounded_nowInfo now
  have h₁ := parseTimeYmdhm_le_iff hs hn
  have h₂ := parseTimeYmdhm_le_iff hn he
  rw [stampYmdhm_le_iff hs hn, stampYmdhm_le_iff hn he, ← h₁, ← h₂]
  simp only [checkYmdhm, nowInfo]
  split_ifs <;> simp <;> omega

/-- The comparison of dates: the year in a byte orders the years before 2048 and those from
2048 on, with the latter in front of the former. -/
theorem checkYmd_eq_ok_iff {now : LocalTime} {s e : TimeInfo} (hs : Bounded s) (he : Bounded e)
    (hsy : 1970 ≤ s.year ∧ s.year ≤ 2050) (hey : 1970 ≤ e.year ∧ e.year ≤ 2050)
    (hlt : stampYmd s < stampYmd e) :
  checkYmd now ⟨s, e⟩ = .ok ↔
    (stampYmd s ≤ stampYmd (nowInfo now) ∧ stampYmd (nowInfo now) ≤ stampYmd e)
      ∧ ¬ (s.year < 2048 ∧ 2048 ≤ e.year)
  := by
  have hn := bounded_nowInfo now
  have hny := now.year_mem
  have h₁ := parseTimeYmd_le_iff hs hn
  have h₂ := parseTimeYmd_le_iff hn he
  have hle := (stampYmd_le_iff hs he).mp hlt.le
  rw [stampYmd_le_iff hs hn, stampYmd_le_iff hn he]
  have hc : checkYmd now ⟨s, e⟩ = .ok ↔
      LexLe [s.year % 256, s.month, s.day] [now.year % 256, now.month, now.day]
        ∧ LexLe [now.year % 256, now.month, now.day] [e.year % 256, e.month, e.day] := by
    simp only [nowInfo] at h₁ h₂
    rw [← h₁, ← h₂]
    simp only [checkYmd]
    split_ifs <;> simp <;> omega
  rw [hc]
  simp only [LexLe, nowInfo, and_true] at hle ⊢
  omega

theorem checkHm_eq_ok_iff {now : LocalTime} {s e : TimeInfo} (hs : Bounded s) (he : Bounded e) :
  checkHm now ⟨s, e⟩ = .ok ↔
    stampHm s ≤ stampHm (nowInfo now) ∧ stampHm (nowInfo now) ≤ stampHm e
  := by
  have hn := bounded_nowInfo now
  rw [stampHm_le_iff hs hn, stampHm_le_iff hn he, ← parseTimeHm_le_iff hs hn,
    ← parseTimeHm_le_iff hn he]
  simp only [checkHm, nowInfo]
  split_ifs <;> simp <;> omega

/-! ## The two checks on a rule that is accepted -/

theorem fields_ymdhm {fs : List Text} (hfs : DigitFields (widths .ymdhm) fs) :
  ∃ y mo d h mi, fs = [y, mo, d, h, mi] ∧ y.length = 4 ∧ mo.length = 2 ∧ d.length = 2
    ∧ h.length = 2 ∧ mi.length = 2
  := by
  have hw := hfs.widths_eq
  simp only [widths, regexp, List.map_cons, List.map_nil, List.map_eq_cons_iff,
    List.map_eq_nil_iff] at hw
  obtain ⟨y, _, rfl, hy, mo, _, rfl, hmo, d, _, rfl, hd, h, _, rfl, hh, mi, _, rfl, hmi, rfl⟩ := hw
  exact ⟨y, mo, d, h, mi, rfl, hy, hmo, hd, hh, hmi⟩

theorem fields_ymd {fs : List Text} (hfs : DigitFields (widths .ymd) fs) :
  ∃ y mo d, fs = [y, mo, d] ∧ y.length = 4 ∧ mo.length = 2 ∧ d.length = 2
  := by
  have hw := hfs.widths_eq
  simp only [widths, regexp, List.map_cons, List.map_nil, List.map_eq_cons_iff,
    List.map_eq_nil_iff] at hw
  obtain ⟨y, _, rfl, hy, mo, _, rfl, hmo, d, _, rfl, hd, rfl⟩ := hw
  exact ⟨y, mo, d, rfl, hy, hmo, hd⟩

theorem fields_hm {fs : List Text} (hfs : DigitFields (widths .hm) fs) :
  ∃ h mi, fs = [h, mi] ∧ h.length = 2 ∧ mi.length = 2
  := by
  have hw := hfs.widths_eq
  simp only [widths, regexp, List.map_cons, List.map_nil, List.map_eq_cons_iff,
    List.map_eq_nil_iff] at hw
  obtain ⟨h, _, rfl, hh, mi, _, rfl, hmi, rfl⟩ := hw
  exact ⟨h, mi, rfl, hh, hmi⟩

theorem bounded_toInfo {t : TimeType} {fs : List Text} (h : DigitFields (widths t) fs) :
  Bounded (toInfo fs)
  := by
  have hlt : ∀ f ∈ fs, number f < 10 ^ f.length := fun f hf => h.number_lt hf
  cases t with
  | ymdhm =>
    obtain ⟨y, mo, d, h, mi, rfl, hy, hmo, hd, hh, hmi⟩ := fields_ymdhm h
    simp only [List.mem_cons, List.not_mem_nil, or_false, forall_eq_or_imp, forall_eq, hy, hmo,
      hd, hh, hmi] at hlt
    exact ⟨hlt.1, hlt.2.1, hlt.2.2.1, hlt.2.2.2.1, hlt.2.2.2.2⟩
  | ymd =>
    obtain ⟨y, mo, d, rfl, hy, hmo, hd⟩ := fields_ymd h
    simp only [List.mem_cons, List.not_mem_nil, or_false, forall_eq_or_imp, forall_eq, hy, hmo,
      hd] at hlt
    exact ⟨hlt.1, hlt.2.1, hlt.2.2, Nat.succ_pos _, Nat.succ_pos _⟩
  | hm =>
    obtain ⟨h, mi, rfl, hh, hmi⟩ := fields_hm h
    simp only [List.mem_cons, List.not_mem_nil, or_false, forall_eq_or_imp, forall_eq, hh,
      hmi] at hlt
    exact ⟨Nat.succ_pos _, Nat.succ_pos _, Nat.succ_pos _, hlt.1, hlt.2⟩

theorem bounded_getTimeInfo {rule : Text} {t : TimeType} (h : getFormatType rule = some t) :
  Bounded (getTimeInfo t rule).1 ∧ Bounded (getTimeInfo t rule).2
  := by
  obtain ⟨a, b, -, ha, hb, hinfo⟩ := getFormatType_eq_some h
  rw [hinfo]
  exact ⟨bounded_toInfo ha, bounded_toInfo hb⟩

theorem checkTimeRule_ymdhm {rule : Text} (ht : getFormatType rule = some .ymdhm)
    (now : LocalTime) :
  checkTimeRule now rule
    = checkYmdhm now ⟨(getTimeInfo .ymdhm rule).1, (getTimeInfo .ymdhm rule).2⟩
  := by
  obtain ⟨a, b, rfl, ha, hb, hinfo⟩ := getFormatType_eq_some ht
  have hba := bounded_toInfo ha
  have hbb := bounded_toInfo hb
  have hf := ha.append hb
  obtain ⟨y, mo, d, h, mi, rfl, hy, hmo, hd, hh, hmi⟩ := fields_ymdhm ha
  obtain ⟨y', mo', d', h', mi', rfl, hy', hmo', hd', hh', hmi'⟩ := fields_ymdhm hb
  have hnum := timestrToNumeric_joinWith hf (by decide)
  obtain ⟨h₁, h₂, h₃, h₄, h₅⟩ := hba
  obtain ⟨k₁, k₂, k₃, k₄, k₅⟩ := hbb
  simp only [toInfo] at h₁ h₂ h₃ h₄ h₅ k₁ k₂ k₃ k₄ k₅
  simp (disch := omega) only [Nat.mod_eq_of_lt] at hnum
  rw [hinfo]
  simp only [joinWith, seps, regexp, List.map_cons, List.map_nil, List.append_assoc,
    List.cons_append] at hnum ⊢
  unfold checkTimeRule
  rw [if_neg (by simp), if_pos (by simp; omega), hnum]
  rfl

/-- The hours that are filled in are not read. -/
theorem checkTimeRule_ymd {rule : Text} (ht : getFormatType rule = some .ymd)
    (now : LocalTime) :
  checkTimeRule now rule
    = checkYmd now ⟨(getTimeInfo .ymd rule).1, (getTimeInfo .ymd rule).2⟩
  := by
  obtain ⟨a, b, rfl, ha, hb, hinfo⟩ := getFormatType_eq_some ht
  have hba := bounded_toInfo ha
  have hbb := bounded_toInfo hb
  have hf := (ha.append digitFields_255).append (hb.append digitFields_255)
  obtain ⟨y, mo, d, rfl, hy, hmo, hd⟩ := fields_ymd ha
  obtain ⟨y', mo', d', rfl, hy', hmo', hd'⟩ := fields_ymd hb
  have hnum := timestrToNumeric_joinWith hf (by decide)
  obtain ⟨h₁, h₂, h₃, -, -⟩ := hba
  obtain ⟨k₁, k₂, k₃, -, -⟩ := hbb
  simp only [toInfo] at h₁ h₂ h₃ k₁ k₂ k₃
  simp (disch := omega) only [Nat.mod_eq_of_lt] at hnum
  rw [hinfo]
  have hlen : (joinWith (seps .ymd) [y, mo, d]).length = 10 := by
    simp [joinWith, seps, regexp]
    omega
  have h255 : " 255:255".toList = ' ' :: joinWith [':'] ["255".toList, "255".toList] := by
    decide
  unfold checkTimeRule
  rw [List.take_left' hlen, List.drop_left' hlen, h255]
  simp only [joinWith, seps, regexp, List.map_cons, List.map_nil, List.append_assoc,
    List.cons_append] at hnum ⊢
  rw [if_neg (by simp), if_neg (by simp; omega), if_pos (by simp; omega), hnum]
  rfl

/-- The dates that are filled in are not read. -/
theorem checkTimeRule_hm {rule : Text} (ht : getFormatType rule = some .hm)
    (now : LocalTime) :
  checkTimeRule now rule
    = checkHm now ⟨(getTimeInfo .hm rule).1, (getTimeInfo .hm rule).2⟩
  := by
  obtain ⟨a, b, rfl, ha, hb, hinfo⟩ := getFormatType_eq_some ht
  have hba := bounded_toInfo ha
  have hbb := bounded_toInfo hb
  have hf := (digitFields_65535.append ha).append (digitFields_65535.append hb)
  obtain ⟨h, mi, rfl, hh, hmi⟩ := fields_hm ha
  obtain ⟨h', mi', rfl, hh', hmi'⟩ := fields_hm hb
  have hnum := timestrToNumeric_joinWith hf (by decide)
  obtain ⟨-, -, -, h₄, h₅⟩ := hba
  obtain ⟨-, -, -, k₄, k₅⟩ := hbb
  simp only [toInfo] at h₄ h₅ k₄ k₅
  simp (disch := omega) only [Nat.mod_eq_of_lt] at hnum
  rw [hinfo]
  have hfill : "65535-255-255 ".toList
      = joinWith ['-', '-'] ["65535".toList, "255".toList, "255".toList] ++ [' '] := by
    decide
  have hlen : (joinWith (seps .hm) [h, mi] ++ ['/']).length = 6 := by
    simp [joinWith, seps, regexp]
    omega
  have hsplit : joinWith (seps .hm) [h, mi] ++ '/' :: joinWith (seps .hm) [h', mi']
      = (joinWith (seps .hm) [h, mi] ++ ['/']) ++ joinWith (seps .hm) [h', mi'] := by
    simp
  have htake : ("65535-255-255 ".toList ++ (joinWith (seps .hm) [h, mi] ++ ['/']
        ++ joinWith (seps .hm) [h', mi'])).take 20
      = "65535-255-255 ".toList ++ (joinWith (seps .hm) [h, mi] ++ ['/']) := by
    rw [← List.append_assoc]
    apply List.take_left'
    rw [List.length_append, hlen]
    rfl
  unfold checkTimeRule
  rw [hsplit, htake, List.drop_left' hlen, hfill]
  simp only [joinWith, seps, regexp, List.map_cons, List.map_nil, List.append_assoc,
    List.cons_append, List.nil_append] at hnum ⊢
  rw [if_neg (by simp), if_neg (by simp; omega), if_neg (by simp; omega),
    if_pos (by simp; omega), hnum]
  rfl

/-- The two checks of a time rule that the setter accepts. -/
theorem checkTimeRule_eq_ok_iff (r : LoginTimeRule) (now : LocalTime) :
  checkTimeRule now r.rule = .ok ↔ TimeRule.checkRule now r.rule = true ∧ ¬ Straddles r.rule
  := by
  obtain ⟨rule, hvalid⟩ := r
  unfold checkFormat at hvalid
  unfold Straddles TimeRule.checkRule
  split_ifs at hvalid with h0 h33
  · rw [if_pos h0]
    obtain rfl := List.length_eq_zero_iff.mp h0
    simp [checkTimeRule, getFormatType, splitSlash]
  · rw [if_neg h0]
    cases ht : getFormatType rule with
    | none => simp [ht] at hvalid
    | some t =>
      obtain ⟨hs, he⟩ := bounded_getTimeInfo ht
      cases t with
      | ymdhm =>
        rw [checkTimeRule_ymdhm ht, checkYmdhm_eq_ok_iff hs he]
        simp [checkRuleYmdhm, checkRuleWith]
      | ymd =>
        simp only [ht, checkFormatYmd, checkFormatWith, isValidDate, Bool.and_eq_true,
          decide_eq_true_eq] at hvalid
        obtain ⟨⟨⟨hs₁, hs₂, -⟩, he₁, he₂, -⟩, hlt⟩ := hvalid
        rw [checkTimeRule_ymd ht, checkYmd_eq_ok_iff hs he ⟨hs₁, hs₂⟩ ⟨he₁, he₂⟩ hlt]
        simp [checkRuleYmd, checkRuleWith]
      | hm =>
        simp only [ht, checkFormatHm, checkFormatWith, Bool.and_eq_true,
          decide_eq_true_eq] at hvalid
        rw [checkTimeRule_hm ht, checkHm_eq_ok_iff hs he]
        simp [checkRuleHm, hvalid.2]

end CheckLoginRule

end LoginRule

end BmcAccount
