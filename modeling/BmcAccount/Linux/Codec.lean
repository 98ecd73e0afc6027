import BmcAccount.Linux.Files
import BmcAccount.Lib.LuaNumber

/-!
# The lines of the account files

Each of the four files has its own way to read the fields of a line into a table and to write a
table as a line. Here the numbers of the fields are those of Lua, with the integers of 64 bits.

A line is written as it has been read, but for two things. Numbers that are no integers of 64 bits
are written in another way, and `ShadowFile:data_to_line` writes four fields from keys that
`ShadowFile:line_to_data` does not set, so that the fields for the ages of a password get lost.
-/

namespace BmcAccount

namespace Linux

namespace Codec

open LuaNumber

/-- The text of a line or of a field. -/
abbrev Text : Type := List Char

/-- `str`, of a number. -/
def str (v : Option Number) : Text :=
  (v.map tostring).getD []

/-- `table.concat(…, ':')`. -/
def concat (values : List Text) : Text :=
  [':'].intercalate values

/-- What the files differ in: the key of a table, and the two conversions. -/
structure LineCodec (α : Type) where
  dataKey : α → Text
  lineToData : List Text → Option α
  dataToLine : α → Text

/-! ## The four files -/

/-- An entry of `shadow`; the fields `minimumor` to `inactiveor` are those that are written. -/
structure ShadowData where
  userName : Text
  password : Text
  lastPwdChange : Option Number
  minimum : Option Number := none
  maximum : Option Number := none
  warn : Option Number := none
  inactive : Option Number := none
  minimumor : Option Number := none
  maximumor : Option Number := none
  warnor : Option Number := none
  inactiveor : Option Number := none
  expire : Option Number
  reserved : Text

/-- `ShadowFile`. -/
def shadowFile : LineCodec ShadowData where
  dataKey := ShadowData.userName
  lineToData
    | [userName, password, lastPwdChange, minimum, maximum, warn, inactive, expire, reserved] =>
      some {
        userName
        password
        lastPwdChange := LuaNumber.tonumber lastPwdChange
        minimum := LuaNumber.tonumber minimum
        maximum := LuaNumber.tonumber maximum
        warn := LuaNumber.tonumber warn
        inactive := LuaNumber.tonumber inactive
        expire := LuaNumber.tonumber expire
        reserved }
    | _ => none
  dataToLine shadow := concat [
    shadow.userName,
    shadow.password,
    str shadow.lastPwdChange,
    str shadow.minimumor,
    str shadow.maximumor,
    str shadow.warnor,
    str shadow.inactiveor,
    str shadow.expire,
    shadow.reserved]

/-- An entry of `passwd`. -/
structure PasswdData where
  userName : Text
  userId : Option Number
  groupId : Option Number
  gecos : Text
  homeDir : Text
  shell : Text

/-- `PasswdFile`. -/
def passwdFile : LineCodec PasswdData where
  dataKey := PasswdData.userName
  lineToData
    | [userName, _, userId, groupId, gecos, homeDir, shell] =>
      some ⟨userName, LuaNumber.tonumber userId, LuaNumber.tonumber groupId, gecos, homeDir, shell⟩
    | _ => none
  dataToLine user := concat [user.userName, ['x'], str user.userId, str user.groupId, user.gecos,
    user.homeDir, user.shell]

/-- An entry of `group`. -/
structure GroupData where
  groupName : Text
  groupId : Option Number
  users : List Text

/-- `GroupFile`. -/
def groupFile : LineCodec GroupData where
  dataKey := GroupData.groupName
  lineToData
    | [groupName, _, groupId, users] => some ⟨groupName, LuaNumber.tonumber groupId, users.splitOn ','⟩
    | _ => none
  dataToLine group :=
    concat [group.groupName, ['x'], str group.groupId, [','].intercalate group.users]

/-- An entry of the file of IPMI users. -/
structure IpmiData where
  userId : Text
  userName : Text
  userPasswordMaxLength : Option Number
  maxSessionCnt : Option Number
  isCallin : Option Number
  userEnabled : Option Number
  authEnabled : Option Number
  ipmiMsgEnabled : Option Number
  isEnabledByPasswd : Option Number
  privilege0 : Option Number
  privilege1 : Option Number
  isLocked : Option Number
  loginRuleIdsNum : Option Number
  loginInterfaceNum : Option Number
  isExcludeUser : Option Number
  isPasswordExpired : Option Number
  roleId : Option Number

/-- `IpmiFile`; a line of an older version has no role. -/
def ipmiFile : LineCodec IpmiData where
  dataKey := IpmiData.userName
  lineToData
    | userId :: userName :: _ :: maxLength :: sessions :: callin :: enabled :: auth :: msg
        :: byPasswd :: privilege0 :: privilege1 :: _ :: locked :: rules :: interfaces :: exclude
        :: expired :: role =>
      if role.length ≤ 1 then
        some {
          userId
          userName
          userPasswordMaxLength := LuaNumber.tonumber maxLength
          maxSessionCnt := LuaNumber.tonumber sessions
          isCallin := LuaNumber.tonumber callin
          userEnabled := LuaNumber.tonumber enabled
          authEnabled := LuaNumber.tonumber auth
          ipmiMsgEnabled := LuaNumber.tonumber msg
          isEnabledByPasswd := LuaNumber.tonumber byPasswd
          privilege0 := LuaNumber.tonumber privilege0
          privilege1 := LuaNumber.tonumber privilege1
          isLocked := LuaNumber.tonumber locked
          loginRuleIdsNum := LuaNumber.tonumber rules
          loginInterfaceNum := LuaNumber.tonumber interfaces
          isExcludeUser := LuaNumber.tonumber exclude
          isPasswordExpired := LuaNumber.tonumber expired
          roleId := LuaNumber.tonumber (role.headD ['0']) }
      else none
    | _ => none
  dataToLine user := concat [
    user.userId,
    user.userName,
    ['x'],
    str user.userPasswordMaxLength,
    str user.maxSessionCnt,
    str user.isCallin,
    str user.userEnabled,
    str user.authEnabled,
    str user.ipmiMsgEnabled,
    str user.isEnabledByPasswd,
    str user.privilege0,
    str user.privilege1,
    ['x'],
    str user.isLocked,
    str user.loginRuleIdsNum,
    str user.loginInterfaceNum,
    str user.isExcludeUser,
    str user.isPasswordExpired,
    str user.roleId]

/-- The files. -/
inductive File where
  | shadow
  | passwd
  | group
  | ipmi
deriving DecidableEq

/-- The entries of a file. -/
def Data : File → Type
  | .shadow => ShadowData
  | .passwd => PasswdData
  | .group => GroupData
  | .ipmi => IpmiData

def codec : (f : File) → LineCodec (Data f)
  | .shadow => shadowFile
  | .passwd => passwdFile
  | .group => groupFile
  | .ipmi => ipmiFile

/-! ## Loading and saving -/

namespace LineCodec

variable {α : Type} (F : LineCodec α)

/-- `LinuxFile:__do_load`: empty lines, lines that are no entries, and entries with a key that is
there already are left out. -/
def load (lines : List Text) : List α :=
  Keyed.firsts F.dataKey []
    ((lines.filter (· ≠ [])).filterMap fun line => F.lineToData (line.splitOn ':'))

/-- `LinuxFile:lines`. -/
def lines (datas : List α) : List Text :=
  datas.map F.dataToLine

/-- A line, read and written. -/
def rewrite (line : Text) : Option Text :=
  (F.lineToData (line.splitOn ':')).map F.dataToLine

end LineCodec

/-! ## The layouts of lines -/

/-- The kinds of fields. -/
inductive Field where
  | text
  /-- A field that is always `x`. -/
  | placeholder
  | number
  /-- A number that is read and not written. -/
  | lost
deriving DecidableEq

namespace Field

/-- A field is well formed: a number is one in decimal, or it is missing. -/
def Fits : Field → Text → Prop
  | .text, _ => True
  | .placeholder, t => t = ['x']
  | .number, t => t = [] ∨ ∃ n, t = intText n
  | .lost, t => t = [] ∨ ∃ n, t = intText n

/-- The condition on a field. -/
def Kept : Field → Text → Prop
  | .text, _ => True
  | .placeholder, _ => True
  | .number, t => ∀ n, t = intText n → IsInteger n
  | .lost, t => t = []

/-- What becomes of a field. -/
def rewrite : Field → Text → Text
  | .text, t => t
  | .placeholder, _ => ['x']
  | .number, t => str (LuaNumber.tonumber t)
  | .lost, _ => []

end Field

/-- The fields of the lines of a file. -/
def layout : File → List Field
  | .shadow => [.text, .text, .number, .lost, .lost, .lost, .lost, .number, .text]
  | .passwd => [.text, .placeholder, .number, .number, .text, .text, .text]
  | .group => [.text, .placeholder, .number, .text]
  | .ipmi => [.text, .text, .placeholder] ++ List.replicate 9 .number ++ [.placeholder]
    ++ List.replicate 6 .number

/-- A line has the fields of the file, and they are well formed. -/
def WellFormed (f : File) (line : Text) : Prop :=
  List.Forall₂ Field.Fits (layout f) (line.splitOn ':')

/-- The condition on a line: the numbers are integers of 64 bits, and in `shadow` the fields for
the ages of a password are empty. -/
def Kept (f : File) (line : Text) : Prop :=
  List.Forall₂ Field.Kept (layout f) (line.splitOn ':')

/-! ## What becomes of a line -/

/-- The key of a line. -/
def lineKey (f : File) (line : Text) : Text :=
  (line.splitOn ':').getD (if f = .ipmi then 1 else 0) []

/-- A line with its fields written again. -/
def rewritten (f : File) (line : Text) : Text :=
  concat (List.zipWith Field.rewrite (layout f) (line.splitOn ':'))

/-- A line is read as an entry with its key, which is written as the line is. -/
def Reads (f : File) (line : Text) : Prop :=
  ∃ d, (codec f).lineToData (line.splitOn ':') = some d ∧ (codec f).dataKey d = lineKey f line ∧
    (codec f).dataToLine d = rewritten f line

theorem reads_shadow {line : Text} (h : WellFormed .shadow line) :
  Reads .shadow line
  := by
  rw [WellFormed] at h
  rw [Reads, lineKey, rewritten]
  generalize line.splitOn ':' = values at h ⊢
  rcases h with _ | ⟨_, _ | ⟨_, _ | ⟨_, _ | ⟨_, _ | ⟨_, _ | ⟨_, _ | ⟨_, _ | ⟨_, _ | ⟨_, _ | _⟩⟩⟩⟩⟩⟩⟩⟩⟩
  exact ⟨_, rfl, rfl, rfl⟩

theorem reads_passwd {line : Text} (h : WellFormed .passwd line) :
  Reads .passwd line
  := by
  rw [WellFormed] at h
  rw [Reads, lineKey, rewritten]
  generalize line.splitOn ':' = values at h ⊢
  rcases h with _ | ⟨_, _ | ⟨_, _ | ⟨_, _ | ⟨_, _ | ⟨_, _ | ⟨_, _ | ⟨_, _ | _⟩⟩⟩⟩⟩⟩⟩
  exact ⟨_, rfl, rfl, rfl⟩

theorem reads_group {line : Text} (h : WellFormed .group line) :
  Reads .group line
  := by
  rw [WellFormed] at h
  rw [Reads, lineKey, rewritten]
  generalize line.splitOn ':' = values at h ⊢
  rcases h with _ | ⟨_, _ | ⟨_, _ | ⟨_, _ | ⟨_, _ | _⟩⟩⟩⟩
  refine ⟨_, rfl, rfl, ?_⟩
  change concat [_, _, _, [','].intercalate (List.splitOn ',' _)] = _
  rw [List.intercalate_splitOn]
  rfl

theorem reads_ipmi {line : Text} (h : WellFormed .ipmi line) :
  Reads .ipmi line
  := by
  rw [WellFormed] at h
  rw [Reads, lineKey, rewritten]
  generalize line.splitOn ':' = values at h ⊢
  rcases h with _ | ⟨_, _ | ⟨_, _ | ⟨_, _ | ⟨_, _ | ⟨_, _ | ⟨_, _ | ⟨_, _ | ⟨_, _ | ⟨_, _ | ⟨_, _ |
    ⟨_, _ | ⟨_, _ | ⟨_, _ | ⟨_, _ | ⟨_, _ | ⟨_, _ | ⟨_, _ | ⟨_, _ | ⟨_, _ |
    _⟩⟩⟩⟩⟩⟩⟩⟩⟩⟩⟩⟩⟩⟩⟩⟩⟩⟩⟩
  exact ⟨_, rfl, rfl, rfl⟩

theorem reads {f : File} {line : Text} (h : WellFormed f line) :
  Reads f line
  := by
  cases f with
  | shadow => exact reads_shadow h
  | passwd => exact reads_passwd h
  | group => exact reads_group h
  | ipmi => exact reads_ipmi h

theorem rewrite_wellFormed {f : File} {line : Text} (h : WellFormed f line) :
  (codec f).rewrite line = some (rewritten f line)
  := by
  obtain ⟨d, hread, -, hwrite⟩ := reads h
  rw [LineCodec.rewrite, hread, Option.map_some, hwrite]

namespace Field

theorem str_tonumber_nil :
  str (LuaNumber.tonumber []) = []
  := rfl

theorem str_tonumber_iff (n : ℤ) :
  str (LuaNumber.tonumber (intText n)) = intText n ↔ IsInteger n
  := by
  rw [← tostring_tonumber_iff, str]
  cases LuaNumber.tonumber (intText n) with
  | none => simp [(intText_ne_nil n).symm]
  | some x => simp

/-- A field is written as it has been read, under its condition. -/
theorem rewrite_eq_self_iff {k : Field} {t : Text} (h : k.Fits t) :
  k.rewrite t = t ↔ k.Kept t
  := by
  cases k with
  | text => exact iff_of_true rfl trivial
  | placeholder => exact iff_of_true h.symm trivial
  | number =>
    change str (LuaNumber.tonumber t) = t ↔ ∀ n, t = intText n → IsInteger n
    rcases h with rfl | ⟨n, rfl⟩
    · exact iff_of_true str_tonumber_nil fun n hn => absurd hn.symm (intText_ne_nil n)
    · rw [str_tonumber_iff]
      constructor
      · intro hn m hm
        rwa [← intText_injective hm]
      · exact fun hall => hall n rfl
  | lost => exact eq_comm

theorem colon_notMem_rewrite {k : Field} {t : Text} (h : ':' ∉ t) :
  ':' ∉ k.rewrite t
  := by
  cases k with
  | text => exact h
  | placeholder =>
    change ':' ∉ ['x']
    decide
  | number =>
    change ':' ∉ str (LuaNumber.tonumber t)
    rw [str]
    cases LuaNumber.tonumber t with
    | none => exact List.not_mem_nil
    | some x =>
      intro hmem
      rcases mem_tostring hmem with hc | hc
      · exact absurd hc (by decide)
      · exact absurd hc (by decide)
  | lost => exact List.not_mem_nil

/-- The fields of a line are all written as they have been read, under their conditions. -/
theorem zipWith_rewrite_eq_iff {ks : List Field} {values : List Text}
    (h : List.Forall₂ Fits ks values) :
  List.zipWith rewrite ks values = values ↔ List.Forall₂ Kept ks values
  := by
  induction h with
  | nil => simp
  | cons hfits h ih =>
    rw [List.zipWith_cons_cons, List.cons.injEq, rewrite_eq_self_iff hfits, ih, List.forall₂_cons]

end Field

/-- A line is written as it has been read, under the conditions of its fields. -/
theorem rewritten_eq_iff {f : File} {line : Text} (h : WellFormed f line) :
  rewritten f line = line ↔ Kept f line
  := by
  have hlen := h.length_eq
  have hne : List.zipWith Field.rewrite (layout f) (line.splitOn ':') ≠ [] := by
    apply List.ne_nil_of_length_pos
    rw [List.length_zipWith, hlen, min_self]
    exact List.length_pos_iff.mpr (List.splitOn_ne_nil _ _)
  have hcolon : ∀ t ∈ List.zipWith Field.rewrite (layout f) (line.splitOn ':'), ':' ∉ t := by
    intro t ht
    obtain ⟨i, hi, rfl⟩ := List.getElem_of_mem ht
    rw [List.getElem_zipWith]
    exact Field.colon_notMem_rewrite (Fields.notMem_of_mem_splitOn (List.getElem_mem _))
  rw [Kept, ← Field.zipWith_rewrite_eq_iff h, rewritten]
  constructor
  · intro heq
    have hsplit := List.splitOn_intercalate ':' hcolon hne
    rw [← hsplit]
    exact congrArg _ heq
  · intro heq
    rw [heq]
    exact List.intercalate_splitOn ':'

/-! ## What becomes of a file -/

/-- A well-formed line is not empty. -/
theorem WellFormed.ne_nil {f : File} {line : Text} (h : WellFormed f line) :
  line ≠ []
  := by
  rintro rfl
  have hlen := h.length_eq
  cases f <;> cases hlen

/-- The lines that are written are the first ones of each key, with their fields written again. -/
theorem lines_load {f : File} {ls : List Text} (h : ∀ line ∈ ls, WellFormed f line) :
  (codec f).lines ((codec f).load ls) = (Keyed.firsts (lineKey f) [] ls).map (rewritten f)
  := by
  have hload (seen : List Text) :
      (codec f).lines (Keyed.firsts (codec f).dataKey seen
        ((ls.filter (· ≠ [])).filterMap fun line => (codec f).lineToData (line.splitOn ':')))
        = (Keyed.firsts (lineKey f) seen ls).map (rewritten f) := by
    induction ls generalizing seen with
    | nil => rfl
    | cons line ls ih =>
      rw [List.forall_mem_cons] at h
      obtain ⟨d, hread, hkey, hwrite⟩ := reads h.1
      rw [List.filter_cons_of_pos (by simpa using h.1.ne_nil), List.filterMap_cons]
      simp only [hread]
      rw [Keyed.firsts, Keyed.firsts, hkey]
      split_ifs with hseen
      · exact ih h.2 seen
      · rw [LineCodec.lines, List.map_cons, List.map_cons, hwrite]
        exact congrArg _ (ih h.2 _)
  exact hload []

/-- A well-formed line is written as it has been read, exactly when its numbers are integers of
64 bits and, in `shadow`, its fields for the ages of a password are empty. So a file that is loaded
and saved has the lines that it had, the first one of each key, exactly when these are such
lines. -/
theorem rewrite_eq_iff (f : File) :
  (∀ line : Text, WellFormed f line → ((codec f).rewrite line = some line ↔ Kept f line)) ∧
    ∀ ls : List Text, (∀ line ∈ ls, WellFormed f line) →
      ((codec f).lines ((codec f).load ls) = Keyed.firsts (lineKey f) [] ls ↔
        ∀ line ∈ Keyed.firsts (lineKey f) [] ls, Kept f line)
  := by
  constructor
  · intro line h
    rw [rewrite_wellFormed h, Option.some_inj, rewritten_eq_iff h]
  · intro ls h
    have hmap : (Keyed.firsts (lineKey f) [] ls).map (rewritten f)
          = Keyed.firsts (lineKey f) [] ls
        ↔ ∀ line ∈ Keyed.firsts (lineKey f) [] ls, rewritten f line = line := by
      have hid := List.map_inj_left (l := Keyed.firsts (lineKey f) [] ls) (f := rewritten f)
        (g := id)
      rwa [List.map_id] at hid
    rw [lines_load h, hmap]
    apply forall₂_congr
    intro line hline
    exact rewritten_eq_iff (h line (Keyed.mem_of_mem_firsts hline).1)

/-! ## The entries of the other operations

The operations on the files know the numbers of the lines as natural numbers. For natural numbers
below `2 ^ 63` they read and write a line in the same way. -/

/-- A field whose number is one that is known as a natural number. -/
def Field.Small : Field → Text → Prop
  | .number, t => t = [] ∨ ∃ n < 2 ^ 63, t = Nat.toDigits 10 n
  | _, _ => True

theorem str_tonumber_of_small {t : Text} (h : Field.Small .number t) :
  (Linux.tonumber t).str = str (LuaNumber.tonumber t)
  := by
  rcases h with rfl | ⟨n, hn, rfl⟩
  · rfl
  · have hint : IsInteger (n : ℤ) := by
      constructor <;> omega
    have hall : (Nat.toDigits 10 n).all Char.isDigit = true :=
      List.all_eq_true.mpr fun _ => isDigit_of_mem_toDigits
    have hstr : str (LuaNumber.tonumber (Nat.toDigits 10 n)) = Nat.toDigits 10 n :=
      (Field.str_tonumber_iff n).mpr hint
    have hnumber : Fields.number (Nat.toDigits 10 n) = n := Nat.ofDigitChars_ten_toDigits
    rw [hstr, Linux.tonumber, if_pos ⟨Nat.toDigits_ne_nil, hall⟩, hnumber]
    rfl

theorem passwdFile_agrees {values : List Text}
    (h : List.Forall₂ Field.Small (layout .passwd) values) :
  (Linux.passwdFile.lineToData values).map (fun d => concat (Linux.passwdFile.dataToLine d))
    = (passwdFile.lineToData values).map passwdFile.dataToLine
  := by
  rcases h with _ | ⟨_, _ | ⟨_, _ | ⟨h3, _ | ⟨h4, _ | ⟨_, _ | ⟨_, _ | ⟨_, _ | _⟩⟩⟩⟩⟩⟩⟩
  simp [Linux.passwdFile, passwdFile, str_tonumber_of_small h3, str_tonumber_of_small h4]

theorem shadowFile_agrees {values : List Text}
    (h : List.Forall₂ Field.Small (layout .shadow) values) :
  (Linux.shadowFile.lineToData values).map (fun d => concat (Linux.shadowFile.dataToLine d))
    = (shadowFile.lineToData values).map shadowFile.dataToLine
  := by
  rcases h with _ | ⟨_, _ | ⟨_, _ | ⟨h3, _ | ⟨_, _ | ⟨_, _ | ⟨_, _ | ⟨_, _ | ⟨h8, _ | ⟨_, _ | _⟩⟩⟩⟩⟩⟩⟩⟩⟩
  simp [Linux.shadowFile, shadowFile, str_tonumber_of_small h3, str_tonumber_of_small h8, str]

theorem ipmiFile_agrees {values : List Text}
    (h : List.Forall₂ Field.Small (layout .ipmi) values) :
  (ipmiUserFile.lineToData values).map (fun d => concat (ipmiUserFile.dataToLine d))
    = (ipmiFile.lineToData values).map ipmiFile.dataToLine
  := by
  rcases h with _ | ⟨_, _ | ⟨_, _ | ⟨_, _ | ⟨h4, _ | ⟨h5, _ | ⟨h6, _ | ⟨h7, _ | ⟨h8, _ | ⟨h9, _ |
    ⟨h10, _ | ⟨h11, _ | ⟨h12, _ | ⟨_, _ | ⟨h14, _ | ⟨h15, _ | ⟨h16, _ | ⟨h17, _ | ⟨h18, _ |
    ⟨h19, _ | _⟩⟩⟩⟩⟩⟩⟩⟩⟩⟩⟩⟩⟩⟩⟩⟩⟩⟩⟩
  simp [ipmiUserFile, ipmiLineToData, IpmiUser.fields, ipmiFile, Value.str,
    ← str_tonumber_of_small h4, ← str_tonumber_of_small h5, ← str_tonumber_of_small h6,
    ← str_tonumber_of_small h7, ← str_tonumber_of_small h8, ← str_tonumber_of_small h9,
    ← str_tonumber_of_small h10, ← str_tonumber_of_small h11, ← str_tonumber_of_small h12,
    ← str_tonumber_of_small h14, ← str_tonumber_of_small h15, ← str_tonumber_of_small h16,
    ← str_tonumber_of_small h17, ← str_tonumber_of_small h18, ← str_tonumber_of_small h19]

/-! ### The line of an entry with ages -/

/-- A line of `shadow` as the system writes it. -/
def agedLine : Text :=
  "user:!:19000:0:99999:7:::".toList

theorem wellFormed_agedLine :
  WellFormed .shadow agedLine
  := by
  have hsplit : agedLine.splitOn ':' = [['u', 's', 'e', 'r'], ['!'], intText 19000, intText 0,
      intText 99999, intText 7, [], [], []] := by
    decide +kernel
  have hint (n : ℤ) : Field.Fits .number (intText n) := .inr ⟨n, rfl⟩
  have hlost (n : ℤ) : Field.Fits .lost (intText n) := .inr ⟨n, rfl⟩
  rw [WellFormed, hsplit]
  exact .cons trivial (.cons trivial (.cons (hint _) (.cons (hlost _) (.cons (hlost _)
    (.cons (hlost _) (.cons (.inl rfl) (.cons (.inl rfl) (.cons trivial .nil))))))))

theorem rewrite_eq_iff_aged :
  ((codec .shadow).rewrite agedLine = some agedLine ↔ Kept .shadow agedLine) ∧
    ((codec .shadow).lines ((codec .shadow).load [agedLine])
        = Keyed.firsts (lineKey .shadow) [] [agedLine] ↔
      ∀ line ∈ Keyed.firsts (lineKey .shadow) [] [agedLine], Kept .shadow line)
  :=
  ⟨(rewrite_eq_iff .shadow).1 agedLine wellFormed_agedLine,
    (rewrite_eq_iff .shadow).2 [agedLine] (List.forall_mem_singleton.mpr wellFormed_agedLine)⟩

/-- The ages get lost. -/
theorem rewrite_agedLine :
  WellFormed .shadow agedLine ∧
    (codec .shadow).rewrite agedLine = some "user:!:19000::::::".toList ∧
    agedLine ≠ "user:!:19000::::::".toList
  := by
  refine ⟨wellFormed_agedLine, ?_, ?_⟩
  · decide +kernel
  · decide

end Codec

end Linux

end BmcAccount
