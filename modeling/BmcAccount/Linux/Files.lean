import BmcAccount.Linux.Records
import BmcAccount.Lib.Keyed
import BmcAccount.Lib.Fields

/-!
# The account files

A file is read as a whole, a line for each entry, and is written as a whole if an entry has
been changed. Lines with the wrong number of fields are dropped, and so are lines whose key an
earlier line has.

Reading and writing are not inverse: `PasswdFile:line_to_data` drops the second field, and
`ShadowFile:data_to_line` does not write the fields that `line_to_data` has read for the ages
of a password, but four others that only a new entry has.
-/

namespace BmcAccount

namespace Linux

open Fields Keyed

/-- The fields of a line. -/
abbrev Line : Type := List (List Char)

/-- The name that a line begins with. -/
def Line.name (l : Line) : String :=
  String.ofList (l.headD [])

/-- `tonumber`, of the decimal numbers and of the empty fields of a line. -/
def tonumber (t : List Char) : Value :=
  if t ≠ [] ∧ t.all Char.isDigit then .num (number t) else .nil

/-- A field of a stored entry agrees with the one of a new entry. Fields that are `nil` are
not visited. -/
def Value.covers (own new : Value) : Bool :=
  own = .nil || own = new

/-! ## Formats -/

/-- What the files differ in: the lines, the key of an entry, the conversions between lines
and entries and the comparison of a stored entry with a new one. -/
structure Format (L α : Type) where
  dataKey : α → String
  lineToData : L → Option α
  dataToLine : α → L
  equals : α → α → Bool

/-- An entry of the file `passwd`. -/
structure PasswdUser where
  userName : String
  userId : Value
  groupId : Value
  gecos : String
  homeDir : String
  shell : String
deriving DecidableEq

/-- `PasswdFile`. -/
def passwdFile : Format Line PasswdUser where
  dataKey := PasswdUser.userName
  lineToData
    | [userName, _, userId, groupId, gecos, homeDir, shell] =>
      some ⟨String.ofList userName, tonumber userId, tonumber groupId, String.ofList gecos,
        String.ofList homeDir, String.ofList shell⟩
    | _ => none
  dataToLine user :=
    [user.userName.toList, ['x'], user.userId.str, user.groupId.str, user.gecos.toList,
      user.homeDir.toList, user.shell.toList]
  equals own user :=
    own.userName = user.userName && own.userId.covers user.userId
      && own.groupId.covers user.groupId && own.gecos = user.gecos
      && own.homeDir = user.homeDir && own.shell = user.shell

/-- An entry of the file `shadow`. The fields `minimum` to `inactive` are those that are read,
the fields `minimumor` to `inactiveor` those that are written. -/
structure ShadowUser where
  userName : String
  password : String
  lastPwdChange : Value
  minimum : Value := .nil
  maximum : Value := .nil
  warn : Value := .nil
  inactive : Value := .nil
  minimumor : Value := .nil
  maximumor : Value := .nil
  warnor : Value := .nil
  inactiveor : Value := .nil
  expire : Value
  reserved : String
deriving DecidableEq

/-- `ShadowFile`. -/
def shadowFile : Format Line ShadowUser where
  dataKey := ShadowUser.userName
  lineToData
    | [userName, password, lastPwdChange, minimum, maximum, warn, inactive, expire, reserved] =>
      some {
        userName := String.ofList userName
        password := String.ofList password
        lastPwdChange := tonumber lastPwdChange
        minimum := tonumber minimum
        maximum := tonumber maximum
        warn := tonumber warn
        inactive := tonumber inactive
        expire := tonumber expire
        reserved := String.ofList reserved }
    | _ => none
  dataToLine shadow :=
    [shadow.userName.toList, shadow.password.toList, shadow.lastPwdChange.str,
      shadow.minimumor.str, shadow.maximumor.str, shadow.warnor.str, shadow.inactiveor.str,
      shadow.expire.str, shadow.reserved.toList]
  equals own shadow :=
    own.userName = shadow.userName && own.password = shadow.password
      && own.lastPwdChange.covers shadow.lastPwdChange && own.minimum.covers shadow.minimum
      && own.maximum.covers shadow.maximum && own.warn.covers shadow.warn
      && own.inactive.covers shadow.inactive && own.minimumor.covers shadow.minimumor
      && own.maximumor.covers shadow.maximumor && own.warnor.covers shadow.warnor
      && own.inactiveor.covers shadow.inactiveor && own.expire.covers shadow.expire
      && own.reserved = shadow.reserved

/-- A line of the file `group`; the names of the users are between commas. -/
structure GroupLine where
  groupName : String
  password : String
  groupId : List Char
  users : List String
deriving DecidableEq

/-- An entry of the file `group`. -/
structure GroupEntry where
  groupName : String
  groupId : Value
  users : List String
deriving DecidableEq

/-- `GroupFile`; groups are never compared. -/
def groupFile : Format GroupLine GroupEntry where
  dataKey := GroupEntry.groupName
  lineToData line := some ⟨line.groupName, tonumber line.groupId, line.users⟩
  dataToLine group := ⟨group.groupName, "x", group.groupId.str, group.users⟩
  equals own group := own = group

/-- `IpmiFile:line_to_data`: lines of older versions have no role. -/
def ipmiLineToData : Line → Option IpmiUser
  | userId :: userName :: _ :: maxLength :: sessions :: callin :: enabled :: auth :: msg
      :: byPasswd :: privilege0 :: privilege1 :: _ :: locked :: rules :: interfaces :: exclude
      :: expired :: rest =>
    match rest with
    | [] | [_] =>
      some {
        userId := .text (String.ofList userId)
        userName := String.ofList userName
        password := .nil
        userPasswordMaxLength := tonumber maxLength
        maxSessionCnt := tonumber sessions
        isCallin := tonumber callin
        userEnabled := tonumber enabled
        authEnabled := tonumber auth
        ipmiMsgEnabled := tonumber msg
        isEnabledByPasswd := tonumber byPasswd
        privilege0 := tonumber privilege0
        privilege1 := tonumber privilege1
        snmpPrivacyPassword := .nil
        isLocked := tonumber locked
        loginRuleIdsNum := tonumber rules
        loginInterfaceNum := tonumber interfaces
        isExcludeUser := tonumber exclude
        isPasswordExpired := tonumber expired
        roleId := tonumber (rest.headD ['0']) }
    | _ => none
  | _ => none

/-- `IpmiFile`. -/
def ipmiUserFile : Format Line IpmiUser where
  dataKey := IpmiUser.userName
  lineToData := ipmiLineToData
  dataToLine := IpmiUser.fields
  equals own user :=
    own.userName = user.userName && own.userId.covers user.userId
      && own.password.covers user.password
      && own.userPasswordMaxLength.covers user.userPasswordMaxLength
      && own.maxSessionCnt.covers user.maxSessionCnt && own.isCallin.covers user.isCallin
      && own.userEnabled.covers user.userEnabled && own.authEnabled.covers user.authEnabled
      && own.ipmiMsgEnabled.covers user.ipmiMsgEnabled
      && own.isEnabledByPasswd.covers user.isEnabledByPasswd
      && own.privilege0.covers user.privilege0 && own.privilege1.covers user.privilege1
      && own.snmpPrivacyPassword.covers user.snmpPrivacyPassword
      && own.isLocked.covers user.isLocked && own.loginRuleIdsNum.covers user.loginRuleIdsNum
      && own.loginInterfaceNum.covers user.loginInterfaceNum
      && own.isExcludeUser.covers user.isExcludeUser
      && own.isPasswordExpired.covers user.isPasswordExpired && own.roleId.covers user.roleId

/-! ## Files -/

/-- `LinuxFile`: the lines of the file, and the entries that have been read from it. -/
structure LinuxFile {L α : Type} (F : Format L α) where
  lines : List L
  datas : Book F.dataKey

namespace LinuxFile

variable {L α : Type} {F : Format L α}

/-- `LinuxFile:__do_load`. -/
def load (F : Format L α) (lines : List L) : LinuxFile F where
  lines := lines
  datas := Book.ofList F.dataKey (lines.filterMap F.lineToData)

/-- `LinuxFile:get`. -/
def get (f : LinuxFile F) (dataKey : String) : Option α :=
  f.datas.get dataKey

/-- `LinuxFile:add_item` and `LinuxFile:delete_data_by_key`, as edits. -/
def edit (f : LinuxFile F) (e : Edit α String) : LinuxFile F :=
  { f with datas := f.datas.edit F.equals e }

/-- `LinuxFile:add_item`. -/
def addItem (f : LinuxFile F) (data : α) (overwrite : Bool) : LinuxFile F :=
  f.edit (.put data overwrite)

/-- `LinuxFile:delete_data_by_key`. -/
def deleteDataByKey (f : LinuxFile F) (dataKey : String) : LinuxFile F :=
  f.edit (.delete dataKey)

/-- `LinuxFile:save`. -/
def save (f : LinuxFile F) : LinuxFile F :=
  if f.datas.isDirty then
    ⟨f.datas.entries.map F.dataToLine, { f.datas with isDirty := false }⟩
  else f

/-! ### Groups -/

/-- The group of a name with other users. -/
def setUsers (f : LinuxFile groupFile) (groupName : String) (g : List String → List String) :
    LinuxFile groupFile :=
  { f with
    datas := f.datas.modify groupName (fun d => { d with users := g d.users }) fun _ => rfl }

/-- `GroupFile:create_group`. -/
def createGroup (f : LinuxFile groupFile) (groupName : String) (groupId : ℕ) :
    LinuxFile groupFile :=
  f.addItem ⟨groupName, .num groupId, []⟩ false

/-- `GroupFile:remove_user`: the first of the users of this name. -/
def removeUser (f : LinuxFile groupFile) (userName groupName : String) : LinuxFile groupFile :=
  match f.get groupName with
  | none => f
  | some group =>
    if userName ∈ group.users then f.setUsers groupName (List.erase · userName) else f

/-- The end of `GroupFile:add_user`, when there is a group. -/
def insertUser (f : LinuxFile groupFile) (userName groupName : String) : LinuxFile groupFile :=
  match f.get groupName with
  | none => f
  | some group =>
    if userName ∈ group.users then f else f.setUsers groupName (· ++ [userName])

/-- `GroupFile:add_user`; `baseName` is the name that the roles have for the group. -/
def addUser (f : LinuxFile groupFile) (userName : String) (groupId : ℕ) (groupName : String)
    (baseName : Option String) : LinuxFile groupFile :=
  match f.get groupName with
  | some _ => f.insertUser userName groupName
  | none =>
    let name := baseName.getD groupName
    (f.createGroup name groupId).insertUser userName name

/-- The file after a sequence of edits. -/
def run (f : LinuxFile F) (es : List (Edit α String)) : LinuxFile F :=
  { f with datas := f.datas.run F.equals es }

@[simp]
theorem entries_save (f : LinuxFile F) :
  f.save.datas.entries = f.datas.entries
  := by
  unfold save
  split <;> rfl

@[simp]
theorem isDirty_save (f : LinuxFile F) :
  f.save.datas.isDirty = false
  := by
  unfold save
  split
  case isTrue => rfl
  case isFalse h => simpa using h

theorem lines_save (f : LinuxFile F) :
  f.save.lines = if f.datas.isDirty then f.datas.entries.map F.dataToLine else f.lines
  := by
  unfold save
  split <;> rfl

@[simp]
theorem save_save (f : LinuxFile F) :
  f.save.save = f.save
  := by
  rw [save, if_neg (by simp)]

theorem get_run (f : LinuxFile F) (es : List (Edit α String)) (k : String) :
  (f.run es).get k = (f.datas.run F.equals es).get k
  := rfl

theorem run_append (f : LinuxFile F) (es es' : List (Edit α String)) :
  f.run (es ++ es') = (f.run es).run es'
  := by
  simp only [run, Book.run_append]

theorem run_deletes_congr {f : LinuxFile F} {ks ks' : List String} (h : ∀ k, k ∈ ks ↔ k ∈ ks') :
  f.run (ks.map .delete) = f.run (ks'.map .delete)
  := by
  have hrun : f.datas.run F.equals (ks.map .delete) = f.datas.run F.equals (ks'.map .delete) :=
    Book.run_deletes_congr fun k _ => h k
  simp only [run, hrun]

/-- Saving between edits makes no difference to what is written in the end. -/
theorem save_edit_save (f : LinuxFile F) (e : Edit α String) :
  (f.save.edit e).save.lines = (f.edit e).save.lines
  := by
  by_cases hd : f.datas.isDirty = true
  · have hentries : (f.save.datas.edit F.equals e).entries = (f.datas.edit F.equals e).entries :=
      Book.entries_edit_congr (entries_save f) e
    have hdirty : (f.edit e).datas.isDirty = true := (Book.edit_isDirty e).mpr (Or.inl hd)
    rw [lines_save, lines_save, if_pos hdirty]
    simp only [edit, hentries]
    split
    case isTrue => rfl
    case isFalse h =>
      have hnot : ¬ f.save.datas.Touches F.equals e :=
        fun ht => h ((Book.edit_isDirty e).mpr (Or.inr ht))
      have hsame := Book.edit_of_not_touches ((Book.touches_congr (entries_save f) e).not.mp hnot)
      rw [hsame, lines_save, if_pos hd]
  · have hsave : f.save = f := by
      rw [save, if_neg hd]
    rw [hsave]

end LinuxFile

/-! ## Lines of entries -/

/-- A line has the name of its entry. -/
structure Format.Named {α : Type} (F : Format Line α) : Prop where
  name_line : ∀ d, (F.dataToLine d).name = F.dataKey d
  key_data : ∀ {l d}, F.lineToData l = some d → F.dataKey d = l.name

theorem passwdFile_named :
  passwdFile.Named
  where
  name_line d := by simp [passwdFile, Line.name]
  key_data {l d} h := by
    simp only [passwdFile] at h
    split at h
    · simp only [Option.some.injEq] at h
      subst h
      rfl
    · simp at h

theorem shadowFile_named :
  shadowFile.Named
  where
  name_line d := by simp [shadowFile, Line.name]
  key_data {l d} h := by
    simp only [shadowFile] at h
    split at h
    · simp only [Option.some.injEq] at h
      subst h
      rfl
    · simp at h

/-- The entry of a name is the one of the first line with this name. -/
theorem get_load {α : Type} {F : Format Line α} (hF : F.Named) {lines : List Line}
    (hwf : ∀ l ∈ lines, (F.lineToData l).isSome = true) (k : String) :
  (LinuxFile.load F lines).datas.get k = (lines.find? (·.name = k)).bind F.lineToData
  := by
  rw [LinuxFile.load, Book.get_ofList]
  induction lines with
  | nil => rfl
  | cons l lines ih =>
    obtain ⟨d, hd⟩ := Option.isSome_iff_exists.mp (hwf l List.mem_cons_self)
    rw [List.filterMap_cons_some hd]
    have ih := ih fun l hl => hwf l (List.mem_cons_of_mem _ hl)
    by_cases hk : l.name = k
    · have hkey : F.dataKey d = k := (hF.key_data hd).trans hk
      rw [List.find?_cons_of_pos (by simpa using hkey), List.find?_cons_of_pos (by simpa using hk),
        Option.bind_some, hd]
    · have hkey : F.dataKey d ≠ k := by rwa [hF.key_data hd]
      rw [List.find?_cons_of_neg (by simpa using hkey),
        List.find?_cons_of_neg (by simpa using hk), ih]

end Linux

end BmcAccount
