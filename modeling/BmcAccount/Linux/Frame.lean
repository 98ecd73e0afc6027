import BmcAccount.Linux.Edits
import BmcAccount.Account.Admin

/-!
# Users that are not accounts

The files `passwd` and `shadow` have entries of the system beside those of accounts. An
operation on an account should leave them alone. It does not touch them in memory, with one
exception: `update_user` removes the old name of an account as it is, and not as the files have
it, so that for an account that is or was called `root` the administrator of the system is
removed. But when a file is written, all its lines are written anew.

`frame_iff` says when an operation leaves the users of the system alone.
-/

namespace BmcAccount

namespace Linux

open Keyed Fields

/-! ## Well-formed lines -/

/-- A line of `passwd` that has numbers where these belong. -/
def WellFormedPasswd (l : Line) : Prop :=
  ∃ name password userId groupId gecos homeDir shell,
    l = [name, password, Nat.toDigits 10 userId, Nat.toDigits 10 groupId, gecos, homeDir, shell]

/-- The field of a number that can be missing. -/
def optionalField : Option ℕ → List Char
  | none => []
  | some n => Nat.toDigits 10 n

/-- A line of `shadow` that has numbers or nothing where these belong. -/
def WellFormedShadow (l : Line) : Prop :=
  ∃ name password lastPwdChange minimum maximum warn inactive expire reserved,
    l = [name, password, optionalField lastPwdChange, optionalField minimum,
      optionalField maximum, optionalField warn, optionalField inactive, optionalField expire,
      reserved]

/-- The lines of the files are well-formed. -/
structure Files.WellFormed (files : Files) : Prop where
  passwd : ∀ l ∈ files.passwd, WellFormedPasswd l
  shadow : ∀ l ∈ files.shadow, WellFormedShadow l
  ipmi : ∀ l ∈ files.ipmi, (ipmiLineToData l).isSome = true

theorem tonumber_toDigits (n : ℕ) :
  tonumber (Nat.toDigits 10 n) = .num n
  := by
  have hdigits : (Nat.toDigits 10 n).all Char.isDigit = true := by
    rw [List.all_eq_true]
    intro c hc
    exact Nat.isDigit_of_mem_toDigits (by decide) (by decide) hc
  rw [tonumber, if_pos ⟨Nat.toDigits_ne_nil, hdigits⟩, number, Nat.ofDigitChars_ten_toDigits]

theorem str_tonumber_toDigits (n : ℕ) :
  (tonumber (Nat.toDigits 10 n)).str = Nat.toDigits 10 n
  := by
  rw [tonumber_toDigits, Value.str]

theorem str_tonumber_optionalField (n : Option ℕ) :
  (tonumber (optionalField n)).str = optionalField n
  := by
  cases n with
  | none => rfl
  | some n => exact str_tonumber_toDigits n

/-- A line is written as it was read. -/
def Format.Keeps {L α : Type} (F : Format L α) (l : L) : Prop :=
  (F.lineToData l).map F.dataToLine = some l

/-- The second field of a line of `passwd` is lost. -/
theorem keeps_passwdFile_iff {l : Line} (h : WellFormedPasswd l) :
  passwdFile.Keeps l ↔ l.getD 1 [] = ['x']
  := by
  obtain ⟨name, password, userId, groupId, gecos, homeDir, shell, rfl⟩ := h
  simp only [Format.Keeps, passwdFile, Option.map_some, String.toList_ofList,
    str_tonumber_toDigits]
  simp [eq_comm]

/-- The fields of a line of `shadow` on the ages of the password are lost. -/
theorem keeps_shadowFile_iff {l : Line} (h : WellFormedShadow l) :
  shadowFile.Keeps l ↔ ∀ i ∈ [3, 4, 5, 6], l.getD i [] = []
  := by
  obtain ⟨name, password, lastPwdChange, minimum, maximum, warn, inactive, expire, reserved,
    rfl⟩ := h
  simp only [Format.Keeps, shadowFile, Option.map_some, String.toList_ofList,
    str_tonumber_optionalField, Value.str_nil, Option.some.injEq, List.cons.injEq, true_and,
    and_true, List.forall_mem_cons, List.not_mem_nil, false_implies, implies_true]
  constructor
  · rintro ⟨h₃, h₄, h₅, h₆⟩
    exact ⟨h₃.symm, h₄.symm, h₅.symm, h₆.symm⟩
  · rintro ⟨h₃, h₄, h₅, h₆⟩
    exact ⟨h₃.symm, h₄.symm, h₅.symm, h₆.symm⟩

theorem isSome_passwdFile {l : Line} (h : WellFormedPasswd l) :
  (passwdFile.lineToData l).isSome = true
  := by
  obtain ⟨name, password, userId, groupId, gecos, homeDir, shell, rfl⟩ := h
  rfl

theorem isSome_shadowFile {l : Line} (h : WellFormedShadow l) :
  (shadowFile.lineToData l).isSome = true
  := by
  obtain ⟨name, password, lastPwdChange, minimum, maximum, warn, inactive, expire, reserved,
    rfl⟩ := h
  rfl

theorem Files.WellFormed.isSome_passwd {files : Files} (h : files.WellFormed) :
  ∀ l ∈ files.passwd, (passwdFile.lineToData l).isSome = true
  :=
  fun l hl => isSome_passwdFile (h.passwd l hl)

theorem Files.WellFormed.isSome_shadow {files : Files} (h : files.WellFormed) :
  ∀ l ∈ files.shadow, (shadowFile.lineToData l).isSome = true
  :=
  fun l hl => isSome_shadowFile (h.shadow l hl)

/-! ## Lines that no edit replaces -/

section Lines

variable {α : Type} {F : Format Line α} {lines : List Line} {es : List (Edit α String)}

/-- The entries after the edits have the line of an entry that no edit replaces, which is the
one of the first line of its name. -/
theorem mem_map_run_iff (hF : F.Named) (hwf : ∀ l ∈ lines, (F.lineToData l).isSome = true)
    {l : Line} (hl : l ∈ lines)
    (hes : ∀ e ∈ es, e.named F.dataKey = l.name → ∃ d, e = .put d false) :
  ∃ first d, lines.find? (·.name = l.name) = some first ∧ F.lineToData first = some d
    ∧ (l ∈ ((LinuxFile.load F lines).run es).datas.entries.map F.dataToLine
      ↔ F.dataToLine d = l)
  := by
  have hsome : (lines.find? (·.name = l.name)).isSome = true := by
    rw [List.find?_isSome]
    exact ⟨l, hl, by simp⟩
  obtain ⟨first, hfirst⟩ := Option.isSome_iff_exists.mp hsome
  obtain ⟨d, hd⟩ := Option.isSome_iff_exists.mp (hwf first (List.mem_of_find?_eq_some hfirst))
  have hget : (LinuxFile.load F lines).datas.get l.name = some d := by
    rw [get_load hF hwf, hfirst, Option.bind_some, hd]
  have hrun : ((LinuxFile.load F lines).datas.run F.equals es).get l.name = some d :=
    Book.get_run_of_not_overwrite hget hes
  refine ⟨first, d, hfirst, hd, ?_⟩
  rw [List.mem_map]
  constructor
  · rintro ⟨d', hd', hline⟩
    have hkey : F.dataKey d' = l.name := by rw [← hF.name_line, hline]
    have hsame : some d' = some d := (Book.get_eq_some.mpr ⟨hd', hkey⟩).symm.trans hrun
    rw [← Option.some.inj hsame, hline]
  · intro hline
    exact ⟨d, (Book.get_eq_some.mp hrun).1, hline⟩

/-- The edits change the file. -/
def Rewritten (F : Format Line α) (lines : List Line) (es : List (Edit α String)) : Prop :=
  ∃ e ∈ es, (LinuxFile.load F lines).datas.Touches F.equals e

theorem lines_saved_of_rewritten (h : Rewritten F lines es) :
  ((LinuxFile.load F lines).run es).save.lines
    = ((LinuxFile.load F lines).run es).datas.entries.map F.dataToLine
  := by
  rw [LinuxFile.lines_save, if_pos]
  exact (Book.run_isDirty es).mpr (Or.inr h)

theorem lines_saved_of_not_rewritten (h : ¬ Rewritten F lines es) :
  ((LinuxFile.load F lines).run es).save.lines = lines
  := by
  have hsame : (LinuxFile.load F lines).datas.run F.equals es = (LinuxFile.load F lines).datas :=
    Book.run_of_not_touches fun e he ht => h ⟨e, he, ht⟩
  rw [LinuxFile.run, hsame]
  rfl

/-- Lines whose entries no edit replaces are there afterwards if and only if nothing is
written, or if each of them is the first of its name and is written as it was read. -/
theorem mem_saved_iff (hF : F.Named) (hwf : ∀ l ∈ lines, (F.lineToData l).isSome = true)
    {P : String → Prop}
    (hes : ∀ l ∈ lines, P l.name → ∀ e ∈ es, e.named F.dataKey = l.name →
      ∃ d, e = .put d false) :
  (∀ l ∈ lines, P l.name → l ∈ ((LinuxFile.load F lines).run es).save.lines)
    ↔ (Rewritten F lines es →
      ∀ l ∈ lines, P l.name → lines.find? (·.name = l.name) = some l ∧ F.Keeps l)
  := by
  by_cases ht : Rewritten F lines es
  case neg =>
    rw [lines_saved_of_not_rewritten ht]
    exact iff_of_true (fun l hl _ => hl) fun h => absurd h ht
  case pos =>
    rw [lines_saved_of_rewritten ht, imp_iff_right ht]
    constructor
    · intro hall l hl hP
      obtain ⟨first, d, hfirst, hd, hiff⟩ := mem_map_run_iff hF hwf hl (hes l hl hP)
      have hname : first.name = l.name := by simpa using List.find?_some hfirst
      have hmem := List.mem_of_find?_eq_some hfirst
      have hPfirst : P first.name := by rwa [hname]
      obtain ⟨first', d', hfirst', hd', hiff'⟩ :=
        mem_map_run_iff hF hwf hmem (hes first hmem hPfirst)
      rw [hname, hfirst, Option.some.injEq] at hfirst'
      subst hfirst'
      rw [hd, Option.some.injEq] at hd'
      subst hd'
      have hline := hiff.mp (hall l hl hP)
      have hline' := hiff'.mp (hall first hmem hPfirst)
      have heq : first = l := hline'.symm.trans hline
      subst heq
      exact ⟨hfirst, by rw [Format.Keeps, hd, Option.map_some, hline]⟩
    · intro hall l hl hP
      obtain ⟨first, d, hfirst, hd, hiff⟩ := mem_map_run_iff hF hwf hl (hes l hl hP)
      obtain ⟨hl', hkeeps⟩ := hall l hl hP
      rw [hfirst, Option.some.injEq] at hl'
      subst hl'
      rw [Format.Keeps, hd, Option.map_some, Option.some.injEq] at hkeeps
      exact hiff.mpr hkeeps

/-- A name that is deleted and not put again has no line afterwards. -/
theorem not_mem_saved (hF : F.Named) (hwf : ∀ l ∈ lines, (F.lineToData l).isSome = true)
    {k : String} {d : α} (hd : F.dataKey d ≠ k) {l : Line} (hl : l ∈ lines) (hk : l.name = k) :
  l ∉ ((LinuxFile.load F lines).run [.delete k, .put d true]).save.lines
  := by
  have hsome : ((LinuxFile.load F lines).datas.get k).isSome = true := by
    have hfind : (lines.find? (·.name = k)).isSome = true := by
      rw [List.find?_isSome]
      exact ⟨l, hl, by simpa using hk⟩
    obtain ⟨first, hfirst⟩ := Option.isSome_iff_exists.mp hfind
    rw [get_load hF hwf, hfirst, Option.bind_some]
    exact hwf first (List.mem_of_find?_eq_some hfirst)
  rw [lines_saved_of_rewritten ⟨.delete k, by simp, hsome⟩, List.mem_map]
  rintro ⟨d', hd', rfl⟩
  rw [hF.name_line] at hk
  have hnone : ((LinuxFile.load F lines).datas.run F.equals [.delete k, .put d true]).get k
      = none := by
    have hput : (((LinuxFile.load F lines).datas.run F.equals [.delete k]).run F.equals
        [.put d true]).get k
        = ((LinuxFile.load F lines).datas.run F.equals [.delete k]).get k :=
      Book.get_run (by simpa [Edit.named] using hd)
    have hdelete : ((LinuxFile.load F lines).datas.run F.equals ([k].map .delete)).get k = none := by
      rw [Book.get_run_deletes, if_pos List.mem_cons_self]
    exact hput.trans hdelete
  have hget := Book.get_eq_some.mpr ⟨hd', hk⟩
  exact Option.some_ne_none _ (hget.symm.trans hnone)

end Lines

/-! ## The users of the system -/

/-- A name is that of no current or former account: none of the accounts has it in the files,
it has neither a line in the file of IPMI users nor the user identifier of an account, and it
is not the old name that the operation is given, in the form that the files have. -/
structure Foreign (w : World) (files : Files) (op : Op) (k : String) : Prop where
  current : ∀ id a, w.state.accounts.lookup id = some a → fileName a.data.userName ≠ k
  ipmi : ∀ l ∈ files.ipmi, String.ofList (l.getD 1 []) ≠ k
  passwd : ∀ l ∈ files.passwd, l.name = k → World.isAccountUid (tonumber (l.getD 2 [])) = false
  old : ∀ old ∈ op.oldUsername, fileName old ≠ k

/-- Every line of `passwd` and `shadow` with the name of no account is there after an
operation. -/
def Frame (w : World) (files : Files) (op : Op) : Prop :=
  (∀ l ∈ files.passwd, Foreign w files op l.name → l ∈ (op.result w files).passwd)
    ∧ ∀ l ∈ files.shadow, Foreign w files op l.name → l ∈ (op.result w files).shadow

/-- The operation does no harm to the users of the system: it is not given the old name `root`
while the files have a user `root` of the system, and if it changes a file, then the lines of
the system's users in this file are the first of their names and have nothing in the fields
that are lost. -/
structure Harmless (w : World) (files : Files) (op : Op) : Prop where
  root : ∀ id, op = .updateUser id (some actualRootUserName) → (Op.grouped w id).isSome = true →
    Foreign w files op actualRootUserName →
    ∀ l ∈ files.passwd ++ files.shadow, l.name ≠ actualRootUserName
  passwd : Rewritten passwdFile files.passwd (op.passwdEdits w files) →
    ∀ l ∈ files.passwd, Foreign w files op l.name →
      files.passwd.find? (·.name = l.name) = some l ∧ l.getD 1 [] = ['x']
  shadow : Rewritten shadowFile files.shadow (op.shadowEdits w files) →
    ∀ l ∈ files.shadow, Foreign w files op l.name →
      files.shadow.find? (·.name = l.name) = some l ∧ ∀ i ∈ [3, 4, 5, 6], l.getD i [] = []

theorem name_of_ipmiLineToData {l : Line} {user : IpmiUser} (h : ipmiLineToData l = some user) :
  user.userName = String.ofList (l.getD 1 [])
  := by
  unfold ipmiLineToData at h
  split at h
  case h_2 => simp at h
  case h_1 =>
    split at h
    case h_3 => simp at h
    all_goals
      obtain rfl := Option.some.inj h
      rfl

theorem fileName_ne_root (name : String) :
  fileName name ≠ actualRootUserName
  := by
  unfold fileName
  split
  · decide
  · assumption

section Foreign

variable {w : World} {files : Files} {op : Op}

theorem userName_of_grouped {id : ℕ} {p : AccountLine × RoleGroup}
    (h : Op.grouped w id = some p) :
  ∃ a, w.state.accounts.lookup id = some a ∧ p.1.userName = fileName a.data.userName
  := by
  unfold Op.grouped World.accountLine World.withGroup at h
  cases ha : w.state.accounts.lookup id with
  | none => simp [ha] at h
  | some a =>
    simp only [ha, Option.map_some, Option.bind_some, Option.map_eq_some_iff] at h
    obtain ⟨g, -, rfl⟩ := h
    exact ⟨a, rfl, rfl⟩

theorem not_foreign_of_grouped {id : ℕ} {p : AccountLine × RoleGroup}
    (h : Op.grouped w id = some p) :
  ¬ Foreign w files op p.1.userName
  := by
  intro hforeign
  obtain ⟨a, ha, hname⟩ := userName_of_grouped h
  exact hforeign.current id a ha hname.symm

theorem not_foreign_of_mem_flushed {l : AccountLine} (h : l ∈ w.flushed) :
  ¬ Foreign w files op l.userName
  := by
  intro hforeign
  obtain ⟨id, -, hid⟩ := List.mem_filterMap.mp h
  obtain ⟨a, ha, hl⟩ := Option.bind_eq_some_iff.mp hid
  split at hl
  case isTrue =>
    obtain rfl := Option.some.inj hl
    exact hforeign.current id a ha rfl
  case isFalse => simp at hl

/-- The users that `flush_account` removes were accounts. -/
theorem not_foreign_of_mem_stale (hwf : files.WellFormed) {k : String} (h : k ∈ w.stale files) :
  ¬ Foreign w files op k
  := by
  intro hforeign
  rcases (w.mem_stale.mp h).2 with ⟨user, hget, huid⟩ | hmem
  · have hload := get_load passwdFile_named hwf.isSome_passwd k
    rw [show (LinuxFile.load passwdFile files.passwd).datas.get k = some user from hget] at hload
    obtain ⟨l, hfind, hdata⟩ := Option.bind_eq_some_iff.mp hload.symm
    have hl := List.mem_of_find?_eq_some hfind
    have hname : l.name = k := by simpa using List.find?_some hfind
    obtain ⟨name, password, userId, groupId, gecos, homeDir, shell, rfl⟩ := hwf.passwd l hl
    obtain rfl := Option.some.inj hdata
    have hnot := hforeign.passwd _ hl hname
    exact Bool.false_ne_true (hnot.symm.trans huid)
  · obtain ⟨user, huser, rfl⟩ := List.mem_map.mp hmem
    obtain ⟨l, hl, hdata⟩ := List.mem_filterMap.mp (mem_of_mem_firsts huser).1
    exact hforeign.ipmi l hl (name_of_ipmiLineToData hdata).symm

/-- An edit that names no account keeps what is there, or it removes the old name `root`. -/
theorem edits_foreign {α : Type} (hwf : files.WellFormed) (key : α → String)
    {base : List (Edit α String)} (hbase : ∀ e ∈ base, ∃ d, e = .put d false)
    {entry : AccountLine → RoleGroup → α} (hentry : ∀ l g, key (entry l g) = l.userName)
    {e : Edit α String} (he : e ∈ op.edits w files base entry)
    (hforeign : Foreign w files op (e.named key)) :
  (∃ d, e = .put d false)
    ∨ e = .delete actualRootUserName ∧ ∃ id, op = .updateUser id (some actualRootUserName)
      ∧ (Op.grouped w id).isSome = true
  := by
  cases op with
  | addUser id =>
    simp only [Op.edits] at he
    split at he
    case h_1 => simp at he
    case h_2 p hp =>
      obtain rfl := List.mem_singleton.mp he
      rw [Edit.named, hentry] at hforeign
      exact absurd hforeign (not_foreign_of_grouped hp)
  | removeUser id =>
    simp only [Op.edits] at he
    split at he
    case h_1 => simp at he
    case h_2 p hp =>
      obtain rfl := List.mem_singleton.mp he
      exact absurd hforeign (not_foreign_of_grouped hp)
  | updateUser id old =>
    simp only [Op.edits] at he
    split at he
    case h_1 => simp at he
    case h_2 p hp =>
      rcases List.mem_append.mp he with he | he
      · obtain ⟨name, hname, rfl⟩ := List.mem_map.mp he
        rw [Option.mem_toList] at hname
        have hold : old = some name := (Option.filter_eq_some_iff.mp hname).1
        by_cases hroot : name = actualRootUserName
        · subst hroot
          exact Or.inr ⟨rfl, id, by rw [hold], by rw [hp]; rfl⟩
        · exact absurd (if_neg hroot) (hforeign.old name hname)
      · obtain rfl := List.mem_singleton.mp he
        rw [Edit.named, hentry] at hforeign
        exact absurd hforeign (not_foreign_of_grouped hp)
  | flushIpmi id => simp [Op.edits] at he
  | flushAccount =>
    simp only [Op.edits] at he
    split at he
    case h_1 => simp at he
    case h_2 ls hls =>
      rcases List.mem_append.mp he with he | he
      · rcases List.mem_append.mp he with he | he
        · exact Or.inl (hbase e he)
        · obtain ⟨p, hp, rfl⟩ := List.mem_map.mp he
          rw [Edit.named, hentry] at hforeign
          have hmem : p.1 ∈ w.flushed := by
            rw [← World.map_fst_of_mapM hls]
            exact List.mem_map_of_mem hp
          exact absurd hforeign (not_foreign_of_mem_flushed hmem)
      · obtain ⟨name, hname, rfl⟩ := List.mem_map.mp he
        exact absurd hforeign (not_foreign_of_mem_stale hwf hname)

end Foreign

/-- The edits for an update that is given the old name `root`. -/
theorem edits_root {α : Type} {w : World} {files : Files} {id : ℕ} {p : AccountLine × RoleGroup}
    (hp : Op.grouped w id = some p) (base : List (Edit α String))
    (entry : AccountLine → RoleGroup → α) :
  (Op.updateUser id (some actualRootUserName)).edits w files base entry
    = [.delete actualRootUserName, .put (entry p.1 p.2) true]
  := by
  simp only [Op.edits, hp, Op.oldUsername]
  rfl

/-- An update that is given the old name `root` removes the administrator of the system. -/
theorem not_frame_of_root {w : World} {files : Files} (hwf : files.WellFormed) {id : ℕ}
    (hid : (Op.grouped w id).isSome = true)
    (hforeign : Foreign w files (.updateUser id (some actualRootUserName)) actualRootUserName)
    {l : Line} (hl : l ∈ files.passwd ++ files.shadow) (hname : l.name = actualRootUserName) :
  ¬ Frame w files (.updateUser id (some actualRootUserName))
  := by
  intro hframe
  obtain ⟨hpasswd, hshadow⟩ := (Op.updateUser id (some actualRootUserName)).result_lines w files
  obtain ⟨p, hp⟩ := Option.isSome_iff_exists.mp hid
  obtain ⟨a, -, huser⟩ := userName_of_grouped hp
  have hne : p.1.userName ≠ actualRootUserName := huser ▸ fileName_ne_root _
  rcases List.mem_append.mp hl with hl | hl
  · have hafter := hframe.1 l hl (hname.symm ▸ hforeign)
    rw [hpasswd, Op.passwdEdits, edits_root hp] at hafter
    have hkey : passwdFile.dataKey (p.1.passwdUser w.shell p.2) ≠ actualRootUserName := hne
    exact not_mem_saved passwdFile_named hwf.isSome_passwd hkey hl hname hafter
  · have hafter := hframe.2 l hl (hname.symm ▸ hforeign)
    rw [hshadow, Op.shadowEdits, edits_root hp] at hafter
    have hkey : shadowFile.dataKey p.1.shadowUser ≠ actualRootUserName := hne
    exact not_mem_saved shadowFile_named hwf.isSome_shadow hkey hl hname hafter

/-- The administrator of the system is removed. -/
def RemovesRoot (w : World) (files : Files) (op : Op) : Prop :=
  ∃ id, op = .updateUser id (some actualRootUserName) ∧ (Op.grouped w id).isSome = true
    ∧ Foreign w files op actualRootUserName
    ∧ ∃ l ∈ files.passwd ++ files.shadow, l.name = actualRootUserName

section Keep

variable {w : World} {files : Files} {op : Op}

/-- The edits do not replace the entries of lines that no account has. -/
theorem edits_keep (hwf : files.WellFormed) (hroot : ¬ RemovesRoot w files op) {α : Type}
    (key : α → String) {base : List (Edit α String)} (hbase : ∀ e ∈ base, ∃ d, e = .put d false)
    {entry : AccountLine → RoleGroup → α} (hentry : ∀ l g, key (entry l g) = l.userName)
    {l : Line} (hl : l ∈ files.passwd ++ files.shadow) (hforeign : Foreign w files op l.name) :
  ∀ e ∈ op.edits w files base entry, e.named key = l.name → ∃ d, e = .put d false
  := by
  intro e he hname
  rcases edits_foreign hwf key hbase hentry he (hname.symm ▸ hforeign) with hput
    | ⟨rfl, id, hop, hid⟩
  · exact hput
  · have hline : l.name = actualRootUserName := hname.symm
    exact absurd ⟨id, hop, hid, hline ▸ hforeign, l, hl, hline⟩ hroot

theorem frame_passwd_iff (hwf : files.WellFormed) (hroot : ¬ RemovesRoot w files op) :
  (∀ l ∈ files.passwd, Foreign w files op l.name → l ∈ (op.result w files).passwd)
    ↔ (Rewritten passwdFile files.passwd (op.passwdEdits w files) →
      ∀ l ∈ files.passwd, Foreign w files op l.name →
        files.passwd.find? (·.name = l.name) = some l ∧ l.getD 1 [] = ['x'])
  := by
  have hbase : ∀ e ∈ World.appEdits, ∃ d, e = .put d false := by
    intro e he
    obtain ⟨u, -, rfl⟩ := List.mem_map.mp he
    exact ⟨_, rfl⟩
  rw [(op.result_lines w files).1, mem_saved_iff passwdFile_named hwf.isSome_passwd]
  · apply imp_congr_right
    intro _
    apply forall₂_congr
    intro l hl
    rw [keeps_passwdFile_iff (hwf.passwd l hl)]
  · intro l hl hforeign
    exact edits_keep hwf hroot passwdFile.dataKey hbase (fun _ _ => rfl)
      (List.mem_append_left _ hl) hforeign

theorem frame_shadow_iff (hwf : files.WellFormed) (hroot : ¬ RemovesRoot w files op) :
  (∀ l ∈ files.shadow, Foreign w files op l.name → l ∈ (op.result w files).shadow)
    ↔ (Rewritten shadowFile files.shadow (op.shadowEdits w files) →
      ∀ l ∈ files.shadow, Foreign w files op l.name →
        files.shadow.find? (·.name = l.name) = some l ∧ ∀ i ∈ [3, 4, 5, 6], l.getD i [] = [])
  := by
  rw [(op.result_lines w files).2, mem_saved_iff shadowFile_named hwf.isSome_shadow]
  · apply imp_congr_right
    intro _
    apply forall₂_congr
    intro l hl
    rw [keeps_shadowFile_iff (hwf.shadow l hl)]
  · intro l hl hforeign
    exact edits_keep hwf hroot shadowFile.dataKey (fun e he => absurd he List.not_mem_nil)
      (fun _ _ => rfl) (List.mem_append_right _ hl) hforeign

end Keep

/-- An operation leaves the users of the system alone if and only if it does no harm to
them. -/
theorem frame_iff (w : World) (files : Files) (hwf : files.WellFormed) (op : Op) :
  Frame w files op ↔ Harmless w files op
  := by
  by_cases hroot : RemovesRoot w files op
  case pos =>
    obtain ⟨id, rfl, hid, hforeign, l, hl, hname⟩ := hroot
    apply iff_of_false
    · exact not_frame_of_root hwf hid hforeign hl hname
    · intro hharmless
      exact hharmless.root id rfl hid hforeign l hl hname
  case neg =>
    rw [Frame, frame_passwd_iff hwf hroot, frame_shadow_iff hwf hroot]
    constructor
    · rintro ⟨hpasswd, hshadow⟩
      exact {
        root := fun id hop hid hforeign l hl hname =>
          hroot ⟨id, hop, hid, hforeign, l, hl, hname⟩
        passwd := hpasswd
        shadow := hshadow }
    · intro hharmless
      exact ⟨hharmless.passwd, hharmless.shadow⟩

/-! ### An account with the name of the administrator -/

/-- The orders of tables as they are written. -/
def plainPairs : Pairs where
  roleGroups := roleGroupMap
  roleGroups_perm := .refl _
  visit := id
  visit_perm _ := .refl _

/-- A single administrator account of the given name. -/
def plainWorld (name : String) : World where
  state := plainState [(2, plainAccount name 4 223)]
  order := [2]
  order_nodup := by decide
  mem_order id := by
    have hkeys : (plainState [(2, plainAccount name 4 223)]).accounts.keys = [2] := rfl
    rw [AList.lookup_isSome, AList.mem_keys, hkeys]
  visible := true
  interChassisEnabled := false
  shell := "/bin/bash"
  pairs := plainPairs

/-- Files with the system's user `root` only. -/
def rootFiles : Files where
  passwd := [["root".toList, ['x'], ['0'], ['0'], "root".toList, ['/'], "/sbin/nologin".toList]]
  shadow := [["root".toList, ['*'], [], [], [], [], [], [], []]]
  group := []
  ipmi := []

theorem wellFormed_rootFiles :
  rootFiles.WellFormed
  where
  passwd l hl := by
    obtain rfl := List.mem_singleton.mp hl
    exact ⟨_, _, 0, 0, _, _, _, rfl⟩
  shadow l hl := by
    obtain rfl := List.mem_singleton.mp hl
    exact ⟨_, _, none, none, none, none, none, none, _, rfl⟩
  ipmi l hl := absurd hl List.not_mem_nil

theorem foreign_root (name : String) (op : Op) :
  Foreign (plainWorld name) rootFiles op actualRootUserName
  where
  current _ _ _ := fileName_ne_root _
  ipmi l hl := absurd hl List.not_mem_nil
  passwd l hl _ := by
    obtain rfl := List.mem_singleton.mp hl
    decide
  old _ _ := fileName_ne_root _

/-- A change of the role of an account that is called `root`. -/
theorem rootRole_not_frame :
  ¬ ∀ (w : World) (files : Files) (op : Op), files.WellFormed → Frame w files op
  := by
  intro h
  have hgroup : (Op.grouped (plainWorld "root") 2).isSome = true := by decide +kernel
  have hline : rootFiles.passwd.head? = some _ := rfl
  exact not_frame_of_root wellFormed_rootFiles hgroup (foreign_root _ _)
    (List.mem_append_left _ (List.mem_of_mem_head? hline)) (by decide)
    (h _ _ _ wellFormed_rootFiles)

/-- A change of the password of an account that is called `alice`. -/
theorem frame_password :
  Frame (plainWorld "alice") rootFiles (.updateUser 2 none)
  := by
  apply (frame_iff _ _ wellFormed_rootFiles _).mpr
  exact {
    root := fun id hop => by simp at hop
    passwd := fun _ l hl _ => by
      obtain rfl := List.mem_singleton.mp hl
      decide
    shadow := fun _ l hl _ => by
      obtain rfl := List.mem_singleton.mp hl
      decide }

end Linux

end BmcAccount
