import BmcAccount.Account.Object
import BmcAccount.Lib.Raise

/-!
# The dictionary of weak passwords

The dictionary is a file with a password on each line. The service has its lines in memory; it
reads them when it starts, and when a dictionary is imported. An import reads the new file and
checks it, marks the dictionary as being in process, puts the lines in the place of the old
ones, copies the file, and takes the mark away.

A copy that fails leaves the mark and the new lines; every other failure leaves everything as
it was (`import_atomic_iff`). The import skips blank lines and the start does not, which no
password can tell.
-/

namespace BmcAccount

namespace WeakDictionary

open Raise

/-! ## The service -/

/-- A line of a file, byte by byte. -/
abbrev Line : Type := List Char

/-- `m_weak_password_dictionary_config_status`. -/
inductive Status where
  | complete
  | inProcess
deriving DecidableEq

/-- The dictionary in memory, its status, the longest password, and the file of the dictionary
if it is there. -/
structure Service where
  dictionary : List Line
  status : Status
  maxPasswordLength : ℕ
  file : Option (List Char)
deriving DecidableEq

/-- The errors; `io` is one of the functions that work on files. -/
inductive Err where
  | weakPwdDictImportFailed
  | operationInProcess
  | passwordInWeakPwdDict (what : String)
  | io
deriving DecidableEq

/-- `file:lines()`: what lies between the line feeds; after the last one there is no line. -/
def fileLines (content : List Char) : List Line :=
  let parts := content.splitOn '\n'
  if parts.getLast? = some [] then parts.dropLast else parts

/-- `string.gsub(line, "\r", "")`. -/
def removeReturns (line : Line) : Line := line.filter (· ≠ '\r')

/-- A start of the service: `ctor` and `init`, which copies the initial file if there is
none. -/
def Service.init (initial : List Char) (s : Service) : Service :=
  { s with
    dictionary := (fileLines (s.file.getD initial)).map removeReturns
    status := .complete
    file := some (s.file.getD initial) }

/-- `check_password_in_weak_passwd_dictionary`, for the interface of the context. -/
def Service.checkPassword (s : Service) (interface passwdType : String)
    (password : Line) : Except Err Unit :=
  if s.status = .inProcess then .error .operationInProcess
  else if s.dictionary.contains password then
    .error (.passwordInWeakPwdDict
      (if interface = "WEB" ∧ passwdType = "snmp_password" then "The snmp privacy password"
        else "Password"))
  else .ok ()

/-! ## Imports -/

/-- The path of an import, and what the functions that work on files do with it: whether it is
a directory, whether its real path lies below a header, whether it is opened and its size is
found, what it holds, after how many lines reading fails, and whether it is copied. -/
structure Import where
  path : List Char
  isDir : Bool
  realPathBelow : List Char → Bool
  opens : Bool
  seeks : Bool
  content : List Char
  readFails : Option ℕ
  copies : Bool

/-- `MAX_FILEPATH_LENGTH`. -/
def maxFilepathLength : ℕ := 256

/-- `FILE_LIMITED_SIZE`. -/
def fileLimitedSize : ℕ := 1024 * 1024

/-- `WEAK_PWDDICT_MAX_SUPPORTED_LINES`. -/
def maxSupportedLines : ℕ := 1000

/-- `check_import_path`. -/
def Import.checkImportPath (i : Import) (header : List Char) : Bool :=
  i.path.length ≠ 0 && i.path.length ≤ maxFilepathLength
    && !decide ("/../".toList <:+: i.path) && !decide ("//".toList <:+: i.path)
    && !i.isDir && i.realPathBelow (header ++ ['/'])

/-- The path lies below `SHM_PATH` or `TMP_PATH`. -/
def Import.pathPermitted (i : Import) : Bool :=
  i.checkImportPath "/dev/shm".toList || i.checkImportPath "/tmp".toList

/-- What `io.lines` gives, one after the other; the last may be that reading fails. -/
def Import.reads (i : Import) : List (Option Line) :=
  match i.readFails with
  | none => (fileLines i.content).map some
  | some k => ((fileLines i.content).take k).map some ++ [none]

/-- `check_string_is_valid_ascii`. -/
def isValidAscii (line : Line) : Bool :=
  line.all fun c => 32 ≤ c.toNat && c.toNat ≤ 126

/-- The loop over the lines, with those that have been taken. -/
def readDictionary (maxLength : ℕ) : List (Option Line) → List Line → Except Err (List Line)
  | [], taken => .ok taken
  | none :: _, _ => .error .io
  | some line :: rest, taken =>
    if line = [] then readDictionary maxLength rest taken
    else if maxLength < (removeReturns line).length then .error .weakPwdDictImportFailed
    else if !isValidAscii (removeReturns line) then .error .weakPwdDictImportFailed
    else if maxSupportedLines < (taken ++ [removeReturns line]).length then
      .error .weakPwdDictImportFailed
    else readDictionary maxLength rest (taken ++ [removeReturns line])

/-- `copy_file_content_s` to the file of the dictionary. -/
def copyFileContent (i : Import) : Prog Err Service Unit := do
  refuse (!i.copies) .io
  modify fun s => { s with file := some i.content }

/-- The part of `import_weak_pwd_dictionary` that checks the file and reads it. -/
def readImport (i : Import) : Prog Err Service (List Line) := do
  let s ← get
  refuse (decide (s.status = .inProcess)) .weakPwdDictImportFailed
  refuse (!i.pathPermitted) .weakPwdDictImportFailed
  refuse (!i.opens) .weakPwdDictImportFailed
  refuse (!i.seeks) .io
  refuse (decide (fileLimitedSize < i.content.length ∨ i.content.length = 0))
    .weakPwdDictImportFailed
  outcome (readDictionary s.maxPasswordLength i.reads [])

/-- `import_weak_pwd_dictionary`. -/
def importWeakPwdDictionary (i : Import) : Prog Err Service Unit := do
  let taken ← readImport i
  modify fun s => { s with status := .inProcess }
  modify fun s => { s with dictionary := taken }
  copyFileContent i
  modify fun s => { s with status := .complete }

/-! ## What is expected -/

/-- An import that raises leaves everything as it was. -/
def Atomic (i : Import) (s : Service) : Prop :=
  ∀ e s', exec (importWeakPwdDictionary i) s = (.error e, s') → s' = s

/-- After an import that succeeds, a password other than the empty one is judged as after the
next start. -/
def SurvivesRestart (i : Import) (s : Service) : Prop :=
  ∀ s', exec (importWeakPwdDictionary i) s = (.ok (), s') →
    ∀ initial interface passwdType password, password ≠ [] →
      s'.checkPassword interface passwdType password
        = (s'.init initial).checkPassword interface passwdType password

/-- The entries that an import makes of the lines of a file. -/
def entries (ls : List Line) : List Line := (ls.filter (· ≠ [])).map removeReturns

/-- The import comes to the point where the file is copied: no other import is in process, and
the path, the size and the lines are as they have to be. -/
structure ReachesCopy (i : Import) (s : Service) : Prop where
  status : s.status = .complete
  path : i.pathPermitted = true
  opens : i.opens = true
  seeks : i.seeks = true
  size : 0 < i.content.length ∧ i.content.length ≤ fileLimitedSize
  reads : i.readFails = none
  short : ∀ line ∈ entries (fileLines i.content), line.length ≤ s.maxPasswordLength
  visible : ∀ line ∈ entries (fileLines i.content), isValidAscii line = true
  count : (entries (fileLines i.content)).length ≤ maxSupportedLines

/-! ## The lines -/

theorem entries_cons_blank (ls : List Line) :
  entries ([] :: ls) = entries ls
  := rfl

theorem entries_cons {line : Line} (h : line ≠ []) (ls : List Line) :
  entries (line :: ls) = removeReturns line :: entries ls
  := by
  rw [entries, List.filter_cons_of_pos (by simpa using h), List.map_cons, entries]

/-- Lines that are read without failing are taken exactly when all of them are as they have to
be. -/
theorem readDictionary_map_some_iff {maxLength : ℕ} (ls : List Line) {taken d : List Line}
    (htaken : taken.length ≤ maxSupportedLines) :
  readDictionary maxLength (ls.map some) taken = .ok d
    ↔ (∀ line ∈ entries ls, line.length ≤ maxLength ∧ isValidAscii line = true)
      ∧ taken.length + (entries ls).length ≤ maxSupportedLines ∧ d = taken ++ entries ls
  := by
  induction ls generalizing taken with
  | nil =>
    rw [List.map_nil, readDictionary, Except.ok.injEq, entries, List.filter_nil, List.map_nil,
      List.append_nil]
    constructor
    · rintro rfl
      exact ⟨by simp, htaken, rfl⟩
    · rintro ⟨-, -, rfl⟩
      rfl
  | cons line ls ih =>
    rw [List.map_cons, readDictionary]
    by_cases hblank : line = []
    · rw [if_pos hblank, ih htaken, hblank, entries_cons_blank]
    rw [if_neg hblank, entries_cons hblank, List.forall_mem_cons, List.length_cons]
    by_cases hlong : maxLength < (removeReturns line).length
    · rw [if_pos hlong]
      constructor
      · intro h
        exact nomatch h
      · rintro ⟨⟨⟨hshort, -⟩, -⟩, -⟩
        exact absurd hshort (Nat.not_le_of_lt hlong)
    rw [if_neg hlong]
    by_cases hvisible : isValidAscii (removeReturns line) = true
    swap
    · rw [if_pos (by simpa using hvisible)]
      constructor
      · intro h
        exact nomatch h
      · rintro ⟨⟨⟨-, h⟩, -⟩, -⟩
        exact absurd h hvisible
    rw [if_neg (by simpa using hvisible)]
    have hlength : (taken ++ [removeReturns line]).length = taken.length + 1 := by simp
    by_cases hmany : maxSupportedLines < (taken ++ [removeReturns line]).length
    · rw [if_pos hmany]
      constructor
      · intro h
        exact nomatch h
      · rintro ⟨-, hcount, -⟩
        omega
    rw [if_neg hmany, ih (Nat.le_of_not_lt hmany), hlength, List.append_assoc,
      List.singleton_append]
    have hcount : taken.length + 1 + (entries ls).length
        = taken.length + ((entries ls).length + 1) := by omega
    rw [hcount]
    constructor
    · rintro ⟨hall, h⟩
      exact ⟨⟨⟨Nat.le_of_not_lt hlong, hvisible⟩, hall⟩, h⟩
    · rintro ⟨⟨-, hall⟩, h⟩
      exact ⟨hall, h⟩

/-- Where reading fails nothing is taken. -/
theorem readDictionary_fails (maxLength : ℕ) (ls : List Line) (taken d : List Line) :
  readDictionary maxLength (ls.map some ++ [none]) taken ≠ .ok d
  := by
  induction ls generalizing taken with
  | nil =>
    intro h
    exact nomatch h
  | cons line ls ih =>
    rw [List.map_cons, List.cons_append, readDictionary]
    split
    · apply ih
    split
    · exact nofun
    split
    · exact nofun
    split
    · exact nofun
    · apply ih

/-! ## Imports, step by step -/

section

variable {i : Import} {s s' : Service}

/-- The checks and the loop leave the service as it is. -/
theorem readImport_keeps (s : Service) :
  Keeps (· = s) (readImport i)
  := by
  apply Keeps.bind Keeps.get
  intro s₀
  apply Keeps.bind Keeps.refuse
  rintro ⟨⟩
  apply Keeps.bind Keeps.refuse
  rintro ⟨⟩
  apply Keeps.bind Keeps.refuse
  rintro ⟨⟩
  apply Keeps.bind Keeps.refuse
  rintro ⟨⟩
  apply Keeps.bind Keeps.refuse
  rintro ⟨⟩
  apply Keeps.outcome

/-- The checks and the loop return exactly when the import comes to the copy, and then they
return the entries of the file. -/
theorem exec_readImport_iff (d : List Line) :
  exec (readImport i) s = (.ok d, s) ↔ ReachesCopy i s ∧ d = entries (fileLines i.content)
  := by
  constructor
  · intro h
    obtain ⟨s₀, s₁, hget, h⟩ := exec_bind_eq_ok h
    obtain ⟨rfl, rfl⟩ : s = s₀ ∧ s = s₁ := by simpa using hget
    obtain ⟨_, s₂, hstep, h⟩ := exec_bind_eq_ok h
    obtain ⟨hstatus, rfl⟩ := exec_refuse_eq_ok hstep
    clear hstep
    obtain ⟨_, s₃, hstep, h⟩ := exec_bind_eq_ok h
    obtain ⟨hpath, rfl⟩ := exec_refuse_eq_ok hstep
    clear hstep
    obtain ⟨_, s₄, hstep, h⟩ := exec_bind_eq_ok h
    obtain ⟨hopens, rfl⟩ := exec_refuse_eq_ok hstep
    clear hstep
    obtain ⟨_, s₅, hstep, h⟩ := exec_bind_eq_ok h
    obtain ⟨hseeks, rfl⟩ := exec_refuse_eq_ok hstep
    clear hstep
    obtain ⟨_, s₆, hstep, h⟩ := exec_bind_eq_ok h
    obtain ⟨hlarge, rfl⟩ := exec_refuse_eq_ok hstep
    clear hstep
    rw [exec_outcome] at h
    have hread := (Prod.ext_iff.mp h).1
    have hsize := of_decide_eq_false hlarge
    have hfails : i.readFails = none := by
      cases hfails : i.readFails with
      | none => rfl
      | some k =>
        rw [Import.reads, hfails] at hread
        exact absurd hread (readDictionary_fails _ _ _ _)
    rw [Import.reads, hfails] at hread
    have hempty : ([] : List Line).length ≤ maxSupportedLines := Nat.zero_le maxSupportedLines
    obtain ⟨hall, hcount, hd⟩ := (readDictionary_map_some_iff _ hempty).mp hread
    refine ⟨?_, hd⟩
    exact {
      status := by
        cases hs : s.status with
        | complete => rfl
        | inProcess => simp [hs] at hstatus
      path := by simpa using hpath
      opens := by simpa using hopens
      seeks := by simpa using hseeks
      size := by omega
      reads := hfails
      short := fun line hline => (hall line hline).1
      visible := fun line hline => (hall line hline).2
      count := by simpa using hcount }
  · rintro ⟨h, rfl⟩
    have hread : readDictionary s.maxPasswordLength i.reads []
        = .ok (entries (fileLines i.content)) := by
      rw [Import.reads, h.reads]
      apply (readDictionary_map_some_iff _ (Nat.zero_le _)).mpr
      refine ⟨fun line hline => ⟨h.short line hline, h.visible line hline⟩, ?_, rfl⟩
      rw [List.length_nil, Nat.zero_add]
      exact h.count
    have hsize : decide (fileLimitedSize < i.content.length ∨ i.content.length = 0) = false := by
      have := h.size
      apply decide_eq_false
      omega
    simp only [readImport, exec_bind, exec_get, exec_outcome, h.status, h.path, h.opens, h.seeks,
      hsize, hread, Bool.not_true, reduceCtorEq, decide_false, exec_refuse_false]

/-- The import comes to the copy: the new lines are there, and the mark goes when the file is
copied. -/
theorem exec_import_of_reachesCopy (h : ReachesCopy i s) :
  exec (importWeakPwdDictionary i) s =
    if i.copies then
      (.ok (), { s with
        dictionary := entries (fileLines i.content)
        status := .complete
        file := some i.content })
    else
      (.error .io, { s with
        dictionary := entries (fileLines i.content)
        status := .inProcess })
  := by
  rw [importWeakPwdDictionary, exec_bind_ok ((exec_readImport_iff _).mpr ⟨h, rfl⟩)]
  cases hcopies : i.copies with
  | true => simp [copyFileContent, exec_bind, hcopies]
  | false => simp [copyFileContent, exec_bind, hcopies]

/-- The import does not come to the copy: it raises, and the service is as it was. -/
theorem exec_import_of_not_reachesCopy (h : ¬ ReachesCopy i s) :
  ∃ e, exec (importWeakPwdDictionary i) s = (.error e, s)
  := by
  have hkeeps := (readImport_keeps (i := i) s).after rfl
  rcases hread : exec (readImport i) s with ⟨e | d, s'⟩
  · rw [Raise.after, hread] at hkeeps
    obtain rfl : s' = s := hkeeps
    exact ⟨e, exec_bind_error hread⟩
  · rw [Raise.after, hread] at hkeeps
    obtain rfl : s' = s := hkeeps
    exact absurd ((exec_readImport_iff d).mp hread).1 h

/-! ## The verdict on a password -/

theorem mem_entries_iff {password : Line} (h : password ≠ []) (ls : List Line) :
  password ∈ entries ls ↔ password ∈ ls.map removeReturns
  := by
  rw [entries, List.mem_map, List.mem_map]
  constructor
  · rintro ⟨line, hline, rfl⟩
    exact ⟨line, (List.mem_filter.mp hline).1, rfl⟩
  · rintro ⟨line, hline, rfl⟩
    refine ⟨line, List.mem_filter.mpr ⟨hline, ?_⟩, rfl⟩
    apply decide_eq_true
    rintro rfl
    exact h rfl

/-- The verdict depends on the status and on whether the password is an entry. -/
theorem checkPassword_congr {interface passwdType : String} {password : Line}
    (hstatus : s.status = s'.status) (h : password ∈ s.dictionary ↔ password ∈ s'.dictionary) :
  s.checkPassword interface passwdType password
    = s'.checkPassword interface passwdType password
  := by
  simp only [Service.checkPassword, hstatus, List.contains_iff_mem, h]

/-- While the mark is there, every import raises and every password is refused. -/
theorem inProcess_refuses (h : s.status = .inProcess) :
  (∃ e, exec (importWeakPwdDictionary i) s = (.error e, s))
    ∧ ∀ interface passwdType password,
      s.checkPassword interface passwdType password = .error .operationInProcess
  := by
  constructor
  · apply exec_import_of_not_reachesCopy
    intro hreaches
    exact nomatch h.symm.trans hreaches.status
  · intro interface passwdType password
    rw [Service.checkPassword, if_pos h]

/-- The configuration that the accounts see. -/
def Service.config (s : Service) (cfg : Config) : Config :=
  { cfg with
    weakPwdDictionaryInProcess := s.status = .inProcess
    weakPasswordDictionary := s.dictionary.map String.ofList }

/-- A password that an account accepts has passed the dictionary, if it is enabled. -/
theorem checkPassword_of_checkPasswordRules {env : Env} {cfg : Config} {a : Account}
    {userName password : String} (henabled : cfg.weakPwdDictionaryEnable = true)
    (h : a.checkPasswordRules env (s.config cfg) userName password = .ok ())
    (interface passwdType : String) :
  s.checkPassword interface passwdType password.toList = .ok ()
  := by
  rw [Account.checkPasswordRules] at h
  split at h
  · exact nomatch h
  split at h
  · exact nomatch h
  split at h
  · exact nomatch h
  split at h
  · exact nomatch h
  split at h
  · exact nomatch h
  case isFalse hstatus =>
    split at h
    · exact nomatch h
    case isFalse hentry =>
      rw [Service.config] at hstatus hentry
      simp only [henabled, Bool.true_and, decide_eq_true_eq] at hstatus
      simp only [henabled, Bool.true_and, List.contains_iff_mem, List.mem_map] at hentry
      rw [Service.checkPassword, if_neg hstatus, if_neg]
      intro hmem
      apply hentry
      exact ⟨password.toList, List.contains_iff_mem.mp hmem, String.ofList_toList⟩

/-! ## Atomic imports -/

theorem survivesRestart (i : Import) (s : Service) :
  SurvivesRestart i s
  := by
  intro s' h initial interface passwdType password hpassword
  by_cases hreaches : ReachesCopy i s
  swap
  · obtain ⟨e, he⟩ := exec_import_of_not_reachesCopy hreaches
    rw [he] at h
    exact nomatch (Prod.ext_iff.mp h).1
  rw [exec_import_of_reachesCopy hreaches] at h
  split at h
  case isFalse => exact nomatch (Prod.ext_iff.mp h).1
  case isTrue =>
    obtain rfl := (Prod.ext_iff.mp h).2
    apply checkPassword_congr
    · rfl
    · exact mem_entries_iff hpassword (fileLines i.content)

/-- An import is atomic, and what it has stored survives a restart, exactly when it does not
come to a copy that fails. -/
theorem import_atomic_iff (i : Import) (s : Service) :
  (Atomic i s ∧ SurvivesRestart i s) ↔ (ReachesCopy i s → i.copies = true)
  := by
  constructor
  · rintro ⟨hatomic, -⟩ hreaches
    by_contra hcopies
    have hexec := exec_import_of_reachesCopy hreaches
    rw [if_neg hcopies] at hexec
    have hsame := congrArg Service.status (hatomic _ _ hexec)
    rw [hreaches.status] at hsame
    exact nomatch hsame
  · intro h
    refine ⟨?_, survivesRestart i s⟩
    intro e s' hexec
    by_cases hreaches : ReachesCopy i s
    · rw [exec_import_of_reachesCopy hreaches, if_pos (h hreaches)] at hexec
      exact nomatch (Prod.ext_iff.mp hexec).1
    · obtain ⟨e', he'⟩ := exec_import_of_not_reachesCopy hreaches
      rw [he'] at hexec
      exact (Prod.ext_iff.mp hexec).2.symm

/-- The import of a file with two lines, which is copied or not. -/
def twoLines (copies : Bool) : Import where
  path := "/dev/shm/tmp/weakdictionary".toList
  isDir := false
  realPathBelow header := decide (header <+: "/dev/shm/tmp/weakdictionary".toList)
  opens := true
  seeks := true
  content := "secret\r\nAdmin1".toList
  readFails := none
  copies := copies

/-- The service after its first start. -/
def started : Service := ⟨["password".toList], .complete, 20, some "password\n".toList⟩

/-- When the copy fails, the import raises and the dictionary stays in process. -/
theorem not_atomic :
  ¬ Atomic (twoLines false) started
  := by
  intro h
  have hexec : exec (importWeakPwdDictionary (twoLines false)) started
      = (.error .io, ⟨["secret".toList, "Admin1".toList], .inProcess, 20,
          some "password\n".toList⟩) := by
    decide +kernel
  have hsame := congrArg Service.status (h _ _ hexec)
  exact nomatch hsame

end

end WeakDictionary

end BmcAccount
