import BmcAccount.Linux.Users

/-!
# Operations as edits

Each operation of `file_synchronization` amounts to a sequence of edits of the file `passwd`
and one of the file `shadow`, which are then written if one of the edits changes them. For
`flush_account` the users to delete can be told from the files as they are before.
-/

namespace BmcAccount

namespace Linux

open Keyed

/-! ## Removing users -/

namespace LinuxUserMgr

variable {la : LinuxUserMgr} {pairs : Pairs}

/-- Users are removed one after the other, without saving. -/
def removeAll (pairs : Pairs) (names : List String) (la : LinuxUserMgr) : LinuxUserMgr :=
  names.foldl (fun la name => la.removeUserOfAll pairs false name) la

theorem removeAll_append (names names' : List String) :
  la.removeAll pairs (names ++ names') = (la.removeAll pairs names).removeAll pairs names'
  :=
  List.foldl_append

theorem removeAll_passwdFile (names : List String) :
  (la.removeAll pairs names).passwdFile = la.passwdFile.run (names.map .delete)
  := by
  induction names generalizing la with
  | nil => rfl
  | cons name names ih => exact ih

theorem removeAll_shadowFile (names : List String) :
  (la.removeAll pairs names).shadowFile = la.shadowFile.run (names.map .delete)
  := by
  induction names generalizing la with
  | nil => rfl
  | cons name names ih => exact ih

theorem removeAll_ipmiFile (names : List String) :
  (la.removeAll pairs names).ipmiFile = la.ipmiFile.run (names.map .delete)
  := by
  induction names generalizing la with
  | nil => rfl
  | cons name names ih => exact ih

theorem get_removeUserOfAll_passwdFile {name k : String} (h : k ≠ name) :
  (la.removeUserOfAll pairs false name).passwdFile.get k = la.passwdFile.get k
  := by
  have hrun : (la.passwdFile.run [.delete name]).datas.get k = la.passwdFile.datas.get k :=
    Book.get_run (by simpa [Edit.named] using h.symm)
  exact hrun

theorem get_removeUserOfAll_ipmiFile {name k : String} (h : k ≠ name) :
  (la.removeUserOfAll pairs false name).ipmiFile.get k = la.ipmiFile.get k
  := by
  have hrun : (la.ipmiFile.run [.delete name]).datas.get k = la.ipmiFile.datas.get k :=
    Book.get_run (by simpa [Edit.named] using h.symm)
  exact hrun

/-- A loop that removes the users it visits if a test on their entries says so. The entries of
users that are visited later are the same as before the loop. -/
theorem foldl_remove {α : Type} (pairs : Pairs) (la : LinuxUserMgr)
    (get : LinuxUserMgr → String → Option α) (test : String → α → Bool)
    (hget : ∀ la name k, k ≠ name → get (la.removeUserOfAll pairs false name) k = get la k)
    {names : List String} (hnodup : names.Nodup) :
  names.foldl (fun la name =>
      match get la name with
      | none => la
      | some d => if test name d then la.removeUserOfAll pairs false name else la) la
    = la.removeAll pairs (names.filter fun name => (get la name).any (test name))
  := by
  induction names generalizing la with
  | nil => rfl
  | cons name names ih =>
    obtain ⟨hname, hnodup⟩ := List.nodup_cons.mp hnodup
    have hsame : ∀ k ∈ names, get (la.removeUserOfAll pairs false name) k = get la k := by
      intro k hk
      apply hget
      rintro rfl
      exact hname hk
    rw [List.foldl_cons, List.filter_cons]
    cases hd : get la name with
    | none => simp only [Option.any_none, Bool.false_eq_true, if_false, ih _ hnodup]
    | some d =>
      simp only [Option.any_some]
      split
      case isTrue h =>
        rw [ih _ hnodup]
        have hfilter : (names.filter fun k =>
              (get (la.removeUserOfAll pairs false name) k).any (test k))
            = names.filter fun k => (get la k).any (test k) := by
          apply List.filter_congr
          intro k hk
          rw [hsame k hk]
        rw [hfilter]
        rfl
      case isFalse h => rw [ih _ hnodup]

end LinuxUserMgr

/-! ## Cleaning -/

namespace World

variable (w : World)

/-- The users that the first loop of `clean_abnormal_data` removes. -/
def stalePasswd (la : LinuxUserMgr) : List String :=
  (w.pairs.visit (la.passwdFile.datas.entries.map PasswdUser.userName)).filter fun name =>
    (la.passwdFile.get name).any fun user => isAccountUid user.userId && name ∉ w.userMap

/-- The users that the second loop of `clean_abnormal_data` removes. -/
def staleIpmi (la : LinuxUserMgr) : List String :=
  (w.pairs.visit (la.ipmiFile.datas.entries.map IpmiUser.userName)).filter fun name =>
    (la.ipmiFile.get name).any fun _ => decide (name ∉ w.userMap)

theorem cleanPasswd_eq (la : LinuxUserMgr) :
  w.cleanPasswd la = la.removeAll w.pairs (w.stalePasswd la)
  := by
  have hnodup := (w.pairs.visit_perm _).nodup_iff.mpr la.passwdFile.datas.nodup
  have hfold := LinuxUserMgr.foldl_remove w.pairs la (fun la name => la.passwdFile.get name)
    (fun name user => isAccountUid user.userId && decide (name ∉ w.userMap))
    (fun la name k hk => LinuxUserMgr.get_removeUserOfAll_passwdFile hk) hnodup
  refine Eq.trans ?_ hfold
  unfold cleanPasswd
  congr 1
  funext la name
  cases la.passwdFile.get name <;> rfl

theorem cleanIpmi_eq (la : LinuxUserMgr) :
  w.cleanIpmi la = la.removeAll w.pairs (w.staleIpmi la)
  := by
  have hnodup := (w.pairs.visit_perm _).nodup_iff.mpr la.ipmiFile.datas.nodup
  have hfold := LinuxUserMgr.foldl_remove w.pairs la (fun la name => la.ipmiFile.get name)
    (fun name _ => decide (name ∉ w.userMap))
    (fun la name k hk => LinuxUserMgr.get_removeUserOfAll_ipmiFile hk) hnodup
  simp only [decide_eq_true_eq] at hfold
  refine Eq.trans ?_ hfold
  unfold cleanIpmi
  congr 1
  funext la name
  cases la.ipmiFile.get name <;> rfl

theorem mem_stalePasswd {la : LinuxUserMgr} {k : String} :
  k ∈ w.stalePasswd la ↔
    k ∉ w.userMap ∧ ∃ user, la.passwdFile.get k = some user ∧ isAccountUid user.userId = true
  := by
  rw [stalePasswd, List.mem_filter, (w.pairs.visit_perm _).mem_iff, Option.any_eq_true]
  constructor
  · rintro ⟨-, user, hget, htest⟩
    simp only [Bool.and_eq_true, decide_eq_true_eq] at htest
    exact ⟨htest.2, user, hget, htest.1⟩
  · rintro ⟨hk, user, hget, huid⟩
    refine ⟨?_, user, hget, by simp [huid, hk]⟩
    obtain ⟨hmem, rfl⟩ := Book.get_eq_some.mp hget
    exact List.mem_map_of_mem hmem

theorem mem_staleIpmi {la : LinuxUserMgr} {k : String} :
  k ∈ w.staleIpmi la ↔ k ∉ w.userMap ∧ k ∈ la.ipmiFile.datas.entries.map IpmiUser.userName
  := by
  rw [staleIpmi, List.mem_filter, (w.pairs.visit_perm _).mem_iff, Option.any_eq_true]
  constructor
  · rintro ⟨hmem, user, -, hk⟩
    exact ⟨by simpa using hk, hmem⟩
  · rintro ⟨hk, hmem⟩
    obtain ⟨user, hget⟩ := Option.isSome_iff_exists.mp (Book.isSome_get.mpr hmem)
    exact ⟨hmem, user, hget, by simpa using hk⟩

/-! ## Updating users -/

/-- An account with the group of its role, if there is one. -/
def withGroup (account : AccountLine) : Option (AccountLine × RoleGroup) :=
  (roleGroup account.role).map fun g => (account, g)

/-- The updates of `flush_account` succeed if all roles have groups, and put the entries of the
accounts one after the other. -/
theorem foldlM_updateUser (shell : String) (pairs : Pairs) (accounts : List AccountLine)
    (la : LinuxUserMgr) :
  match accounts.mapM withGroup with
  | none =>
    accounts.foldlM (fun (la : LinuxUserMgr) account => la.updateUser shell pairs false account)
      la = none
  | some ls => ∃ la',
    accounts.foldlM (fun (la : LinuxUserMgr) account => la.updateUser shell pairs false account)
      la = some la'
    ∧ la'.passwdFile = la.passwdFile.run (ls.map fun p => .put (p.1.passwdUser shell p.2) true)
    ∧ la'.shadowFile = la.shadowFile.run (ls.map fun p => .put p.1.shadowUser true)
    ∧ la'.ipmiFile = la.ipmiFile.run (ls.map fun p => .put p.1.ipmiUser true)
  := by
  induction accounts generalizing la with
  | nil => exact ⟨la, rfl, rfl, rfl, rfl⟩
  | cons account accounts ih =>
    rw [List.mapM_cons, List.foldlM_cons]
    cases hg : roleGroup account.role with
    | none =>
      simp [withGroup, hg, LinuxUserMgr.updateUser, LinuxUserMgr.addUser]
    | some g =>
      have hupdate : ∃ la₁, la.updateUser shell pairs false account = some la₁
          ∧ la₁.passwdFile = la.passwdFile.edit (.put (account.passwdUser shell g) true)
          ∧ la₁.shadowFile = la.shadowFile.edit (.put account.shadowUser true)
          ∧ la₁.ipmiFile = la.ipmiFile.edit (.put account.ipmiUser true) := by
        unfold LinuxUserMgr.updateUser LinuxUserMgr.addUser
        rw [hg]
        exact ⟨_, rfl, rfl, rfl, rfl⟩
      obtain ⟨la₁, hla₁, hp, hs, hi⟩ := hupdate
      have ih := ih la₁
      simp only [withGroup, hg, Option.map_some, Option.bind_eq_bind, Option.bind_some, hla₁]
      cases hm : accounts.mapM withGroup with
      | none =>
        rw [hm] at ih
        simpa [withGroup] using ih
      | some ls =>
        rw [hm] at ih
        obtain ⟨la', hla', hp', hs', hi'⟩ := ih
        exact ⟨la', hla', by rw [hp', hp]; rfl, by rw [hs', hs]; rfl, by rw [hi', hi]; rfl⟩

/-! ## The system's users -/

/-- The edits that add the users of the system. -/
def appEdits : List (Edit PasswdUser String) :=
  appUsers.map fun u => .put u.passwdUser false

theorem foldl_ensureAppUser (us : List AppUser) (la : LinuxUserMgr) :
  (us.foldl LinuxUserMgr.ensureAppUser la).passwdFile
      = la.passwdFile.run (us.map fun u => .put u.passwdUser false)
    ∧ (us.foldl LinuxUserMgr.ensureAppUser la).shadowFile = la.shadowFile
    ∧ (us.foldl LinuxUserMgr.ensureAppUser la).ipmiFile = la.ipmiFile
  := by
  induction us generalizing la with
  | nil => exact ⟨rfl, rfl, rfl⟩
  | cons u us ih => exact ih (la.ensureAppUser u)

theorem ensureSystemBaseUserExists_files (pairs : Pairs) (la : LinuxUserMgr) :
  (la.ensureSystemBaseUserExists pairs).passwdFile = la.passwdFile.run appEdits
    ∧ (la.ensureSystemBaseUserExists pairs).shadowFile = la.shadowFile
    ∧ (la.ensureSystemBaseUserExists pairs).ipmiFile = la.ipmiFile
  :=
  foldl_ensureAppUser appUsers _

/-! ## Flushing -/

/-- The users that `flush_account` removes: those with the user identifier of an account or with
a line in the file of IPMI users, and no account. -/
def stale (files : Files) : List String :=
  ((LinuxFile.load passwdFile files.passwd).datas.entries.filter
      fun user => isAccountUid user.userId && user.userName ∉ w.userMap).map PasswdUser.userName
    ++ ((LinuxFile.load ipmiUserFile files.ipmi).datas.entries.map IpmiUser.userName).filter
      (· ∉ w.userMap)

theorem mem_stale {files : Files} {k : String} :
  k ∈ w.stale files ↔ k ∉ w.userMap
    ∧ ((∃ user, (LinuxFile.load passwdFile files.passwd).get k = some user
        ∧ isAccountUid user.userId = true)
      ∨ k ∈ (LinuxFile.load ipmiUserFile files.ipmi).datas.entries.map IpmiUser.userName)
  := by
  rw [stale, List.mem_append, List.mem_filter, decide_eq_true_eq, List.mem_map]
  constructor
  · rintro (⟨user, hmem, rfl⟩ | ⟨hmem, hk⟩)
    · simp only [List.mem_filter, Bool.and_eq_true, decide_eq_true_eq] at hmem
      exact ⟨hmem.2.2, Or.inl ⟨user, Book.get_eq_some.mpr ⟨hmem.1, rfl⟩, hmem.2.1⟩⟩
    · exact ⟨hk, Or.inr hmem⟩
  · rintro ⟨hk, ⟨user, hget, huid⟩ | hmem⟩
    · obtain ⟨hmem, rfl⟩ := Book.get_eq_some.mp hget
      have hstale : (isAccountUid user.userId && decide (user.userName ∉ w.userMap)) = true := by
        rw [huid, Bool.true_and, decide_eq_true_eq]
        exact hk
      exact Or.inl ⟨user, List.mem_filter.mpr ⟨hmem, hstale⟩, rfl⟩
    · exact Or.inr ⟨hmem, hk⟩

/-- The user identifiers of the system's users are not those of accounts. -/
theorem isAccountUid_appUser {u : AppUser} (h : u ∈ appUsers) :
  isAccountUid u.passwdUser.userId = false
  := by
  revert u
  decide

theorem map_fst_of_mapM {accounts : List AccountLine} {ls : List (AccountLine × RoleGroup)}
    (h : accounts.mapM withGroup = some ls) :
  ls.map Prod.fst = accounts
  := by
  induction accounts generalizing ls with
  | nil =>
    obtain rfl : [] = ls := by simpa using h
    rfl
  | cons account accounts ih =>
    rw [List.mapM_cons] at h
    simp only [withGroup, Option.bind_eq_bind, Option.bind_eq_some_iff, Option.map_eq_some_iff,
      Option.pure_def, Option.some.injEq] at h
    obtain ⟨p, ⟨g, -, rfl⟩, ls', hls', rfl⟩ := h
    rw [List.map_cons, ih hls']

theorem userName_mem_userMap {ls : List (AccountLine × RoleGroup)}
    (hls : ls.map Prod.fst = w.flushed) {p : AccountLine × RoleGroup} (hp : p ∈ ls) :
  p.1.userName ∈ w.userMap
  := by
  rw [userMap, ← hls, List.map_map]
  exact List.mem_map_of_mem hp

/-- Which users have a user identifier of an account and no account does not change before they
are removed. -/
theorem get_run_passwd {ls : List (AccountLine × RoleGroup)} (hls : ls.map Prod.fst = w.flushed)
    (f : LinuxFile passwdFile) {k : String} (hk : k ∉ w.userMap) :
  (∃ user, (f.run (appEdits ++ ls.map fun p => .put (p.1.passwdUser w.shell p.2) true)).get k
      = some user ∧ isAccountUid user.userId = true)
    ↔ ∃ user, f.get k = some user ∧ isAccountUid user.userId = true
  := by
  constructor
  · rintro ⟨user, hget, huid⟩
    obtain ⟨hmem, rfl⟩ := Book.get_eq_some.mp hget
    rcases Book.mem_entries_run hmem with hmem | ⟨overwrite, hput⟩
    · exact ⟨user, Book.get_eq_some.mpr ⟨hmem, rfl⟩, huid⟩
    rcases List.mem_append.mp hput with hput | hput
    · obtain ⟨u, hu, heq⟩ := List.mem_map.mp hput
      simp only [Edit.put.injEq] at heq
      rw [← heq.1, isAccountUid_appUser hu] at huid
      exact absurd huid (by decide)
    · obtain ⟨p, hp, heq⟩ := List.mem_map.mp hput
      simp only [Edit.put.injEq] at heq
      have hin : passwdFile.dataKey user ∈ w.userMap := by
        rw [← heq.1]
        exact w.userName_mem_userMap hls hp
      exact absurd hin hk
  · rintro ⟨user, hget, huid⟩
    refine ⟨user, ?_, huid⟩
    rw [LinuxFile.get_run]
    apply Book.get_run_of_not_overwrite hget
    intro e he hnamed
    rcases List.mem_append.mp he with he | he
    · obtain ⟨u, -, rfl⟩ := List.mem_map.mp he
      exact ⟨_, rfl⟩
    · obtain ⟨p, hp, rfl⟩ := List.mem_map.mp he
      have hin : k ∈ w.userMap := by
        rw [← hnamed]
        exact w.userName_mem_userMap hls hp
      exact absurd hin hk

/-- The users that are removed can be told from the files before. -/
theorem mem_stale_append {files : Files} {la : LinuxUserMgr}
    {ls : List (AccountLine × RoleGroup)} (hls : ls.map Prod.fst = w.flushed)
    (hp : la.passwdFile = (LinuxFile.load passwdFile files.passwd).run
      (appEdits ++ ls.map fun p => .put (p.1.passwdUser w.shell p.2) true))
    (hi : la.ipmiFile = (LinuxFile.load ipmiUserFile files.ipmi).run
      (ls.map fun p => .put p.1.ipmiUser true))
    (k : String) :
  k ∈ w.stalePasswd la ++ w.staleIpmi (w.cleanPasswd la) ↔ k ∈ w.stale files
  := by
  by_cases hk : k ∈ w.userMap
  · simp [mem_stalePasswd, mem_staleIpmi, mem_stale, hk]
  have hkeys : ∀ f : LinuxFile ipmiUserFile,
      k ∈ f.datas.entries.map IpmiUser.userName ↔ (f.get k).isSome = true :=
    fun f => Book.isSome_get.symm
  have hputs : la.ipmiFile.get k = (LinuxFile.load ipmiUserFile files.ipmi).get k := by
    rw [hi, LinuxFile.get_run]
    apply Book.get_run
    intro e he
    obtain ⟨p, hp, rfl⟩ := List.mem_map.mp he
    rintro rfl
    exact hk (w.userName_mem_userMap hls hp)
  have hpasswd : k ∈ w.stalePasswd la ↔ ∃ user,
      (LinuxFile.load passwdFile files.passwd).get k = some user
        ∧ isAccountUid user.userId = true := by
    rw [mem_stalePasswd, hp, w.get_run_passwd hls _ hk, and_iff_right hk]
  have hipmi : k ∈ w.staleIpmi (w.cleanPasswd la)
      ↔ k ∉ w.stalePasswd la
        ∧ ((LinuxFile.load ipmiUserFile files.ipmi).get k).isSome = true := by
    rw [mem_staleIpmi, and_iff_right hk, hkeys, cleanPasswd_eq,
      LinuxUserMgr.removeAll_ipmiFile, LinuxFile.get_run, Book.get_run_deletes]
    split
    case isTrue h => simp [h]
    case isFalse h =>
      rw [and_iff_right h, ← hputs]
      rfl
  rw [List.mem_append, mem_stale, hkeys, ← hpasswd, hipmi]
  tauto

theorem flushAccount_spec (files : Files) :
  match w.flushed.mapM withGroup with
  | none => w.flushAccount files = none
  | some ls => ∃ la, w.flushAccount files = some la
    ∧ la.passwdFile = ((LinuxFile.load passwdFile files.passwd).run
        (appEdits ++ (ls.map fun p => .put (p.1.passwdUser w.shell p.2) true)
          ++ (w.stale files).map .delete)).save
    ∧ la.shadowFile = ((LinuxFile.load shadowFile files.shadow).run
        ((ls.map fun p => .put p.1.shadowUser true) ++ (w.stale files).map .delete)).save
    ∧ la.ipmiFile = ((LinuxFile.load ipmiUserFile files.ipmi).run
        ((ls.map fun p => .put p.1.ipmiUser true) ++ (w.stale files).map .delete)).save
  := by
  have hupdates := foldlM_updateUser w.shell w.pairs w.flushed
    ((LinuxUserMgr.new files).ensureSystemBaseUserExists w.pairs)
  obtain ⟨hp₀, hs₀, hi₀⟩ := ensureSystemBaseUserExists_files w.pairs (LinuxUserMgr.new files)
  cases hm : w.flushed.mapM withGroup with
  | none =>
    rw [hm] at hupdates
    simp only [flushAccount]
    rw [hupdates]
    rfl
  | some ls =>
    rw [hm] at hupdates
    obtain ⟨la, hla, hp, hs, hi⟩ := hupdates
    rw [hp₀, ← LinuxFile.run_append] at hp
    rw [hs₀] at hs
    rw [hi₀] at hi
    have hstale := w.mem_stale_append (map_fst_of_mapM hm) hp hi
    have hclean : w.cleanIpmi (w.cleanPasswd la)
        = la.removeAll w.pairs (w.stalePasswd la ++ w.staleIpmi (w.cleanPasswd la)) := by
      rw [cleanIpmi_eq, LinuxUserMgr.removeAll_append, ← cleanPasswd_eq]
    refine ⟨(w.cleanIpmi (w.cleanPasswd la)).save, ?_, ?_, ?_, ?_⟩
    · simp only [flushAccount]
      rw [hla]
      rfl
    · rw [hclean, LinuxUserMgr.save, LinuxUserMgr.removeAll_passwdFile, hp,
        LinuxFile.run_deletes_congr hstale, LinuxFile.run_append _ (appEdits ++ _)]
      rfl
    · rw [hclean, LinuxUserMgr.save, LinuxUserMgr.removeAll_shadowFile, hs,
        LinuxFile.run_deletes_congr hstale, LinuxFile.run_append]
      rfl
    · rw [hclean, LinuxUserMgr.save, LinuxUserMgr.removeAll_ipmiFile, hi,
        LinuxFile.run_deletes_congr hstale, LinuxFile.run_append]
      rfl

end World

/-! ## Operations -/

/-- The operations of `file_synchronization`. A change of a role or of a password and a change
of the name are updates, the last with the old name. -/
inductive Op where
  | addUser (id : ℕ)
  | removeUser (id : ℕ)
  | updateUser (id : ℕ) (oldUsername : Option String)
  | flushIpmi (id : ℕ)
  | flushAccount

namespace Op

/-- The user manager after an operation, unless it raises an error. -/
def exec (w : World) (files : Files) : Op → Option LinuxUserMgr
  | .addUser id => w.addUser id files
  | .removeUser id => w.removeUser id files
  | .updateUser id oldUsername => w.updateUser id oldUsername files
  | .flushIpmi id => w.flushIpmi id files
  | .flushAccount => w.flushAccount files

/-- The files after an operation. -/
def result (w : World) (files : Files) (op : Op) : Files :=
  ((op.exec w files).map LinuxUserMgr.files).getD files

/-- The old name that an operation is given. -/
def oldUsername : Op → Option String
  | .updateUser _ old => old.filter (· ≠ "")
  | _ => none

/-- An account with the group of its role. -/
def grouped (w : World) (id : ℕ) : Option (AccountLine × RoleGroup) :=
  (w.accountLine id none).bind World.withGroup

/-- The edits of a file of users: `base` are those for the users of the system, and `entry`
makes the entry of an account. There are none if the operation raises an error. -/
def edits {α : Type} (w : World) (files : Files) (base : List (Edit α String))
    (entry : AccountLine → RoleGroup → α) (op : Op) : List (Edit α String) :=
  match op with
  | .addUser id =>
    match grouped w id with
    | none => []
    | some p => [.put (entry p.1 p.2) true]
  | .removeUser id =>
    match grouped w id with
    | none => []
    | some p => [.delete p.1.userName]
  | .updateUser id _ =>
    match grouped w id with
    | none => []
    | some p => (op.oldUsername.toList.map .delete) ++ [.put (entry p.1 p.2) true]
  | .flushIpmi _ => []
  | .flushAccount =>
    match w.flushed.mapM World.withGroup with
    | none => []
    | some ls =>
      base ++ (ls.map fun p => .put (entry p.1 p.2) true) ++ (w.stale files).map .delete

/-- The edits of the file `passwd`. -/
def passwdEdits (w : World) (files : Files) (op : Op) : List (Edit PasswdUser String) :=
  op.edits w files World.appEdits (AccountLine.passwdUser w.shell)

/-- The edits of the file `shadow`. -/
def shadowEdits (w : World) (files : Files) (op : Op) : List (Edit ShadowUser String) :=
  op.edits w files [] fun l _ => l.shadowUser

/-- An update that is saved at once. -/
theorem updateUser_saved (shell : String) (pairs : Pairs) (account : AccountLine)
    (la : LinuxUserMgr) {g : RoleGroup} (hg : roleGroup account.role = some g) :
  ∃ la', la.updateUser shell pairs true account = some la'
    ∧ la'.passwdFile.lines
      = (la.passwdFile.edit (.put (account.passwdUser shell g) true)).save.lines
    ∧ la'.shadowFile.lines = (la.shadowFile.edit (.put account.shadowUser true)).save.lines
  := by
  unfold LinuxUserMgr.updateUser LinuxUserMgr.addUser
  rw [hg]
  refine ⟨_, rfl, ?_, ?_⟩
  · simp only [LinuxUserMgr.saveIf, LinuxUserMgr.save, if_true, LinuxFile.save_save]
    rfl
  · simp only [LinuxUserMgr.saveIf, LinuxUserMgr.save, if_true, LinuxFile.save_save]
    rfl

/-- An update in the two files. -/
theorem updateUser_lines (w : World) (files : Files) (id : ℕ) (old : Option String) :
  match grouped w id with
  | none => w.updateUser id old files = none
  | some p => ∃ la, w.updateUser id old files = some la
    ∧ la.passwdFile.lines = ((LinuxFile.load passwdFile files.passwd).run
        (((old.filter (· ≠ "")).toList.map .delete)
          ++ [.put (p.1.passwdUser w.shell p.2) true])).save.lines
    ∧ la.shadowFile.lines = ((LinuxFile.load shadowFile files.shadow).run
        (((old.filter (· ≠ "")).toList.map .delete) ++ [.put p.1.shadowUser true])).save.lines
  := by
  unfold World.updateUser grouped World.accountLine
  cases ha : w.state.accounts.lookup id with
  | none => cases old.filter (· ≠ "") <;> simp
  | some a =>
    have hrole : ∀ o, (getAccountFileLine w.state w.visible id a o).role = a.data.roleId :=
      fun _ => rfl
    cases hg : roleGroup a.data.roleId with
    | none =>
      cases old.filter (· ≠ "") <;>
        simp [World.withGroup, hrole, hg, LinuxUserMgr.updateUser, LinuxUserMgr.addUser,
          LinuxUserMgr.removeUser]
    | some g =>
      simp only [Option.map_some, Option.bind_some, World.withGroup, hrole, hg]
      cases old.filter (· ≠ "") with
      | none =>
        exact updateUser_saved w.shell w.pairs _ (LinuxUserMgr.new files) ((hrole none).symm ▸ hg)
      | some old =>
        simp only [LinuxUserMgr.removeUser, hg, Option.map_some, Option.bind_some]
        obtain ⟨la', hla', hp, hs⟩ := updateUser_saved w.shell w.pairs
          (getAccountFileLine w.state w.visible id a (some old)) _ hg
        refine ⟨la', hla', ?_, ?_⟩
        · rw [hp]
          exact LinuxFile.save_edit_save _ _
        · rw [hs]
          exact LinuxFile.save_edit_save _ _

/-- The two files after an operation are those with the edits of the operation. -/
theorem result_lines (w : World) (files : Files) (op : Op) :
  (op.result w files).passwd
      = ((LinuxFile.load passwdFile files.passwd).run (op.passwdEdits w files)).save.lines
    ∧ (op.result w files).shadow
      = ((LinuxFile.load shadowFile files.shadow).run (op.shadowEdits w files)).save.lines
  := by
  unfold result passwdEdits shadowEdits
  cases op with
  | addUser id =>
    simp only [exec, edits, grouped, World.addUser]
    cases w.accountLine id none with
    | none => exact ⟨rfl, rfl⟩
    | some account =>
      simp only [Option.bind_some, World.withGroup, LinuxUserMgr.addUser]
      cases roleGroup account.role with
      | none => exact ⟨rfl, rfl⟩
      | some g => exact ⟨rfl, rfl⟩
  | removeUser id =>
    simp only [exec, edits, grouped, World.removeUser]
    cases w.accountLine id none with
    | none => exact ⟨rfl, rfl⟩
    | some account =>
      simp only [Option.bind_some, World.withGroup, LinuxUserMgr.removeUser]
      cases roleGroup account.role with
      | none => exact ⟨rfl, rfl⟩
      | some g => exact ⟨rfl, rfl⟩
  | updateUser id old =>
    have hupdate := updateUser_lines w files id old
    simp only [exec, edits, oldUsername]
    cases hp : grouped w id with
    | none =>
      rw [hp] at hupdate
      rw [hupdate]
      exact ⟨rfl, rfl⟩
    | some p =>
      rw [hp] at hupdate
      obtain ⟨la, hla, hpasswd, hshadow⟩ := hupdate
      rw [hla]
      exact ⟨hpasswd, hshadow⟩
  | flushIpmi id =>
    simp only [exec, edits, World.flushIpmi]
    cases w.accountLine id none with
    | none => exact ⟨rfl, rfl⟩
    | some account => exact ⟨rfl, rfl⟩
  | flushAccount =>
    have hflush := w.flushAccount_spec files
    simp only [exec, edits]
    cases hm : w.flushed.mapM World.withGroup with
    | none =>
      rw [hm] at hflush
      rw [hflush]
      exact ⟨rfl, rfl⟩
    | some ls =>
      rw [hm] at hflush
      obtain ⟨la, hla, hpasswd, hshadow, -⟩ := hflush
      rw [hla]
      exact ⟨congrArg LinuxFile.lines hpasswd, congrArg LinuxFile.lines hshadow⟩

end Op

end Linux

end BmcAccount
