import BmcAccount.Linux.Groups
import BmcAccount.Linux.Frame

/-!
# Flushing all accounts

`flush_account` reconciles the four files with the accounts. Each file is read once, edited and
written if an edit has changed it, so what a second flush does depends on how the entries that
the first has written are read back: those of `passwd` and `group` are the same, those of
`shadow` differ in the fields on the age of the password, and those of the file of IPMI users
differ from any entry of an account in the type of the user identifier.
-/

namespace BmcAccount

namespace Linux

open Keyed Roster

/-! ## Reading what has been written -/

/-- A value that is read back as it was written. -/
def Value.IsPlain (v : Value) : Prop :=
  tonumber v.str = v

theorem isPlain_tonumber (t : List Char) :
  (tonumber t).IsPlain
  := by
  unfold tonumber
  split
  · exact tonumber_toDigits _
  · rfl

theorem isPlain_num (n : ℕ) :
  (Value.num n).IsPlain
  :=
  tonumber_toDigits n

section Read

variable {L α : Type} {F : Format L α}

/-- Entries that have been written are read back one by one. -/
theorem entries_load_map {ds : List α} (hnodup : (ds.map F.dataKey).Nodup) {norm : α → α}
    (hread : ∀ d ∈ ds, F.lineToData (F.dataToLine d) = some (norm d))
    (hkey : ∀ d, F.dataKey (norm d) = F.dataKey d) :
  (LinuxFile.load F (ds.map F.dataToLine)).datas.entries = ds.map norm
  := by
  have hlines : (ds.map F.dataToLine).filterMap F.lineToData = ds.map norm := by
    rw [List.filterMap_map, ← List.filterMap_eq_map]
    exact List.filterMap_congr hread
  rw [LinuxFile.load, hlines]
  apply Book.entries_ofList_of_nodup
  rw [List.map_map]
  have hkeys : F.dataKey ∘ norm = F.dataKey := funext hkey
  rw [hkeys]
  exact hnodup

/-- The entries of a file that has been saved, if they are read as they were written. -/
theorem entries_load_lines (f : LinuxFile F) (hdirty : f.datas.isDirty = true)
    (hread : ∀ d ∈ f.datas.entries, F.lineToData (F.dataToLine d) = some d) :
  (LinuxFile.load F f.save.lines).datas.entries = f.datas.entries
  := by
  rw [LinuxFile.lines_save, if_pos hdirty]
  rw [entries_load_map f.datas.nodup hread fun _ => rfl, List.map_id']

end Read

section Lines

variable {α : Type} {F : Format Line α}

/-- A name has one line for its entry. -/
theorem countP_name (hF : F.Named) (b : Book F.dataKey) (k : String) :
  (b.entries.map F.dataToLine).countP (·.name = k) = if (b.get k).isSome then 1 else 0
  := by
  have hcount : (b.entries.map F.dataToLine).countP (·.name = k)
      = (b.entries.map F.dataKey).count k := by
    rw [List.count, List.countP_map, List.countP_map]
    apply List.countP_congr
    intro d _
    simp [hF.name_line]
  rw [hcount]
  split
  case isTrue h => exact List.count_eq_one_of_mem b.nodup (Book.isSome_get.mp h)
  case isFalse h => exact List.count_eq_zero_of_not_mem (Book.isSome_get.not.mp h)

/-- The entry of a line that is the only one of its name. -/
theorem get_load_of_countP (hF : F.Named) {lines : List Line}
    (hwf : ∀ l ∈ lines, (F.lineToData l).isSome = true) {l : Line} (hl : l ∈ lines)
    (hone : lines.countP (·.name = l.name) = 1) :
  (LinuxFile.load F lines).get l.name = F.lineToData l
  := by
  have hfind : lines.find? (·.name = l.name) = some l := by
    rw [List.countP_eq_length_filter, List.length_eq_one_iff] at hone
    obtain ⟨l', hfilter⟩ := hone
    have hmem : l ∈ lines.filter (·.name = l.name) := List.mem_filter.mpr ⟨hl, by simp⟩
    rw [hfilter, List.mem_singleton] at hmem
    rw [← List.head?_filter, hfilter, hmem]
    rfl
  rw [show (LinuxFile.load F lines).get l.name = _ from get_load hF hwf l.name, hfind,
    Option.bind_some]

/-- A name with an entry has a line. -/
theorem countP_pos_of_get (hF : F.Named) {lines : List Line}
    (hwf : ∀ l ∈ lines, (F.lineToData l).isSome = true) {k : String}
    (hget : ((LinuxFile.load F lines).datas.get k).isSome = true) :
  ∃ l ∈ lines, l.name = k
  := by
  obtain ⟨d, hd⟩ := Option.isSome_iff_exists.mp hget
  rw [get_load hF hwf] at hd
  obtain ⟨l, hfind, -⟩ := Option.bind_eq_some_iff.mp hd
  exact ⟨l, List.mem_of_find?_eq_some hfind, by simpa using List.find?_some hfind⟩

end Lines

/-! ## The four files -/

namespace World

variable (w : World) (files : Files)

/-- The files after `flush_account`. -/
def flush : Files :=
  Op.flushAccount.result w files

/-- The edits of a file of users: the users of the system are added, the accounts are updated
and the users that are gone are deleted. -/
def flushEdits {α : Type} (base : List (Edit α String)) (ds : List α) : List (Edit α String) :=
  base ++ (ds.map fun d => .put d true) ++ (w.stale files).map .delete

/-- The entries of the accounts in `passwd`. -/
def passwdUsers (ls : List (AccountLine × RoleGroup)) : List PasswdUser :=
  ls.map fun p => p.1.passwdUser w.shell p.2

/-- The file `passwd` before it is saved. -/
def passwdFile₁ (ls : List (AccountLine × RoleGroup)) : LinuxFile passwdFile :=
  (LinuxFile.load passwdFile files.passwd).run (w.flushEdits files appEdits (w.passwdUsers ls))

/-- The file `shadow` before it is saved. -/
def shadowFile₁ : LinuxFile shadowFile :=
  (LinuxFile.load shadowFile files.shadow).run
    (w.flushEdits files [] (w.flushed.map AccountLine.shadowUser))

/-- The file of IPMI users before it is saved. -/
def ipmiFile₁ : LinuxFile ipmiUserFile :=
  (LinuxFile.load ipmiUserFile files.ipmi).run
    (w.flushEdits files [] (w.flushed.map AccountLine.ipmiUser))

/-- The file `group` before it is saved, when users are removed in the given order. -/
def groupFile₁ (ls : List (AccountLine × RoleGroup)) (gone : List String) :
    LinuxFile groupFile :=
  gone.foldl (LinuxFile.leave w.pairs.roleGroups)
    (ls.foldl (LinuxFile.moveAccount w.pairs.roleGroups)
      ((LinuxFile.load groupFile files.group).ensureGroups w.pairs))

variable {w files} {ls : List (AccountLine × RoleGroup)}

/-- The files after a flush, if all roles have groups. -/
theorem flush_files (hls : w.flushed.mapM withGroup = some ls) :
  (w.flush files).passwd = (w.passwdFile₁ files ls).save.lines
    ∧ (w.flush files).shadow = (w.shadowFile₁ files).save.lines
    ∧ (w.flush files).ipmi = (w.ipmiFile₁ files).save.lines
    ∧ ∃ gone, gone.Perm (w.stale files).dedup
      ∧ (w.flush files).group = (w.groupFile₁ files ls gone).save.lines
  := by
  have hspec := w.flushAccount_spec files
  rw [hls] at hspec
  obtain ⟨la, hla, hp, hs, hi⟩ := hspec
  obtain ⟨gone, hgone, hg⟩ := w.groupFile_flushAccount hls hla
  have hflush : w.flush files = la.files := by
    simp only [flush, Op.result, Op.exec, hla, Option.map_some, Option.getD_some]
  have hshadow : (ls.map fun p => Edit.put (κ := String) p.1.shadowUser true)
      = (w.flushed.map AccountLine.shadowUser).map fun d => .put d true := by
    rw [← map_fst_of_mapM hls, List.map_map, List.map_map]
    rfl
  have hipmi : (ls.map fun p => Edit.put (κ := String) p.1.ipmiUser true)
      = (w.flushed.map AccountLine.ipmiUser).map fun d => .put d true := by
    rw [← map_fst_of_mapM hls, List.map_map, List.map_map]
    rfl
  rw [hshadow] at hs
  rw [hipmi] at hi
  rw [hflush]
  refine ⟨?_, ?_, ?_, gone, hgone, ?_⟩
  · simp only [LinuxUserMgr.files, hp, passwdFile₁, flushEdits, passwdUsers, List.map_map]
    rfl
  · simp only [LinuxUserMgr.files, hs]
    rfl
  · simp only [LinuxUserMgr.files, hi]
    rfl
  · simp only [LinuxUserMgr.files, hg]
    rfl

end World

end Linux

end BmcAccount
