import BmcAccount.Linux.Flush

/-!
# The files of users after a flush

The file of IPMI users has exactly the lines of the accounts after a flush, since an entry that
has been read never agrees with the one of an account. The files `passwd` and `shadow` are written
only if an edit changes them. If they are, they have one line for each account; if they are not,
lines whose key an earlier line has stay, since these have not been read.
-/

namespace BmcAccount

namespace Linux

open Keyed

/-! ## Lines of a name -/

section Lines

variable {α : Type} {F : Format Line α} {lines : List Line} {es : List (Edit α String)}

theorem filter_name_map (hF : F.Named) {b : Book F.dataKey} {k : String} {d : α}
    (hget : b.get k = some d) :
  (b.entries.map F.dataToLine).filter (·.name = k) = [F.dataToLine d]
  := by
  obtain ⟨hmem, hkey⟩ := Book.get_eq_some.mp hget
  have hone := countP_name hF b k
  rw [hget, Option.isSome_some, if_pos rfl, List.countP_eq_length_filter,
    List.length_eq_one_iff] at hone
  obtain ⟨l, hl⟩ := hone
  have hline : F.dataToLine d ∈ (b.entries.map F.dataToLine).filter (·.name = k) := by
    rw [List.mem_filter, decide_eq_true_eq, hF.name_line]
    exact ⟨List.mem_map_of_mem hmem, hkey⟩
  rw [hl, List.mem_singleton] at hline
  rw [hl, hline]

/-- The line of an entry is the only one of its name if there is only one. -/
theorem filter_name_iff (hF : F.Named) (hwf : ∀ l ∈ lines, (F.lineToData l).isSome = true)
    {k : String} {d : α} (hget : (LinuxFile.load F lines).get k = some d) :
  (lines.filter (·.name = k)).map F.lineToData = [some d]
    ↔ lines.countP (·.name = k) = 1
  := by
  constructor
  · intro h
    have hlength := congrArg List.length h
    rw [List.length_map] at hlength
    rw [List.countP_eq_length_filter]
    exact hlength
  · intro hone
    have hfilter := hone
    rw [List.countP_eq_length_filter, List.length_eq_one_iff] at hfilter
    obtain ⟨l, hl⟩ := hfilter
    have hmem : l ∈ lines.filter (·.name = k) := by
      rw [hl]
      exact List.mem_singleton_self l
    obtain ⟨hline, hname⟩ := List.mem_filter.mp hmem
    obtain rfl : l.name = k := by simpa using hname
    rw [hl, List.map_singleton, ← get_load_of_countP hF hwf hline hone, hget]

/-- The entries of a file that has been saved, whether it has been written or not. -/
theorem entries_load_saved
    (hread : ∀ d ∈ ((LinuxFile.load F lines).run es).datas.entries,
      F.lineToData (F.dataToLine d) = some d) :
  (LinuxFile.load F ((LinuxFile.load F lines).run es).save.lines).datas.entries
    = ((LinuxFile.load F lines).run es).datas.entries
  := by
  by_cases hd : Rewritten F lines es
  · exact entries_load_lines _ ((Book.run_isDirty es).mpr (Or.inr hd)) hread
  · have hsame : (LinuxFile.load F lines).datas.run F.equals es = (LinuxFile.load F lines).datas :=
      Book.run_of_not_touches fun e he ht => hd ⟨e, he, ht⟩
    rw [lines_saved_of_not_rewritten hd, LinuxFile.run, hsame]

end Lines

/-! ## Numbers in the file of users -/

/-- The identifiers of an entry are numbers. -/
def PasswdUser.IsNumbered (d : PasswdUser) : Prop :=
  ∃ u g, d.userId = .num u ∧ d.groupId = .num g

/-- An entry is read as it was written. -/
theorem PasswdUser.IsNumbered.read {d : PasswdUser} (h : d.IsNumbered) :
  passwdFile.lineToData (passwdFile.dataToLine d) = some d
  := by
  obtain ⟨u, g, hu, hg⟩ := h
  cases d
  simp only at hu hg
  subst hu hg
  simp only [passwdFile, Value.str, tonumber_toDigits, String.ofList_toList]

/-- An entry that agrees with another one is this one. -/
theorem PasswdUser.IsNumbered.eq_of_equals {own d : PasswdUser} (h : own.IsNumbered)
    (heq : passwdFile.equals own d = true) :
  own = d
  := by
  obtain ⟨u, g, hu, hg⟩ := h
  cases own
  cases d
  simp only at hu hg
  subst hu hg
  simp only [passwdFile, Value.covers, reduceCtorEq, decide_false, Bool.false_or, Bool.and_eq_true,
    decide_eq_true_eq] at heq
  obtain ⟨⟨⟨⟨⟨rfl, rfl⟩, rfl⟩, rfl⟩, rfl⟩, rfl⟩ := heq
  rfl

theorem AppUser.isNumbered_passwdUser (u : AppUser) :
  u.passwdUser.IsNumbered
  := by
  unfold AppUser.passwdUser
  split
  · exact ⟨_, _, rfl, rfl⟩
  · exact ⟨_, _, rfl, rfl⟩

theorem AccountLine.isNumbered_passwdUser (shell : String) (a : AccountLine) (g : RoleGroup) :
  (a.passwdUser shell g).IsNumbered
  :=
  ⟨_, _, rfl, rfl⟩

/-- The entries of a file have numbers where these belong. -/
def Numbered (lines : List Line) : Prop :=
  ∀ d ∈ (LinuxFile.load passwdFile lines).datas.entries, d.IsNumbered

theorem numbered_of_wellFormed {lines : List Line} (h : ∀ l ∈ lines, WellFormedPasswd l) :
  Numbered lines
  := by
  intro d hd
  obtain ⟨l, hl, hdata⟩ := List.mem_filterMap.mp (mem_of_mem_firsts hd).1
  obtain ⟨name, password, userId, groupId, gecos, homeDir, shell, rfl⟩ := h l hl
  obtain rfl := Option.some.inj hdata
  exact ⟨userId, groupId, tonumber_toDigits userId, tonumber_toDigits groupId⟩

theorem Numbered.run {lines : List Line} (h : Numbered lines) {es : List (Edit PasswdUser String)}
    (hes : ∀ d overwrite, .put d overwrite ∈ es → d.IsNumbered) :
  ∀ d ∈ ((LinuxFile.load passwdFile lines).run es).datas.entries, d.IsNumbered
  := by
  intro d hd
  rcases Book.mem_entries_run hd with hd | ⟨overwrite, hput⟩
  · exact h d hd
  · exact hes d overwrite hput

/-! ## Ages in the file of passwords -/

/-- The entry that is read from the line of an entry: the fields that have been written for the
age of the password are read into others. -/
def ShadowUser.reread (d : ShadowUser) : ShadowUser where
  userName := d.userName
  password := d.password
  lastPwdChange := tonumber d.lastPwdChange.str
  minimum := tonumber d.minimumor.str
  maximum := tonumber d.maximumor.str
  warn := tonumber d.warnor.str
  inactive := tonumber d.inactiveor.str
  expire := tonumber d.expire.str
  reserved := d.reserved

theorem ShadowUser.read (d : ShadowUser) :
  shadowFile.lineToData (shadowFile.dataToLine d) = some d.reread
  := by
  simp only [shadowFile, reread, String.ofList_toList]

/-- An entry has been read: nothing is known of the fields that are written for the ages. -/
structure ShadowUser.IsRead (d : ShadowUser) : Prop where
  lastPwdChange : d.lastPwdChange.IsPlain
  expire : d.expire.IsPlain
  minimumor : d.minimumor = .nil
  maximumor : d.maximumor = .nil
  warnor : d.warnor = .nil
  inactiveor : d.inactiveor = .nil

theorem isRead_of_lineToData {l : Line} {d : ShadowUser} (h : shadowFile.lineToData l = some d) :
  d.IsRead
  := by
  simp only [shadowFile] at h
  split at h
  case h_2 => simp at h
  case h_1 =>
    obtain rfl := Option.some.inj h
    exact ⟨isPlain_tonumber _, isPlain_tonumber _, rfl, rfl, rfl, rfl⟩

theorem isRead_load {lines : List Line} {d : ShadowUser}
    (h : d ∈ (LinuxFile.load shadowFile lines).datas.entries) :
  d.IsRead
  := by
  obtain ⟨l, -, hdata⟩ := List.mem_filterMap.mp (mem_of_mem_firsts h).1
  exact isRead_of_lineToData hdata

namespace ShadowUser.IsRead

variable {d : ShadowUser}

theorem reread_eq (h : d.IsRead) :
  d.reread = { d with minimum := .nil, maximum := .nil, warn := .nil, inactive := .nil }
  := by
  obtain ⟨hlast, hexpire, hminimum, hmaximum, hwarn, hinactive⟩ := h
  unfold Value.IsPlain at hlast hexpire
  cases d
  simp only at hlast hexpire hminimum hmaximum hwarn hinactive
  subst hminimum hmaximum hwarn hinactive
  simp only [reread, hlast, hexpire]
  rfl

/-- Once it has been written, an entry does not change any more. -/
theorem dataToLine_reread (h : d.IsRead) :
  shadowFile.dataToLine d.reread = shadowFile.dataToLine d
  := by
  rw [h.reread_eq]
  rfl

/-- An entry that agrees with another one still does when it has been written. -/
theorem equals_reread (h : d.IsRead) {shadow : ShadowUser}
    (heq : shadowFile.equals d shadow = true) :
  shadowFile.equals d.reread shadow = true
  := by
  rw [h.reread_eq]
  simp only [shadowFile, Bool.and_eq_true] at heq ⊢
  obtain ⟨⟨⟨⟨⟨⟨⟨⟨⟨⟨⟨⟨h₁, h₂⟩, h₃⟩, -⟩, -⟩, -⟩, -⟩, h₈⟩, h₉⟩, h₁₀⟩, h₁₁⟩, h₁₂⟩, h₁₃⟩ := heq
  exact ⟨⟨⟨⟨⟨⟨⟨⟨⟨⟨⟨⟨h₁, h₂⟩, h₃⟩, rfl⟩, rfl⟩, rfl⟩, rfl⟩, h₈⟩, h₉⟩, h₁₀⟩, h₁₁⟩, h₁₂⟩, h₁₃⟩

end ShadowUser.IsRead

/-- The entry of an account does not agree with what is read from its line. -/
theorem AccountLine.equals_reread (a : AccountLine) :
  shadowFile.equals a.shadowUser.reread a.shadowUser = false
  := by
  have hminimum : a.shadowUser.reread.minimum.covers a.shadowUser.minimum = false := rfl
  simp only [shadowFile, hminimum, Bool.and_false, Bool.false_and]

/-- Entries that agree have the same password. -/
theorem password_of_equals {own shadow : ShadowUser} (h : shadowFile.equals own shadow = true) :
  own.password = shadow.password
  := by
  simp only [shadowFile, Bool.and_eq_true, decide_eq_true_eq] at h
  exact h.1.1.1.1.1.1.1.1.1.1.1.2

namespace World

variable {w : World} {files : Files} {ls : List (AccountLine × RoleGroup)}

/-! ## Accounts and stale users -/

theorem not_mem_stale {k : String} (hk : k ∈ w.userMap) :
  k ∉ w.stale files
  := by
  intro hstale
  exact (w.mem_stale.mp hstale).1 hk

theorem flushEdits_eq {α : Type} (base : List (Edit α String)) (ds : List α) :
  w.flushEdits files base ds
    = base ++ ((ds.map fun d => .put d true) ++ (w.stale files).map .delete)
  :=
  List.append_assoc _ _ _

/-! ## The file of IPMI users -/

/-- The entries of the accounts in the file of IPMI users. -/
def ipmiUsers (w : World) : List IpmiUser :=
  w.flushed.map AccountLine.ipmiUser

theorem keys_ipmiUsers :
  w.ipmiUsers.map ipmiUserFile.dataKey = w.userMap
  :=
  List.map_map

/-- The user identifiers that are read from the file are texts. -/
theorem userId_of_ipmiLineToData {l : Line} {user : IpmiUser} (h : ipmiLineToData l = some user) :
  ∃ t, user.userId = .text t
  := by
  unfold ipmiLineToData at h
  split at h
  case h_2 => simp at h
  case h_1 =>
    split at h
    case h_3 => simp at h
    all_goals
      obtain rfl := Option.some.inj h
      exact ⟨_, rfl⟩

/-- An entry that has been read does not agree with the one of an account. -/
theorem moves_ipmiUser (lines : List Line) (a : AccountLine) :
  (LinuxFile.load ipmiUserFile lines).datas.Moves ipmiUserFile.equals a.ipmiUser = true
  := by
  unfold Book.Moves
  split
  case h_1 => rfl
  case h_2 own hown =>
    obtain ⟨hmem, -⟩ := Book.get_eq_some.mp hown
    obtain ⟨l, -, hdata⟩ := List.mem_filterMap.mp (mem_of_mem_firsts hmem).1
    obtain ⟨t, ht⟩ := userId_of_ipmiLineToData hdata
    have hid : own.userId.covers a.ipmiUser.userId = false := by
      rw [ht]
      rfl
    simp only [ipmiUserFile, hid, Bool.and_false, Bool.false_and, Bool.not_false]

/-- The file has the entries of the accounts in their order. -/
theorem entries_ipmiFile₁ (hnodup : w.userMap.Nodup) :
  (w.ipmiFile₁ files).datas.entries = w.ipmiUsers
  := by
  have hmoves : w.ipmiUsers.filter
      ((LinuxFile.load ipmiUserFile files.ipmi).datas.Moves ipmiUserFile.equals) = w.ipmiUsers := by
    rw [List.filter_eq_self]
    intro d hd
    obtain ⟨a, -, rfl⟩ := List.mem_map.mp hd
    exact moves_ipmiUser files.ipmi a
  have hentries := Book.entries_run_puts_deletes ipmiUserFile.equals
    (LinuxFile.load ipmiUserFile files.ipmi).datas w.ipmiUsers (w.stale files) (keys_ipmiUsers ▸ hnodup) fun d hd =>
      not_mem_stale (keys_ipmiUsers ▸ List.mem_map_of_mem hd)
  rw [hmoves, keys_ipmiUsers] at hentries
  have hnil : ((LinuxFile.load ipmiUserFile files.ipmi).datas.entries.filter
      (ipmiUserFile.dataKey · ∉ w.userMap)).filter (ipmiUserFile.dataKey · ∉ w.stale files) = [] := by
    rw [List.filter_filter, List.filter_eq_nil_iff]
    intro d hd h
    simp only [Bool.and_eq_true, decide_eq_true_eq] at h
    exact h.1 (w.mem_stale.mpr ⟨h.2, Or.inr (List.mem_map_of_mem hd)⟩)
  rw [hnil, List.nil_append] at hentries
  exact hentries

/-- Lines that are read have entries. -/
theorem eq_nil_of_entries {L α : Type} {F : Format L α} {lines : List L}
    (hwf : ∀ l ∈ lines, (F.lineToData l).isSome = true)
    (h : (LinuxFile.load F lines).datas.entries = []) :
  lines = []
  := by
  rw [List.eq_nil_iff_forall_not_mem]
  intro l hl
  obtain ⟨d, hd⟩ := Option.isSome_iff_exists.mp (hwf l hl)
  have hnone : (LinuxFile.load F lines).datas.get (F.dataKey d) = none := by
    rw [Book.get, h]
    rfl
  rw [LinuxFile.load, Book.get_ofList, List.find?_eq_none] at hnone
  exact hnone d (List.mem_filterMap.mpr ⟨l, hl, hd⟩) (by simp)

/-- The file of IPMI users has exactly the lines of the accounts. -/
theorem ipmi_flush (hls : w.flushed.mapM withGroup = some ls) (hnodup : w.userMap.Nodup)
    (hwf : ∀ l ∈ files.ipmi, (ipmiLineToData l).isSome = true) :
  (w.flush files).ipmi = w.ipmiUsers.map IpmiUser.fields
  := by
  obtain ⟨-, -, hipmi, -⟩ := @flush_files w files ls hls
  rw [hipmi, LinuxFile.lines_save]
  split
  case isTrue =>
    rw [entries_ipmiFile₁ hnodup]
    rfl
  case isFalse hclean =>
    have hnot : ∀ e ∈ w.flushEdits files [] w.ipmiUsers,
        ¬ (LinuxFile.load ipmiUserFile files.ipmi).datas.Touches ipmiUserFile.equals e := by
      intro e he ht
      exact hclean ((Book.run_isDirty _).mpr (Or.inr ⟨e, he, ht⟩))
    have hsame : (w.ipmiFile₁ files).datas = (LinuxFile.load ipmiUserFile files.ipmi).datas :=
      Book.run_of_not_touches hnot
    have husers : w.ipmiUsers = [] := by
      rw [List.eq_nil_iff_forall_not_mem]
      intro d hd
      obtain ⟨a, -, rfl⟩ := List.mem_map.mp hd
      refine hnot (.put a.ipmiUser true) ?_ ((Book.moves_iff_touches _).mp (moves_ipmiUser _ a))
      rw [flushEdits_eq]
      exact List.mem_append_right _ (List.mem_append_left _ (List.mem_map_of_mem hd))
    have hentries := @entries_ipmiFile₁ w files hnodup
    rw [hsame, husers] at hentries
    have hnil : files.ipmi = [] := eq_nil_of_entries (F := ipmiUserFile) hwf hentries
    rw [husers]
    exact hnil

/-! ## The file of users -/

theorem keys_passwdUsers (hls : w.flushed.mapM withGroup = some ls) :
  (w.passwdUsers ls).map passwdFile.dataKey = w.userMap
  := by
  rw [userMap, ← map_fst_of_mapM hls, passwdUsers, List.map_map, List.map_map]
  rfl

theorem isNumbered_appEdits {d : PasswdUser} {overwrite : Bool}
    (h : .put d overwrite ∈ appEdits) :
  d.IsNumbered
  := by
  obtain ⟨u, -, heq⟩ := List.mem_map.mp h
  obtain ⟨rfl, -⟩ := Edit.put.inj heq
  exact u.isNumbered_passwdUser

/-- The users of the system are added, the accounts are put and stale users are deleted. -/
theorem datas_passwdFile₁ :
  (w.passwdFile₁ files ls).datas
    = ((LinuxFile.load passwdFile files.passwd).run appEdits).datas.run passwdFile.equals
        (((w.passwdUsers ls).map fun d => .put d true) ++ (w.stale files).map .delete)
  := by
  rw [passwdFile₁, flushEdits_eq, LinuxFile.run_append]
  rfl

theorem isNumbered_passwdFile₁ (h : Numbered files.passwd) :
  ∀ d ∈ (w.passwdFile₁ files ls).datas.entries, d.IsNumbered
  := by
  apply h.run
  intro d overwrite hput
  rw [flushEdits_eq, List.mem_append, List.mem_append] at hput
  rcases hput with hput | hput | hput
  · exact isNumbered_appEdits hput
  · obtain ⟨d', hd', heq⟩ := List.mem_map.mp hput
    obtain ⟨rfl, -⟩ := Edit.put.inj heq
    obtain ⟨p, -, rfl⟩ := List.mem_map.mp hd'
    exact p.1.isNumbered_passwdUser w.shell p.2
  · obtain ⟨k, -, heq⟩ := List.mem_map.mp hput
    exact absurd heq (by simp)

/-- The entries that are read after a flush. -/
theorem entries_passwd_flush (hls : w.flushed.mapM withGroup = some ls)
    (h : Numbered files.passwd) :
  (LinuxFile.load passwdFile (w.flush files).passwd).datas.entries
    = (w.passwdFile₁ files ls).datas.entries
  := by
  rw [(w.flush_files hls).1]
  apply entries_load_saved
  intro d hd
  exact (isNumbered_passwdFile₁ h d hd).read

theorem get_passwd_flush (hls : w.flushed.mapM withGroup = some ls) (h : Numbered files.passwd)
    (k : String) :
  (LinuxFile.load passwdFile (w.flush files).passwd).datas.get k
    = (w.passwdFile₁ files ls).datas.get k
  := by
  rw [Book.get, entries_passwd_flush hls h]
  rfl

theorem numbered_flush (hls : w.flushed.mapM withGroup = some ls) (h : Numbered files.passwd) :
  Numbered (w.flush files).passwd
  := by
  intro d hd
  rw [entries_passwd_flush hls h] at hd
  exact isNumbered_passwdFile₁ h d hd

/-- An account has its entry. -/
theorem get_passwdFile₁ (hls : w.flushed.mapM withGroup = some ls) (hnodup : w.userMap.Nodup)
    (h : Numbered files.passwd) {p : AccountLine × RoleGroup} (hp : p ∈ ls) :
  (w.passwdFile₁ files ls).datas.get p.1.userName = some (p.1.passwdUser w.shell p.2)
  := by
  have hput := Book.get_run_puts_deletes passwdFile.equals
    ((LinuxFile.load passwdFile files.passwd).run appEdits).datas
    (w.passwdUsers ls) (w.stale files) (keys_passwdUsers hls ▸ hnodup)
    (fun d hd => not_mem_stale (keys_passwdUsers hls ▸ List.mem_map_of_mem hd))
    (List.mem_map_of_mem hp)
  rw [← datas_passwdFile₁] at hput
  refine Eq.trans hput ?_
  split
  case isTrue => rfl
  case isFalse hmoves =>
    cases hget : ((LinuxFile.load passwdFile files.passwd).run appEdits).datas.get
        (passwdFile.dataKey (p.1.passwdUser w.shell p.2)) with
    | none => simp [Book.Moves, hget] at hmoves
    | some own =>
      have hequals : passwdFile.equals own (p.1.passwdUser w.shell p.2) = true := by
        simpa [Book.Moves, hget] using hmoves
      have hnumbered : own.IsNumbered := by
        apply h.run (fun d overwrite => isNumbered_appEdits)
        exact (Book.get_eq_some.mp hget).1
      rw [hnumbered.eq_of_equals hequals]

theorem get_passwdFile₁_of_stale {k : String} (hk : k ∈ w.stale files) :
  (w.passwdFile₁ files ls).datas.get k = none
  := by
  rw [passwdFile₁, flushEdits, LinuxFile.run_append, LinuxFile.run, Book.get_run_deletes,
    if_pos hk]

/-- Users with the user identifier of an account are accounts. -/
theorem mem_userMap_of_isAccountUid (hls : w.flushed.mapM withGroup = some ls) {k : String}
    {user : PasswdUser} (hget : (w.passwdFile₁ files ls).datas.get k = some user)
    (huid : isAccountUid user.userId = true) :
  k ∈ w.userMap
  := by
  by_contra hk
  have hstale : k ∉ w.stale files := by
    intro hstale
    rw [get_passwdFile₁_of_stale hstale] at hget
    simp at hget
  rw [passwdFile₁, flushEdits, LinuxFile.run_append, LinuxFile.run, Book.get_run_deletes,
    if_neg hstale, passwdUsers, List.map_map] at hget
  have hrun := (w.get_run_passwd (map_fst_of_mapM hls) (LinuxFile.load passwdFile files.passwd)
    hk).mp ⟨user, hget, huid⟩
  exact hstale (w.mem_stale.mpr ⟨hk, Or.inl hrun⟩)

/-- There are no stale users after a flush. -/
theorem stale_flush (hls : w.flushed.mapM withGroup = some ls) (hnodup : w.userMap.Nodup)
    (hwf : files.WellFormed) :
  w.stale (w.flush files) = []
  := by
  rw [List.eq_nil_iff_forall_not_mem]
  intro k hk
  obtain ⟨hnot, ⟨user, hget, huid⟩ | hmem⟩ := w.mem_stale.mp hk
  · have hget' := get_passwd_flush hls (numbered_of_wellFormed hwf.passwd) k
    rw [show (LinuxFile.load passwdFile (w.flush files).passwd).datas.get k = some user from hget]
      at hget'
    exact hnot (mem_userMap_of_isAccountUid hls hget'.symm huid)
  · obtain ⟨user, huser, rfl⟩ := List.mem_map.mp hmem
    obtain ⟨l, hl, hdata⟩ := List.mem_filterMap.mp (mem_of_mem_firsts huser).1
    rw [ipmi_flush hls hnodup hwf.ipmi] at hl
    obtain ⟨d, hd, rfl⟩ := List.mem_map.mp hl
    have hline : ipmiLineToData d.fields = some user := hdata
    have hname : user.userName = d.userName := by
      rw [name_of_ipmiLineToData hline]
      exact String.ofList_toList
    rw [hname] at hnot
    exact hnot (keys_ipmiUsers ▸ List.mem_map_of_mem hd)

/-! ## The file of passwords -/

/-- The entries of the accounts in the file of passwords. -/
def shadowUsers (w : World) : List ShadowUser :=
  w.flushed.map AccountLine.shadowUser

theorem keys_shadowUsers :
  w.shadowUsers.map shadowFile.dataKey = w.userMap
  :=
  List.map_map

/-- The entries of accounts that are put: the others agree already. -/
def movedShadow (w : World) (lines : List Line) : List ShadowUser :=
  w.shadowUsers.filter ((LinuxFile.load shadowFile lines).datas.Moves shadowFile.equals)

/-- The entries that stay where they are. -/
def keptShadow (w : World) (files : Files) : List ShadowUser :=
  ((LinuxFile.load shadowFile files.shadow).datas.entries.filter
      (shadowFile.dataKey · ∉ (w.movedShadow files.shadow).map shadowFile.dataKey)).filter
    (shadowFile.dataKey · ∉ w.stale files)

theorem entries_shadowFile₁ (hnodup : w.userMap.Nodup) :
  (w.shadowFile₁ files).datas.entries = w.keptShadow files ++ w.movedShadow files.shadow
  :=
  Book.entries_run_puts_deletes _ _ _ _ (keys_shadowUsers ▸ hnodup) fun _ hd =>
    not_mem_stale (keys_shadowUsers ▸ List.mem_map_of_mem hd)

theorem isRead_of_mem_keptShadow {d : ShadowUser} (hd : d ∈ w.keptShadow files) :
  d.IsRead
  :=
  isRead_load (List.mem_of_mem_filter (List.mem_of_mem_filter hd))

theorem not_mem_of_mem_keptShadow {d : ShadowUser} (hd : d ∈ w.keptShadow files) :
  shadowFile.dataKey d ∉ (w.movedShadow files.shadow).map shadowFile.dataKey
  := by
  have hfilter := (List.mem_filter.mp (List.mem_of_mem_filter hd)).2
  exact of_decide_eq_true hfilter

/-- The entry of an account has its password. -/
theorem get_shadowFile₁ (hnodup : w.userMap.Nodup) {a : AccountLine} (ha : a ∈ w.flushed) :
  ∃ d, (w.shadowFile₁ files).datas.get a.userName = some d ∧ d.password = a.password
  := by
  have hput := Book.get_run_puts_deletes shadowFile.equals
    (LinuxFile.load shadowFile files.shadow).datas w.shadowUsers (w.stale files) (keys_shadowUsers ▸ hnodup)
    (fun d hd => not_mem_stale (keys_shadowUsers ▸ List.mem_map_of_mem hd))
    (List.mem_map_of_mem ha)
  split at hput
  case isTrue => exact ⟨_, hput, rfl⟩
  case isFalse hmoves =>
    cases hget : (LinuxFile.load shadowFile files.shadow).datas.get
        (shadowFile.dataKey a.shadowUser) with
    | none => simp [Book.Moves, hget] at hmoves
    | some own =>
      rw [hget] at hput
      refine ⟨own, hput, ?_⟩
      have hequals : shadowFile.equals own a.shadowUser = true := by
        simpa [Book.Moves, hget] using hmoves
      exact password_of_equals hequals

section Reread

variable (hls : w.flushed.mapM withGroup = some ls) (hnodup : w.userMap.Nodup)
  (hdirty : (w.shadowFile₁ files).datas.isDirty = true)

include hls hdirty in
theorem shadow_flush_of_dirty :
  (w.flush files).shadow = (w.shadowFile₁ files).datas.entries.map shadowFile.dataToLine
  := by
  rw [(w.flush_files hls).2.1, LinuxFile.lines_save, if_pos hdirty]

include hls hdirty in
theorem entries_shadow_flush :
  (LinuxFile.load shadowFile (w.flush files).shadow).datas.entries
    = (w.shadowFile₁ files).datas.entries.map ShadowUser.reread
  := by
  rw [shadow_flush_of_dirty hls hdirty]
  exact entries_load_map (w.shadowFile₁ files).datas.nodup (fun d _ => d.read) fun _ => rfl

include hls hnodup hdirty in
/-- The entries that have been put are put again, and no others. -/
theorem movedShadow_flush :
  w.movedShadow (w.flush files).shadow = w.movedShadow files.shadow
  := by
  apply List.filter_congr
  intro d hd
  obtain ⟨a, ha, rfl⟩ := List.mem_map.mp hd
  have hread : ∀ own, (w.shadowFile₁ files).datas.get a.userName = some own →
      (LinuxFile.load shadowFile (w.flush files).shadow).datas.get
        (shadowFile.dataKey a.shadowUser) = some own.reread := by
    intro own hown
    obtain ⟨hmem, hkey⟩ := Book.get_eq_some.mp hown
    rw [Book.get_eq_some, entries_shadow_flush hls hdirty]
    exact ⟨List.mem_map_of_mem hmem, hkey⟩
  have hput := Book.get_run_puts_deletes shadowFile.equals
    (LinuxFile.load shadowFile files.shadow).datas w.shadowUsers (w.stale files) (keys_shadowUsers ▸ hnodup)
    (fun d hd => not_mem_stale (keys_shadowUsers ▸ List.mem_map_of_mem hd)) hd
  cases hmoves : (LinuxFile.load shadowFile files.shadow).datas.Moves shadowFile.equals
      a.shadowUser with
  | true =>
    rw [hmoves, if_pos rfl] at hput
    rw [Book.Moves, hread _ hput]
    simp only [a.equals_reread, Bool.not_false]
  | false =>
    rw [hmoves, if_neg Bool.false_ne_true] at hput
    cases hget : (LinuxFile.load shadowFile files.shadow).datas.get
        (shadowFile.dataKey a.shadowUser) with
    | none => simp [Book.Moves, hget] at hmoves
    | some own =>
      rw [hget] at hput
      have hequals : shadowFile.equals own a.shadowUser = true := by
        simpa [Book.Moves, hget] using hmoves
      rw [Book.Moves, hread _ hput]
      simp only [(isRead_load (Book.get_eq_some.mp hget).1).equals_reread hequals, Bool.not_true]

include hls hnodup hdirty in
theorem keptShadow_flush (hstale : w.stale (w.flush files) = []) :
  w.keptShadow (w.flush files) = (w.keptShadow files).map ShadowUser.reread
  := by
  have hkey : ∀ d : ShadowUser, shadowFile.dataKey d.reread = shadowFile.dataKey d := fun _ => rfl
  have hkeep : ((w.keptShadow files).map ShadowUser.reread).filter
      (shadowFile.dataKey · ∉ (w.movedShadow files.shadow).map shadowFile.dataKey)
      = (w.keptShadow files).map ShadowUser.reread := by
    rw [List.filter_eq_self]
    intro _ hmem
    obtain ⟨d, hd, rfl⟩ := List.mem_map.mp hmem
    rw [decide_eq_true_eq, hkey]
    exact not_mem_of_mem_keptShadow hd
  have hdrop : ((w.movedShadow files.shadow).map ShadowUser.reread).filter
      (shadowFile.dataKey · ∉ (w.movedShadow files.shadow).map shadowFile.dataKey) = [] := by
    rw [List.filter_eq_nil_iff]
    intro _ hmem
    obtain ⟨d, hd, rfl⟩ := List.mem_map.mp hmem
    rw [decide_eq_true_eq, not_not, hkey]
    exact List.mem_map_of_mem hd
  rw [keptShadow, movedShadow_flush hls hnodup hdirty, entries_shadow_flush hls hdirty,
    entries_shadowFile₁ hnodup, List.map_append, List.filter_append, hkeep, hdrop, List.append_nil,
    hstale, List.filter_eq_self]
  intro d _
  exact decide_eq_true List.not_mem_nil

end Reread

/-- Flushing twice is flushing once for the file of passwords. -/
theorem shadow_flush_flush (hls : w.flushed.mapM withGroup = some ls) (hnodup : w.userMap.Nodup)
    (hstale : w.stale (w.flush files) = []) :
  (w.flush (w.flush files)).shadow = (w.flush files).shadow
  := by
  by_cases hdirty : (w.shadowFile₁ files).datas.isDirty = true
  case pos =>
    rw [(w.flush_files hls).2.1, LinuxFile.lines_save]
    split
    case isFalse => rfl
    case isTrue =>
      have hlines : ((w.keptShadow files).map ShadowUser.reread).map shadowFile.dataToLine
          = (w.keptShadow files).map shadowFile.dataToLine := by
        rw [List.map_map]
        apply List.map_congr_left
        intro d hd
        exact (isRead_of_mem_keptShadow hd).dataToLine_reread
      rw [shadow_flush_of_dirty hls hdirty, entries_shadowFile₁ hnodup, entries_shadowFile₁ hnodup,
        keptShadow_flush hls hnodup hdirty hstale, movedShadow_flush hls hnodup hdirty,
        List.map_append, List.map_append, hlines]
  case neg =>
    have hnot : ¬ Rewritten shadowFile files.shadow (w.flushEdits files [] w.shadowUsers) :=
      fun h => hdirty ((Book.run_isDirty _).mpr (Or.inr h))
    have hsame : (w.flush files).shadow = files.shadow := by
      rw [(w.flush_files hls).2.1]
      exact lines_saved_of_not_rewritten hnot
    rw [(w.flush_files hls).2.1]
    apply lines_saved_of_not_rewritten
    rintro ⟨e, he, ht⟩
    rw [hsame] at ht
    refine hnot ⟨e, ?_, ht⟩
    rw [flushEdits_eq, hstale, List.map_nil, List.append_nil] at he
    rw [flushEdits_eq]
    exact List.mem_append_right _ (List.mem_append_left _ he)

end World

end Linux

end BmcAccount
