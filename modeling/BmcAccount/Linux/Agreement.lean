import BmcAccount.Linux.UserFiles
import BmcAccount.Linux.Members

/-!
# Files that agree with the accounts

After `flush_account` the four files should have exactly the accounts that are kept in them. They
do, whatever they had before, unless a line has been overlooked: a second line of a name is not
read, so it stays if nothing else makes the file be written, and a user who is listed more often
in the group of another role than there are roles with this group stays in it.

`agrees_flush_iff` says exactly when the files agree with the accounts after a flush.
-/

namespace BmcAccount

namespace Linux

open Keyed Roster

namespace World

/-- The files agree with the accounts that are kept in them: the file of IPMI users has exactly
their lines; each of them has one line in `passwd` and one in `shadow`, with its data; nobody else
has the user identifier of an account; and the group of its role is the only group of a role that
an account is listed in. -/
structure Agrees (w : World) (files : Files) : Prop where
  ipmi : files.ipmi.Perm (w.flushed.map fun a => a.ipmiUser.fields)
  passwd : ∀ a ∈ w.flushed, ∃ g, roleGroup a.role = some g
    ∧ (files.passwd.filter (·.name = a.userName)).map passwdFile.lineToData
      = [some (a.passwdUser w.shell g)]
  uids : ∀ l ∈ files.passwd, isAccountUid (tonumber (l.getD 2 [])) = true → l.name ∈ w.userMap
  shadow : ∀ a ∈ w.flushed,
    (files.shadow.filter (·.name = a.userName)).map (·.getD 1 []) = [a.password.toList]
  group : ∀ a ∈ w.flushed, ∀ g ∈ roleGroupMap,
    Listed files a.userName g.name ↔ (roleGroup a.role).map RoleGroup.name = some g.name

/-- The edits of `passwd` and of `shadow`. -/
def passwdChanges (w : World) (files : Files) : List (Edit PasswdUser String) :=
  Op.flushAccount.passwdEdits w files

def shadowChanges (w : World) (files : Files) : List (Edit ShadowUser String) :=
  Op.flushAccount.shadowEdits w files

/-- No line is overlooked: every role has a group, the accounts have different names in the files,
a file of which nothing has to be changed has no second line of an account or with the user
identifier of an account, and no account is listed in the group of another role more often than
there are roles with this group. -/
structure Readable (w : World) (files : Files) : Prop where
  roles : ∀ a ∈ w.flushed, (roleGroup a.role).isSome = true
  names : w.userMap.Nodup
  passwd : ¬ Rewritten passwdFile files.passwd (w.passwdChanges files) → ∀ l ∈ files.passwd,
    l.name ∈ w.userMap ∨ isAccountUid (tonumber (l.getD 2 [])) = true →
      files.passwd.countP (·.name = l.name) = 1
  shadow : ¬ Rewritten shadowFile files.shadow (w.shadowChanges files) → ∀ l ∈ files.shadow,
    l.name ∈ w.userMap → files.shadow.countP (·.name = l.name) = 1
  group : ∀ a ∈ w.flushed, ∀ g ∈ roleGroupMap,
    (roleGroup a.role).map RoleGroup.name ≠ some g.name →
      (present files g.name).count a.userName ≤ roleTimes g.name

variable {w : World} {files : Files} {ls : List (AccountLine × RoleGroup)}

/-! ## Accounts with groups -/

theorem mapM_withGroup_iff {accounts : List AccountLine} :
  (∃ ls, accounts.mapM withGroup = some ls) ↔ ∀ a ∈ accounts, (roleGroup a.role).isSome = true
  := by
  induction accounts with
  | nil => simp
  | cons account accounts ih =>
    rw [List.forall_mem_cons, ← ih, List.mapM_cons]
    cases hg : roleGroup account.role with
    | none => simp [withGroup, hg]
    | some g => cases hm : accounts.mapM withGroup <;> simp [withGroup, hg]

theorem passwdChanges_eq (hls : w.flushed.mapM withGroup = some ls) :
  w.passwdChanges files = w.flushEdits files appEdits (w.passwdUsers ls)
  := by
  simp only [passwdChanges, Op.passwdEdits, Op.edits, hls, flushEdits, passwdUsers, List.map_map]
  rfl

theorem shadowChanges_eq (hls : w.flushed.mapM withGroup = some ls) :
  w.shadowChanges files = w.flushEdits files [] w.shadowUsers
  := by
  have hshadow : (ls.map fun p => Edit.put (κ := String) p.1.shadowUser true)
      = w.shadowUsers.map fun d => .put d true := by
    rw [shadowUsers, ← map_fst_of_mapM hls, List.map_map, List.map_map]
    rfl
  simp only [shadowChanges, Op.shadowEdits, Op.edits, hls, flushEdits, hshadow]

theorem exists_of_mem_userMap {k : String} (hk : k ∈ w.userMap) :
  ∃ a ∈ w.flushed, a.userName = k
  :=
  List.mem_map.mp hk

theorem exists_pair (hls : w.flushed.mapM withGroup = some ls) {a : AccountLine}
    (ha : a ∈ w.flushed) :
  ∃ g, (a, g) ∈ ls ∧ roleGroup a.role = some g
  := by
  rw [← map_fst_of_mapM hls] at ha
  obtain ⟨⟨a, g⟩, hp, rfl⟩ := List.mem_map.mp ha
  exact ⟨g, hp, roleGroup_of_mapM hls _ hp⟩

/-! ## The file of IPMI users -/

/-- Accounts whose lines are all in the file have different names there. -/
theorem nodup_of_ipmi (hls : w.flushed.mapM withGroup = some ls)
    (h : (w.flush files).ipmi.Perm (w.flushed.map fun a => a.ipmiUser.fields)) :
  w.userMap.Nodup
  := by
  cases hne : w.flushed with
  | nil =>
    rw [userMap, hne]
    exact List.nodup_nil
  | cons a accounts =>
    have hdirty : (w.ipmiFile₁ files).datas.isDirty = true := by
      refine (Book.run_isDirty _).mpr (Or.inr ⟨.put a.ipmiUser true, ?_, ?_⟩)
      · rw [flushEdits_eq]
        apply List.mem_append_right
        apply List.mem_append_left
        rw [hne]
        exact List.mem_map_of_mem List.mem_cons_self
      · exact (Book.moves_iff_touches _).mp (moves_ipmiUser _ a)
    rw [(w.flush_files hls).2.2.1, LinuxFile.lines_save, if_pos hdirty] at h
    have hnames := h.map fun l => String.ofList (l.getD 1 [])
    have hname : ∀ u : IpmiUser, String.ofList (u.fields.getD 1 []) = u.userName :=
      fun u => String.ofList_toList
    have hleft : ((w.ipmiFile₁ files).datas.entries.map ipmiUserFile.dataToLine).map
        (fun l => String.ofList (l.getD 1 []))
        = (w.ipmiFile₁ files).datas.entries.map ipmiUserFile.dataKey := by
      rw [List.map_map]
      exact List.map_congr_left fun u _ => hname u
    have hright : (w.flushed.map fun a => a.ipmiUser.fields).map
        (fun l => String.ofList (l.getD 1 [])) = w.userMap := by
      rw [List.map_map]
      exact List.map_congr_left fun a _ => hname a.ipmiUser
    rw [hleft, hright] at hnames
    exact hnames.nodup_iff.mp (w.ipmiFile₁ files).datas.nodup

/-! ## The files of users and of passwords -/

theorem tonumber_userId {l : Line} {user : PasswdUser} (h : passwdFile.lineToData l = some user) :
  user.userId = tonumber (l.getD 2 [])
  := by
  simp only [passwdFile] at h
  split at h
  case h_2 => simp at h
  case h_1 =>
    obtain rfl := Option.some.inj h
    rfl

theorem toList_password {l : Line} {d : ShadowUser} (h : shadowFile.lineToData l = some d) :
  l.getD 1 [] = d.password.toList
  := by
  simp only [shadowFile] at h
  split at h
  case h_2 => simp at h
  case h_1 =>
    obtain rfl := Option.some.inj h
    exact String.toList_ofList.symm

section Written

variable (hls : w.flushed.mapM withGroup = some ls) (hnodup : w.userMap.Nodup)
  (hwf : files.WellFormed)

include hls in
theorem passwd_of_rewritten
    (h : Rewritten passwdFile files.passwd (w.flushEdits files appEdits (w.passwdUsers ls))) :
  (w.flush files).passwd = (w.passwdFile₁ files ls).datas.entries.map passwdFile.dataToLine
  := by
  rw [(w.flush_files hls).1]
  exact lines_saved_of_rewritten h

include hls in
theorem passwd_of_not_rewritten
    (h : ¬ Rewritten passwdFile files.passwd (w.flushEdits files appEdits (w.passwdUsers ls))) :
  (w.flush files).passwd = files.passwd
  := by
  rw [(w.flush_files hls).1]
  exact lines_saved_of_not_rewritten h

include hls in
theorem shadow_of_rewritten
    (h : Rewritten shadowFile files.shadow (w.flushEdits files [] w.shadowUsers)) :
  (w.flush files).shadow = (w.shadowFile₁ files).datas.entries.map shadowFile.dataToLine
  := by
  rw [(w.flush_files hls).2.1]
  exact lines_saved_of_rewritten h

include hls in
theorem shadow_of_not_rewritten
    (h : ¬ Rewritten shadowFile files.shadow (w.flushEdits files [] w.shadowUsers)) :
  (w.flush files).shadow = files.shadow
  := by
  rw [(w.flush_files hls).2.1]
  exact lines_saved_of_not_rewritten h

include hls hnodup hwf in
/-- An account has one line in `passwd` if the file is written, or if there was one. -/
theorem passwd_line_iff {a : AccountLine} {g : RoleGroup} (hp : (a, g) ∈ ls) :
  ((w.flush files).passwd.filter (·.name = a.userName)).map passwdFile.lineToData
      = [some (a.passwdUser w.shell g)]
    ↔ (¬ Rewritten passwdFile files.passwd (w.flushEdits files appEdits (w.passwdUsers ls)) →
      files.passwd.countP (·.name = a.userName) = 1)
  := by
  have hnumbered := numbered_of_wellFormed hwf.passwd
  have hget := get_passwdFile₁ hls hnodup hnumbered hp
  by_cases h : Rewritten passwdFile files.passwd (w.flushEdits files appEdits (w.passwdUsers ls))
  · rw [passwd_of_rewritten hls h, filter_name_map passwdFile_named hget]
    apply iff_of_true _ fun hnot => absurd h hnot
    rw [List.map_singleton, (a.isNumbered_passwdUser w.shell g).read]
  · have hload : (LinuxFile.load passwdFile files.passwd).get a.userName
        = some (a.passwdUser w.shell g) := by
      have hread := get_passwd_flush hls hnumbered a.userName
      rw [passwd_of_not_rewritten hls h] at hread
      exact hread.trans hget
    rw [passwd_of_not_rewritten hls h,
      filter_name_iff passwdFile_named hwf.isSome_passwd hload, imp_iff_right h]

include hls hwf in
/-- Nobody else has the user identifier of an account if `passwd` is written, or if no second line
has one. -/
theorem uids_iff :
  (∀ l ∈ (w.flush files).passwd, isAccountUid (tonumber (l.getD 2 [])) = true → l.name ∈ w.userMap)
    ↔ (¬ Rewritten passwdFile files.passwd (w.flushEdits files appEdits (w.passwdUsers ls)) →
      ∀ l ∈ files.passwd, isAccountUid (tonumber (l.getD 2 [])) = true → l.name ∈ w.userMap)
  := by
  by_cases h : Rewritten passwdFile files.passwd (w.flushEdits files appEdits (w.passwdUsers ls))
  · apply iff_of_true _ fun hnot => absurd h hnot
    rw [passwd_of_rewritten hls h]
    intro _ hmem huid
    obtain ⟨d, hd, rfl⟩ := List.mem_map.mp hmem
    have hread := (isNumbered_passwdFile₁ (numbered_of_wellFormed hwf.passwd) d hd).read
    rw [← tonumber_userId hread] at huid
    rw [passwdFile_named.name_line]
    exact mem_userMap_of_isAccountUid hls (Book.get_eq_some.mpr ⟨hd, rfl⟩) huid
  · rw [passwd_of_not_rewritten hls h, imp_iff_right h]

include hls hwf in
/-- A line that is the only one of its name is read. -/
theorem mem_userMap_of_countP
    (h : ¬ Rewritten passwdFile files.passwd (w.flushEdits files appEdits (w.passwdUsers ls)))
    {l : Line} (hl : l ∈ files.passwd) (huid : isAccountUid (tonumber (l.getD 2 [])) = true)
    (hone : files.passwd.countP (·.name = l.name) = 1) :
  l.name ∈ w.userMap
  := by
  obtain ⟨user, huser⟩ := Option.isSome_iff_exists.mp (hwf.isSome_passwd l hl)
  have hget := @get_passwd_flush w files ls hls (numbered_of_wellFormed hwf.passwd) l.name
  rw [passwd_of_not_rewritten hls h] at hget
  have hload := get_load_of_countP passwdFile_named hwf.isSome_passwd hl hone
  rw [← tonumber_userId huser] at huid
  exact mem_userMap_of_isAccountUid hls (hget.symm.trans (hload.trans huser)) huid

include hls hnodup hwf in
/-- An account has one line in `shadow` if the file is written, or if there was one. -/
theorem shadow_line_iff {a : AccountLine} (ha : a ∈ w.flushed) :
  ((w.flush files).shadow.filter (·.name = a.userName)).map (·.getD 1 []) = [a.password.toList]
    ↔ (¬ Rewritten shadowFile files.shadow (w.flushEdits files [] w.shadowUsers) →
      files.shadow.countP (·.name = a.userName) = 1)
  := by
  obtain ⟨d, hget, hpassword⟩ := @get_shadowFile₁ w files hnodup a ha
  by_cases h : Rewritten shadowFile files.shadow (w.flushEdits files [] w.shadowUsers)
  · rw [shadow_of_rewritten hls h, filter_name_map shadowFile_named hget]
    apply iff_of_true _ fun hnot => absurd h hnot
    rw [List.map_singleton, ← hpassword]
    rfl
  · have hsame : (w.shadowFile₁ files).datas = (LinuxFile.load shadowFile files.shadow).datas :=
      Book.run_of_not_touches fun e he ht => h ⟨e, he, ht⟩
    rw [hsame] at hget
    rw [shadow_of_not_rewritten hls h, imp_iff_right h]
    constructor
    · intro hmap
      have hlength := congrArg List.length hmap
      rw [List.length_map] at hlength
      rw [List.countP_eq_length_filter]
      exact hlength
    · intro hone
      have hmap := (filter_name_iff shadowFile_named hwf.isSome_shadow hget).mpr hone
      obtain ⟨l, hl, hdata⟩ := List.map_eq_singleton_iff.mp hmap
      rw [hl, List.map_singleton, toList_password hdata, hpassword]

end Written

/-! ## Groups -/

/-- An account is listed in the group of its role, and in another one if it has been listed there
too often. -/
theorem listed_flush_iff (hls : w.flushed.mapM withGroup = some ls) (hnodup : w.userMap.Nodup)
    {a : AccountLine} (ha : a ∈ w.flushed) {g : RoleGroup} (hg : g ∈ roleGroupMap) :
  Listed (w.flush files) a.userName g.name
    ↔ (roleGroup a.role).map RoleGroup.name = some g.name
      ∨ roleTimes g.name < (present files g.name).count a.userName
  := by
  obtain ⟨-, -, -, gone, hgone, hgroup⟩ := @flush_files w files ls hls
  have hne : ls ≠ [] := by
    rintro rfl
    obtain ⟨_, hp, -⟩ := exists_pair hls ha
    exact absurd hp List.not_mem_nil
  have hmembers := names_members w g.name
  have hnames : ((w.members g.name).map Prod.fst).Nodup := hmembers ▸ hnodup
  have hstale : ∀ k ∈ gone, k ∉ w.userMap := by
    intro k hk
    have hmem := List.mem_dedup.mp (hgone.mem_iff.mp hk)
    exact (w.mem_stale.mp hmem).1
  have hnot : ∀ p ∈ w.members g.name, p.1 ∉ gone := by
    intro p hp hmem
    exact hstale p.1 hmem (hmembers ▸ List.mem_map_of_mem hp)
  have hmem : (a.userName, decide ((roleGroup a.role).map RoleGroup.name = some g.name))
      ∈ w.members g.name := List.mem_map_of_mem ha
  have hown := mem_own hnames hmem
  rw [decide_eq_true_eq] at hown
  have hrest : a.userName ∈ rest (roleTimes g.name) (w.members g.name) gone (present files g.name)
      ↔ roleTimes g.name < (present files g.name).count a.userName := by
    have hin : a.userName ∈ (w.members g.name).map Prod.fst ++ gone :=
      List.mem_append_left _ (List.mem_map_of_mem hmem)
    have hnodup' : ((w.members g.name).map Prod.fst ++ gone).Nodup := by
      rw [List.nodup_append]
      refine ⟨hnames, hgone.nodup_iff.mpr (List.nodup_dedup _), ?_⟩
      rintro u hu v hv rfl
      exact hstale u hv (hmembers ▸ hu)
    rw [← List.count_pos_iff, rest, count_eraseAll hnodup', if_pos hin]
    omega
  rw [listed_iff (isDirty_groupFile₁ hls hne gone) hgroup, users_groupFile₁ hls gone hg,
    settle_eq hnames hnot, List.mem_append, List.mem_filter, decide_eq_true_eq, hown, hrest]
  tauto

/-! ## Agreement -/

/-- The files agree with the accounts after a flush if no line is overlooked. -/
theorem agrees_flush (hwf : files.WellFormed) (h : w.Readable files) :
  w.Agrees (w.flush files)
  := by
  obtain ⟨ls, hls⟩ := mapM_withGroup_iff.mpr h.roles
  have hpasswd := h.passwd
  have hshadow := h.shadow
  rw [passwdChanges_eq hls] at hpasswd
  rw [shadowChanges_eq hls] at hshadow
  exact {
    ipmi := by
      rw [ipmi_flush hls h.names hwf.ipmi, ipmiUsers, List.map_map]
      exact List.Perm.refl _
    passwd := fun a ha => by
      obtain ⟨g, hp, hg⟩ := exists_pair hls ha
      refine ⟨g, hg, (passwd_line_iff hls h.names hwf hp).mpr ?_⟩
      intro hnot
      have hget := get_passwdFile₁ hls h.names (numbered_of_wellFormed hwf.passwd) hp
      have hload := get_passwd_flush hls (numbered_of_wellFormed hwf.passwd) a.userName
      rw [passwd_of_not_rewritten hls hnot, hget] at hload
      obtain ⟨l, hl, hname⟩ := countP_pos_of_get passwdFile_named hwf.isSome_passwd
        (Option.isSome_of_eq_some hload)
      have hone := hpasswd hnot l hl (Or.inl (hname ▸ List.mem_map_of_mem ha))
      rw [← hone, hname]
    uids := by
      rw [uids_iff hls hwf]
      intro hnot l hl huid
      exact mem_userMap_of_countP hls hwf hnot hl huid (hpasswd hnot l hl (Or.inr huid))
    shadow := fun a ha => by
      rw [shadow_line_iff hls h.names hwf ha]
      intro hnot
      obtain ⟨d, hget, -⟩ := @get_shadowFile₁ w files h.names a ha
      have hsame : (w.shadowFile₁ files).datas = (LinuxFile.load shadowFile files.shadow).datas :=
        Book.run_of_not_touches fun e he ht => hnot ⟨e, he, ht⟩
      rw [hsame] at hget
      obtain ⟨l, hl, hname⟩ := countP_pos_of_get shadowFile_named hwf.isSome_shadow
        (Option.isSome_of_eq_some hget)
      have hone := hshadow hnot l hl (hname ▸ List.mem_map_of_mem ha)
      rw [← hone, hname]
    group := fun a ha g hg => by
      rw [listed_flush_iff hls h.names ha hg, or_iff_left_iff_imp]
      intro hlt
      by_contra hne
      exact absurd (h.group a ha g hg hne) (Nat.not_le.mpr hlt) }

/-- The files agree with the accounts after a flush if and only if no line is overlooked. -/
theorem agrees_flush_iff (w : World) (files : Files) (hwf : files.WellFormed) :
  w.Agrees (w.flush files) ↔ w.Readable files
  := by
  constructor
  · intro h
    have hroles : ∀ a ∈ w.flushed, (roleGroup a.role).isSome = true := by
      intro a ha
      obtain ⟨g, hg, -⟩ := h.passwd a ha
      rw [hg, Option.isSome_some]
    obtain ⟨ls, hls⟩ := mapM_withGroup_iff.mpr hroles
    have hnodup := nodup_of_ipmi hls h.ipmi
    have hline : ∀ k ∈ w.userMap,
        ¬ Rewritten passwdFile files.passwd (w.flushEdits files appEdits (w.passwdUsers ls)) →
          files.passwd.countP (·.name = k) = 1 := by
      intro k hk
      obtain ⟨a, ha, rfl⟩ := exists_of_mem_userMap hk
      obtain ⟨g, hp, hg⟩ := exists_pair hls ha
      obtain ⟨g', hg', hpasswd⟩ := h.passwd a ha
      obtain rfl : g' = g := Option.some.inj (hg'.symm.trans hg)
      exact (passwd_line_iff hls hnodup hwf hp).mp hpasswd
    exact {
      roles := hroles
      names := hnodup
      passwd := fun hnot l hl hor => by
        rw [passwdChanges_eq hls] at hnot
        have hname : l.name ∈ w.userMap := by
          rcases hor with hname | huid
          · exact hname
          · exact (uids_iff hls hwf).mp h.uids hnot l hl huid
        exact hline l.name hname hnot
      shadow := fun hnot l _ hname => by
        rw [shadowChanges_eq hls] at hnot
        obtain ⟨a, ha, heq⟩ := exists_of_mem_userMap hname
        rw [← heq]
        exact (shadow_line_iff hls hnodup hwf ha).mp (h.shadow a ha) hnot
      group := fun a ha g hg hne => by
        have hgroup := (h.group a ha g hg).not.mpr hne
        rw [listed_flush_iff hls hnodup ha hg, not_or] at hgroup
        exact Nat.le_of_not_lt hgroup.2 }
  · exact agrees_flush hwf

/-! ### An account without lines -/

/-- A file in which a name has no line is written if an entry of the name is put. -/
theorem rewritten_of_missing {α : Type} {F : Format Line α} (hF : F.Named) {lines : List Line}
    (hwf : ∀ l ∈ lines, (F.lineToData l).isSome = true) {es : List (Edit α String)} {d : α}
    (hd : .put d true ∈ es) (hnone : lines.countP (·.name = F.dataKey d) = 0) :
  Rewritten F lines es
  := by
  refine ⟨_, hd, ?_⟩
  have hfind : lines.find? (·.name = F.dataKey d) = none := by
    rw [List.find?_eq_none]
    exact List.countP_eq_zero.mp hnone
  have hget := get_load hF hwf (F.dataKey d)
  rw [hfind, Option.bind_none] at hget
  simp only [Book.Touches, hget]

/-- The accounts of a first start are read back. -/
theorem readable_rootFiles :
  (plainWorld "alice").Readable rootFiles
  := by
  have hroles : ∀ a ∈ (plainWorld "alice").flushed, (roleGroup a.role).isSome = true := by
    decide +kernel
  obtain ⟨ls, hls⟩ := mapM_withGroup_iff.mpr hroles
  have halice : ∃ a ∈ (plainWorld "alice").flushed, a.userName = "alice" := by decide +kernel
  obtain ⟨a, ha, hname⟩ := halice
  obtain ⟨g, hp, -⟩ := exists_pair hls ha
  have hpasswd : Rewritten passwdFile rootFiles.passwd
      ((plainWorld "alice").passwdChanges rootFiles) := by
    apply rewritten_of_missing passwdFile_named wellFormed_rootFiles.isSome_passwd
      (d := a.passwdUser (plainWorld "alice").shell g)
    · rw [passwdChanges_eq hls, flushEdits_eq]
      apply List.mem_append_right
      apply List.mem_append_left
      exact List.mem_map_of_mem (List.mem_map_of_mem hp)
    · rw [show passwdFile.dataKey _ = a.userName from rfl, hname]
      decide
  have hshadow : Rewritten shadowFile rootFiles.shadow
      ((plainWorld "alice").shadowChanges rootFiles) := by
    apply rewritten_of_missing shadowFile_named wellFormed_rootFiles.isSome_shadow
      (d := a.shadowUser)
    · rw [shadowChanges_eq hls, flushEdits_eq]
      apply List.mem_append_right
      apply List.mem_append_left
      exact List.mem_map_of_mem (List.mem_map_of_mem ha)
    · rw [show shadowFile.dataKey _ = a.userName from rfl, hname]
      decide
  exact {
    roles := hroles
    names := by decide +kernel
    passwd := fun hnot => absurd hpasswd hnot
    shadow := fun hnot => absurd hshadow hnot
    group := by decide +kernel }

theorem agrees_flush_rootFiles :
  (plainWorld "alice").Agrees ((plainWorld "alice").flush rootFiles)
  :=
  (agrees_flush_iff _ _ wellFormed_rootFiles).mpr readable_rootFiles

end World

end Linux

end BmcAccount
