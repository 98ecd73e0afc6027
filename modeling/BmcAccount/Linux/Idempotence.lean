import BmcAccount.Linux.Agreement

/-!
# Flushing twice

The flush is repeated once a minute, so it should change nothing when it has just been made. The
files of users and passwords come out the same, although that of passwords is written each time.
A stale user who has the name of a user of the system is added and removed in the first flush and
stays in the second; and of an account that has been listed too often in the group of its role
one occurrence moves to the end each time.

`flush_flush_iff` says exactly when the second flush changes nothing.
-/

namespace BmcAccount

namespace Linux

open Keyed Roster

namespace World

variable {w : World} {files : Files} {ls : List (AccountLine × RoleGroup)}

/-! ## The file of users -/

/-- No user of the system is stale. -/
def KeepsApps (w : World) (files : Files) : Prop :=
  ∀ u ∈ appUsers, u.name ∉ w.stale files

section Passwd

variable (hls : w.flushed.mapM withGroup = some ls) (hnodup : w.userMap.Nodup)
  (hwf : files.WellFormed)

/-- A user of the system has an entry unless it is stale. -/
theorem isSome_passwdFile₁ {u : AppUser} (hu : u ∈ appUsers) (hstale : u.name ∉ w.stale files) :
  ((w.passwdFile₁ files ls).datas.get u.name).isSome = true
  := by
  rw [passwdFile₁, flushEdits, LinuxFile.run_append, LinuxFile.run, Book.get_run_deletes,
    if_neg hstale, LinuxFile.run]
  apply Book.isSome_get_run
  · intro e he
    rcases List.mem_append.mp he with he | he
    · obtain ⟨_, -, rfl⟩ := List.mem_map.mp he
      simp
    · obtain ⟨_, -, rfl⟩ := List.mem_map.mp he
      simp
  · refine Or.inr ⟨u.passwdUser, false, ?_, ?_⟩
    · exact List.mem_append_left _ (List.mem_map_of_mem hu)
    · unfold AppUser.passwdUser
      split <;> rfl

include hls hnodup hwf in
/-- Nothing has to be changed in the file of users after a flush. -/
theorem not_rewritten_passwd_flush (happs : w.KeepsApps files) :
  ¬ Rewritten passwdFile (w.flush files).passwd
    (w.flushEdits (w.flush files) appEdits (w.passwdUsers ls))
  := by
  have hnumbered := numbered_of_wellFormed hwf.passwd
  rintro ⟨e, he, ht⟩
  rw [flushEdits_eq, stale_flush hls hnodup hwf, List.map_nil, List.append_nil] at he
  rcases List.mem_append.mp he with he | he
  · obtain ⟨u, hu, rfl⟩ := List.mem_map.mp he
    have hname : passwdFile.dataKey u.passwdUser = u.name := by
      unfold AppUser.passwdUser
      split <;> rfl
    have hsome := @isSome_passwdFile₁ w files ls u hu (happs u hu)
    obtain ⟨own, hown⟩ := Option.isSome_iff_exists.mp hsome
    rw [← get_passwd_flush hls hnumbered, ← hname] at hown
    simp only [Book.Touches, hown] at ht
    exact Bool.false_ne_true ht.1
  · obtain ⟨_, hd, rfl⟩ := List.mem_map.mp he
    obtain ⟨p, hp, rfl⟩ := List.mem_map.mp hd
    have hget := get_passwdFile₁ hls hnodup hnumbered hp
    rw [← get_passwd_flush hls hnumbered] at hget
    have hkey : passwdFile.dataKey (p.1.passwdUser w.shell p.2) = p.1.userName := rfl
    rw [← hkey] at hget
    simp only [Book.Touches, hget] at ht
    have hsame : passwdFile.equals (p.1.passwdUser w.shell p.2) (p.1.passwdUser w.shell p.2)
        = true := by
      simp [passwdFile, Value.covers]
    exact Bool.false_ne_true (ht.2.symm.trans hsame)

include hls hnodup hwf in
/-- A stale user of the system is missing after the first flush and there after the second. -/
theorem passwd_flush_ne {u : AppUser} (hu : u ∈ appUsers) (hstale : u.name ∈ w.stale files) :
  (w.flush (w.flush files)).passwd ≠ (w.flush files).passwd
  := by
  intro hsame
  have hnumbered := numbered_of_wellFormed hwf.passwd
  have hnone := @get_passwd_flush w files ls hls hnumbered u.name
  rw [get_passwdFile₁_of_stale hstale] at hnone
  have hnot : u.name ∉ w.stale (w.flush files) := by
    rw [stale_flush hls hnodup hwf]
    exact List.not_mem_nil
  have hsome := @isSome_passwdFile₁ w (w.flush files) ls u hu hnot
  rw [← get_passwd_flush hls (numbered_flush hls hnumbered), hsame, hnone] at hsome
  exact Bool.false_ne_true hsome

include hls hnodup hwf in
theorem passwd_flush_flush_iff :
  (w.flush (w.flush files)).passwd = (w.flush files).passwd ↔ w.KeepsApps files
  := by
  constructor
  · intro hsame u hu hstale
    exact passwd_flush_ne hls hnodup hwf hu hstale hsame
  · intro happs
    exact passwd_of_not_rewritten hls (not_rewritten_passwd_flush hls hnodup hwf happs)

end Passwd

/-! ## The file of groups -/

/-- Every group of a role is settled: once each account and each stale user has been taken out,
what is left are others, and then the first ones of those whose group it is. -/
def GroupsSettled (w : World) (files : Files) : Prop :=
  ∀ g ∈ roleGroupMap, Settled (roleTimes g.name) (w.members g.name) (w.stale files).dedup
    (present files g.name)

/-- A flush of files that have been flushed. -/
theorem group_flush_flush (hls : w.flushed.mapM withGroup = some ls)
    (hstale : w.stale (w.flush files) = []) :
  (w.flush (w.flush files)).group = (w.groupFile₁ (w.flush files) ls []).save.lines
  := by
  obtain ⟨-, -, -, gone, hgone, hgroup⟩ := @flush_files w (w.flush files) ls hls
  rw [hstale, List.dedup_nil] at hgone
  rw [hgone.eq_nil] at hgroup
  exact hgroup

theorem settle_perm {n : ℕ} {ps : List (String × Bool)} {gone gone' : List String}
    (h : gone.Perm gone') (users : List String) :
  settle n ps gone users = settle n ps gone' users
  :=
  eraseAll_perm n h _

section Groups

variable (hls : w.flushed.mapM withGroup = some ls) (hnodup : w.userMap.Nodup)
  {gone : List String} (hgroup : (w.flush files).group = (w.groupFile₁ files ls gone).save.lines)
  (hdirty : (w.groupFile₁ files ls gone).datas.isDirty = true)

include hls hgroup hdirty in
/-- The groups that are read after a flush are those that have been written. -/
theorem entries_group_flush :
  (LinuxFile.load groupFile (w.flush files).group).datas.entries
    = (w.groupFile₁ files ls gone).datas.entries
  := by
  rw [hgroup]
  exact entries_load_lines _ hdirty fun e he =>
    read_of_isPlain (plainGroups_groupFile₁ hls gone e he)

include hls hgroup hdirty in
theorem get_group_flush (k : String) :
  (LinuxFile.load groupFile (w.flush files).group).get k = (w.groupFile₁ files ls gone).get k
  := by
  rw [LinuxFile.get, LinuxFile.get, Book.get, entries_group_flush hls hgroup hdirty]
  rfl

include hls hgroup hdirty in
/-- What the second flush does to the members of the groups. -/
theorem effect_group_flush :
  Effect (LinuxFile.load groupFile (w.flush files).group) (w.groupFile₁ (w.flush files) ls [])
    fun k users => settle (roleTimes k) (w.members k) [] (joinAll (appsOf k) users)
  := by
  have hthere : ∀ k ∈ baseGroups,
      ((LinuxFile.load groupFile (w.flush files).group).get k).isSome = true := by
    intro k hk
    rw [get_group_flush hls hgroup hdirty, (effect_groupFile₁ hls gone).isSome_get]
    exact isSome_groupFile₀ hk
  exact (LinuxFile.effect_ensureGroups w.pairs _ hthere).trans (effect_groupFile₁ hls [])

include hls hgroup hdirty in
/-- The second flush changes no group if it changes the members of none. -/
theorem group_same_of_users (hstale : w.stale (w.flush files) = [])
    (h : ∀ k e, (w.groupFile₁ files ls gone).get k = some e →
      settle (roleTimes k) (w.members k) [] (joinAll (appsOf k) e.users) = e.users) :
  (w.flush (w.flush files)).group = (w.flush files).group
  := by
  have hentries := (effect_group_flush hls hgroup hdirty).entries_eq fun k e he =>
    h k e ((get_group_flush hls hgroup hdirty k).symm.trans he)
  rw [group_flush_flush hls hstale, LinuxFile.lines_save]
  split
  case isTrue =>
    rw [hentries, entries_group_flush hls hgroup hdirty, hgroup, LinuxFile.lines_save,
      if_pos hdirty]
  case isFalse => exact (effect_group_flush hls hgroup hdirty).lines

include hls hgroup hdirty in
/-- The members of the groups of roles are the same if the file is. -/
theorem users_of_group_same (hstale : w.stale (w.flush files) = []) (hne : ls ≠ [])
    (hsame : (w.flush (w.flush files)).group = (w.flush files).group) {g : RoleGroup}
    (hg : g ∈ roleGroupMap) :
  settle (roleTimes g.name) (w.members g.name) []
      (joinAll (appsOf g.name) ((w.groupFile₁ files ls gone).users g.name))
    = (w.groupFile₁ files ls gone).users g.name
  := by
  have hdirty' := @isDirty_groupFile₁ w (w.flush files) ls hls hne []
  have hread : (LinuxFile.load groupFile (w.flush (w.flush files)).group).datas.entries
      = (w.groupFile₁ (w.flush files) ls []).datas.entries := by
    rw [group_flush_flush hls hstale]
    exact entries_load_lines _ hdirty' fun e he =>
      read_of_isPlain (plainGroups_groupFile₁ hls [] e he)
  rw [hsame, entries_group_flush hls hgroup hdirty] at hread
  have husers : (w.groupFile₁ (w.flush files) ls []).users g.name
      = (w.groupFile₁ files ls gone).users g.name := by
    unfold LinuxFile.users LinuxFile.get Book.get
    rw [hread]
  have hload : (LinuxFile.load groupFile (w.flush files).group).users g.name
      = (w.groupFile₁ files ls gone).users g.name := by
    unfold LinuxFile.users
    rw [get_group_flush hls hgroup hdirty]
  have hget : ((LinuxFile.load groupFile (w.flush files).group).get g.name).isSome = true := by
    rw [get_group_flush hls hgroup hdirty, (effect_groupFile₁ hls gone).isSome_get]
    exact isSome_groupFile₀ (mem_baseGroups hg)
  have hsettle := (effect_group_flush hls hgroup hdirty).users_eq hget
  rw [husers, hload] at hsettle
  exact hsettle.symm

include hls hgroup in
/-- If the file has not been written, there are no accounts and it is not written again. -/
theorem group_same_of_clean (hstale : w.stale (w.flush files) = [])
    (hclean : ¬ (w.groupFile₁ files ls gone).datas.isDirty = true) :
  (w.flush (w.flush files)).group = (w.flush files).group
  := by
  have hnil : ls = [] := by
    by_contra hne
    exact hclean (isDirty_groupFile₁ hls hne gone)
  have heffect := @effect_groupFile₁ w files ls hls gone
  have hlines : (w.groupFile₀ files).lines = files.group :=
    ((LinuxFile.load groupFile files.group).joins_ensureGroups w.pairs).lines
  have hsame : (w.flush files).group = files.group := by
    rw [hgroup, LinuxFile.lines_save, if_neg hclean, heffect.lines, hlines]
  have hclean₀ : ¬ (w.groupFile₀ files).datas.isDirty = true := fun hd => hclean (heffect.isDirty hd)
  have hfile : w.groupFile₁ (w.flush files) ls [] = w.groupFile₀ files := by
    rw [groupFile₁_eq, hnil, List.foldl_nil, List.foldl_nil, groupFile₀, groupFile₀, hsame]
  rw [group_flush_flush hls hstale, hfile, LinuxFile.lines_save, if_neg hclean₀, hlines, hsame]

end Groups

/-- A flush of a group that no role has. -/
theorem settle_of_not_role (hls : w.flushed.mapM withGroup = some ls) {k : String}
    (hk : ∀ g ∈ roleGroupMap, g.name ≠ k) (gone users : List String) :
  settle (roleTimes k) (w.members k) gone users = users
  := by
  rw [roleTimes_eq_zero hk]
  exact settle_zero (members_eq_false hls hk)

theorem group_flush_flush_iff (hls : w.flushed.mapM withGroup = some ls)
    (hnodup : w.userMap.Nodup) (hwf : files.WellFormed) (happs : w.KeepsApps files) :
  (w.flush (w.flush files)).group = (w.flush files).group ↔ w.GroupsSettled files
  := by
  have hstale := stale_flush hls hnodup hwf
  obtain ⟨-, -, -, gone, hgone, hgroup⟩ := @flush_files w files ls hls
  have hnames : ∀ k, ((w.members k).map Prod.fst).Nodup := fun k => names_members w k ▸ hnodup
  have hnot : ∀ k, ∀ p ∈ w.members k, p.1 ∉ (w.stale files).dedup := by
    intro k p hp hmem
    apply (w.mem_stale.mp (List.mem_dedup.mp hmem)).1
    rw [← names_members w k]
    exact List.mem_map_of_mem hp
  have hkept : ∀ k, ∀ u ∈ appsOf k, u ∉ (w.stale files).dedup := by
    intro k u hu hmem
    obtain ⟨p, hp, rfl⟩ := List.mem_map.mp hu
    obtain ⟨app, happ, hgids⟩ := List.mem_flatMap.mp (List.mem_of_mem_filter hp)
    obtain ⟨_, -, rfl⟩ := List.mem_map.mp hgids
    exact happs app happ (List.mem_dedup.mp hmem)
  have hiff : ∀ g ∈ roleGroupMap,
      settle (roleTimes g.name) (w.members g.name) [] (joinAll (appsOf g.name)
          (settle (roleTimes g.name) (w.members g.name) gone (present files g.name)))
        = settle (roleTimes g.name) (w.members g.name) gone (present files g.name)
      ↔ Settled (roleTimes g.name) (w.members g.name) (w.stale files).dedup
          (present files g.name) := by
    intro g hg
    rw [settle_perm hgone]
    exact settle_joinAll_iff (one_le_roleTimes hg) (hnames g.name) (hnot g.name) (hkept g.name)
  constructor
  · intro hsame g hg
    by_cases hne : ls = []
    case pos =>
      have hmembers : w.members g.name = [] := by
        rw [members_eq hls, hne]
        rfl
      rw [hmembers]
      exact ⟨_, [], fun u _ => List.not_mem_nil, List.nil_prefix, (List.append_nil _).symm⟩
    case neg =>
      have husers := users_of_group_same hls hgroup (isDirty_groupFile₁ hls hne gone) hstale hne
        hsame hg
      rw [users_groupFile₁ hls gone hg] at husers
      exact (hiff g hg).mp husers
  · intro hsettled
    by_cases hdirty : (w.groupFile₁ files ls gone).datas.isDirty = true
    case neg => exact group_same_of_clean hls hgroup hstale hdirty
    case pos =>
      apply group_same_of_users hls hgroup hdirty hstale
      intro k e he
      rw [(effect_groupFile₁ hls gone).get] at he
      obtain ⟨e₀, he₀, rfl⟩ := Option.map_eq_some_iff.mp he
      have hpresent : e₀.users = present files k := by
        rw [← users_groupFile₀ (w := w), LinuxFile.users_of_get _ he₀]
      simp only [hpresent]
      by_cases hk : ∃ g ∈ roleGroupMap, g.name = k
      · obtain ⟨g, hg, rfl⟩ := hk
        exact (hiff g hg).mpr (hsettled g hg)
      · have hk : ∀ g ∈ roleGroupMap, g.name ≠ k := fun g hg hname => hk ⟨g, hg, hname⟩
        rw [settle_of_not_role hls hk, settle_of_not_role hls hk]
        exact joinAll_of_subset fun u hu => mem_joinAll.mpr (Or.inr hu)

/-! ## The four files -/

theorem Files.eq_iff {a b : Files} :
  a = b ↔ a.passwd = b.passwd ∧ a.shadow = b.shadow ∧ a.group = b.group ∧ a.ipmi = b.ipmi
  := by
  cases a
  cases b
  simp only [Files.mk.injEq]

/-- A second flush changes nothing if and only if no user of the system is stale and every group
of a role is settled. -/
theorem flush_flush_iff (w : World) (files : Files) (hwf : files.WellFormed)
    (hroles : ∀ a ∈ w.flushed, (roleGroup a.role).isSome = true) (hnodup : w.userMap.Nodup) :
  w.flush (w.flush files) = w.flush files ↔ w.KeepsApps files ∧ w.GroupsSettled files
  := by
  obtain ⟨ls, hls⟩ := mapM_withGroup_iff.mpr hroles
  have hstale := stale_flush hls hnodup hwf
  have hipmi : (w.flush (w.flush files)).ipmi = (w.flush files).ipmi := by
    have hread : ∀ l ∈ (w.flush files).ipmi, (ipmiLineToData l).isSome = true := by
      intro l hl
      rw [ipmi_flush hls hnodup hwf.ipmi] at hl
      obtain ⟨u, -, rfl⟩ := List.mem_map.mp hl
      rfl
    rw [ipmi_flush hls hnodup hread, ipmi_flush hls hnodup hwf.ipmi]
  rw [Files.eq_iff, passwd_flush_flush_iff hls hnodup hwf]
  constructor
  · rintro ⟨happs, -, hgroup, -⟩
    exact ⟨happs, (group_flush_flush_iff hls hnodup hwf happs).mp hgroup⟩
  · rintro ⟨happs, hsettled⟩
    exact ⟨happs, shadow_flush_flush hls hnodup hstale,
      (group_flush_flush_iff hls hnodup hwf happs).mpr hsettled, hipmi⟩

theorem flush_flush_rootFiles :
  (plainWorld "alice").flush ((plainWorld "alice").flush rootFiles)
    = (plainWorld "alice").flush rootFiles
  := by
  have hroles : ∀ a ∈ (plainWorld "alice").flushed, (roleGroup a.role).isSome = true := by
    decide +kernel
  have hstale : (plainWorld "alice").stale rootFiles = [] := by decide +kernel
  apply (flush_flush_iff _ _ wellFormed_rootFiles hroles (by decide +kernel)).mpr
  constructor
  · intro u _
    rw [hstale]
    exact List.not_mem_nil
  · have hcount : ∀ g ∈ roleGroupMap, ∀ u ∈ ((plainWorld "alice").members g.name).map Prod.fst,
        (present rootFiles g.name).count u ≤ roleTimes g.name := by decide +kernel
    intro g hg
    rw [hstale]
    apply settled_of_count
    · rw [names_members, List.dedup_nil, List.append_nil]
      decide +kernel
    · exact hcount g hg

end World

end Linux

end BmcAccount
