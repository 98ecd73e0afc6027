import BmcAccount.Linux.Flush

/-!
# The members of groups after a flush

A flush creates the groups that are missing, lets the users of the system join their groups,
moves every account to the group of its role and takes stale users out of the groups of roles.
What it does to the members of one group is `Roster.settle`.
-/

namespace BmcAccount

namespace Linux

open Keyed Roster

/-! ## Reading groups -/

/-- The numbers of groups are read as they were written. -/
def PlainGroups (f : LinuxFile groupFile) : Prop :=
  ∀ e ∈ f.datas.entries, e.groupId.IsPlain

theorem read_of_isPlain {e : GroupEntry} (h : e.groupId.IsPlain) :
  groupFile.lineToData (groupFile.dataToLine e) = some e
  := by
  unfold Value.IsPlain at h
  cases e
  simp only at h
  simp only [groupFile, h]

theorem plainGroups_load (lines : List GroupLine) :
  PlainGroups (LinuxFile.load groupFile lines)
  := by
  intro e he
  obtain ⟨l, -, hdata⟩ := List.mem_filterMap.mp (mem_of_mem_firsts he).1
  obtain rfl := Option.some.inj hdata
  exact isPlain_tonumber l.groupId

theorem Effect.plainGroups {f f' : LinuxFile groupFile} {T : String → List String → List String}
    (h : Effect f f' T) (hf : PlainGroups f) :
  PlainGroups f'
  := by
  intro e' he'
  have hget : f'.get (groupFile.dataKey e') = some e' := Book.get_eq_some.mpr ⟨he', rfl⟩
  rw [h.get] at hget
  obtain ⟨e, he, heq⟩ := Option.map_eq_some_iff.mp hget
  have hid : e'.groupId = e.groupId := by rw [← heq]
  rw [hid]
  exact hf e (Book.get_eq_some.mp he).1

theorem plainGroups_createGroup {f : LinuxFile groupFile} (hf : PlainGroups f) (g : String)
    (gid : ℕ) :
  PlainGroups (f.createGroup g gid)
  := by
  intro e he
  have hrun : e ∈ (f.datas.run groupFile.equals [.put ⟨g, .num gid, []⟩ false]).entries := he
  rcases Book.mem_entries_run hrun with he | ⟨overwrite, hput⟩
  · exact hf e he
  · obtain ⟨rfl, -⟩ := Edit.put.inj (List.mem_singleton.mp hput)
    exact isPlain_num gid

theorem plainGroups_foldl {β : Type} {step : LinuxFile groupFile → β → LinuxFile groupFile}
    {bs : List β} (hstep : ∀ b ∈ bs, ∀ f, PlainGroups f → PlainGroups (step f b))
    {f : LinuxFile groupFile} (hf : PlainGroups f) :
  PlainGroups (bs.foldl step f)
  := by
  induction bs generalizing f with
  | nil => exact hf
  | cons b bs ih =>
    apply ih fun b' hb' => hstep b' (List.mem_cons_of_mem _ hb')
    exact hstep b List.mem_cons_self f hf

theorem plainGroups_ensureGroups (pairs : Pairs) {f : LinuxFile groupFile} (hf : PlainGroups f) :
  PlainGroups (f.ensureGroups pairs)
  := by
  apply plainGroups_foldl
  · intro p hp f hf
    rw [LinuxFile.addAppMember, f.addUser_eq (baseGroupName_appGidName hp)]
    exact (LinuxFile.effect_insertUser _ _ _).plainGroups (plainGroups_createGroup hf _ _)
  · apply plainGroups_createGroup
    exact plainGroups_foldl (fun g _ f hf => plainGroups_createGroup hf g.name g.gid) hf

/-! ## Members -/

/-- How many roles have a group. -/
def roleTimes (k : String) : ℕ :=
  LinuxFile.times roleGroupMap k

theorem times_pairs (pairs : Pairs) (k : String) :
  LinuxFile.times pairs.roleGroups k = roleTimes k
  :=
  pairs.roleGroups_perm.countP_eq _

theorem one_le_roleTimes {g : RoleGroup} (hg : g ∈ roleGroupMap) :
  1 ≤ roleTimes g.name
  :=
  List.countP_pos_iff.mpr ⟨g, hg, decide_eq_true rfl⟩

theorem roleTimes_eq_zero {k : String} (h : ∀ g ∈ roleGroupMap, g.name ≠ k) :
  roleTimes k = 0
  := by
  rw [roleTimes, LinuxFile.times, List.countP_eq_zero]
  intro g hg
  rw [decide_eq_true_eq]
  exact h g hg

namespace World

variable {w : World} {files : Files} {ls : List (AccountLine × RoleGroup)}

/-- The accounts, and whether a group is the one of their role. -/
def members (w : World) (k : String) : List (String × Bool) :=
  w.flushed.map fun a => (a.userName, decide ((roleGroup a.role).map RoleGroup.name = some k))

/-- The members of a group in the file, after the users of the system have joined. -/
def present (files : Files) (k : String) : List String :=
  joinAll (appsOf k) ((LinuxFile.load groupFile files.group).users k)

theorem names_members (w : World) (k : String) :
  (w.members k).map Prod.fst = w.userMap
  :=
  List.map_map

theorem roleGroup_of_mapM {accounts : List AccountLine} {ls : List (AccountLine × RoleGroup)}
    (h : accounts.mapM withGroup = some ls) :
  ∀ p ∈ ls, roleGroup p.1.role = some p.2
  := by
  induction accounts generalizing ls with
  | nil =>
    obtain rfl : [] = ls := by simpa using h
    exact fun p hp => absurd hp List.not_mem_nil
  | cons account accounts ih =>
    rw [List.mapM_cons] at h
    simp only [withGroup, Option.bind_eq_bind, Option.bind_eq_some_iff, Option.map_eq_some_iff,
      Option.pure_def, Option.some.injEq] at h
    obtain ⟨_, ⟨g, hg, rfl⟩, ls', hls', rfl⟩ := h
    intro p hp
    rcases List.mem_cons.mp hp with rfl | hp
    · exact hg
    · exact ih hls' p hp

theorem members_eq (hls : w.flushed.mapM withGroup = some ls) (k : String) :
  w.members k = ls.map fun p => (p.1.userName, decide (k = p.2.name))
  := by
  rw [members, ← map_fst_of_mapM hls, List.map_map]
  apply List.map_congr_left
  intro p hp
  simp only [Function.comp_apply, roleGroup_of_mapM hls p hp, Option.map_some, Option.some.injEq,
    eq_comm]

/-- A group that no role has is nobody's. -/
theorem members_eq_false (hls : w.flushed.mapM withGroup = some ls) {k : String}
    (hk : ∀ g ∈ roleGroupMap, g.name ≠ k) :
  ∀ p ∈ w.members k, p.2 = false
  := by
  rw [members_eq hls]
  intro _ hmem
  obtain ⟨p, hp, rfl⟩ := List.mem_map.mp hmem
  rw [decide_eq_false_iff_not]
  rintro rfl
  exact hk p.2 (mem_roleGroupMap_of_roleGroup (roleGroup_of_mapM hls p hp)) rfl

/-! ## The file of groups -/

/-- The file `group` with the groups that have to be there. -/
def groupFile₀ (w : World) (files : Files) : LinuxFile groupFile :=
  (LinuxFile.load groupFile files.group).ensureGroups w.pairs

theorem groupFile₁_eq (gone : List String) :
  w.groupFile₁ files ls gone
    = gone.foldl (LinuxFile.leave w.pairs.roleGroups)
        (ls.foldl (LinuxFile.moveAccount w.pairs.roleGroups) (w.groupFile₀ files))
  := rfl

theorem users_groupFile₀ (k : String) :
  (w.groupFile₀ files).users k = present files k
  :=
  ((LinuxFile.load groupFile files.group).joins_ensureGroups w.pairs).users k

theorem isSome_groupFile₀ {k : String} (hk : k ∈ baseGroups) :
  ((w.groupFile₀ files).get k).isSome = true
  :=
  LinuxFile.isSome_ensureGroups w.pairs _ hk

theorem mem_baseGroups {g : RoleGroup} (hg : g ∈ roleGroupMap) :
  g.name ∈ baseGroups
  :=
  List.mem_append_left _ (List.mem_map_of_mem hg)

theorem effect_moves {f : LinuxFile groupFile} {ls : List (AccountLine × RoleGroup)}
    (roleGroups : List RoleGroup)
    (hls : ∀ p ∈ ls, p.2 ∈ roleGroupMap ∧ (f.get p.2.name).isSome = true) :
  Effect f (ls.foldl (LinuxFile.moveAccount roleGroups) f) fun k users =>
    ls.foldl (fun users p => moveMember (LinuxFile.times roleGroups k) users
      (p.1.userName, decide (k = p.2.name))) users
  :=
  Effect.foldl (P := fun p k => k = p.2.name)
    (T := fun p k users => moveMember (LinuxFile.times roleGroups k) users
      (p.1.userName, decide (k = p.2.name)))
    (fun p hp _ hf => LinuxFile.effect_moveAccount roleGroups (hls p hp).1 (hf p.2.name rfl))
    fun p hp _ hk => hk ▸ (hls p hp).2

theorem effect_leaves (roleGroups : List RoleGroup) (gone : List String)
    (f : LinuxFile groupFile) :
  Effect f (gone.foldl (LinuxFile.leave roleGroups) f) fun k users =>
    eraseAll (LinuxFile.times roleGroups k) gone users
  :=
  Effect.foldl (P := fun _ _ => False)
    (fun u _ f _ => f.effect_leave roleGroups u) fun _ _ _ h => h.elim

theorem there_groupFile₀ (hls : w.flushed.mapM withGroup = some ls) :
  ∀ p ∈ ls, p.2 ∈ roleGroupMap ∧ ((w.groupFile₀ files).get p.2.name).isSome = true
  := by
  intro p hp
  have hmem := mem_roleGroupMap_of_roleGroup (roleGroup_of_mapM hls p hp)
  exact ⟨hmem, isSome_groupFile₀ (mem_baseGroups hmem)⟩

/-- What a flush does to the members of the groups. -/
theorem effect_groupFile₁ (hls : w.flushed.mapM withGroup = some ls) (gone : List String) :
  Effect (w.groupFile₀ files) (w.groupFile₁ files ls gone)
    fun k users => settle (roleTimes k) (w.members k) gone users
  := by
  have hall := (effect_moves w.pairs.roleGroups (@there_groupFile₀ w files ls hls)).trans
    (effect_leaves w.pairs.roleGroups gone _)
  refine { hall with get := ?_ }
  intro k
  rw [show (w.groupFile₁ files ls gone).get k = _ from hall.get k, members_eq hls]
  simp only [settle, List.foldl_map, times_pairs]

theorem plainGroups_groupFile₁ (hls : w.flushed.mapM withGroup = some ls) (gone : List String) :
  PlainGroups (w.groupFile₁ files ls gone)
  :=
  (effect_groupFile₁ hls gone).plainGroups
    (plainGroups_ensureGroups w.pairs (plainGroups_load files.group))

/-- The file is written if there is an account. -/
theorem isDirty_groupFile₁ (hls : w.flushed.mapM withGroup = some ls) (hne : ls ≠ [])
    (gone : List String) :
  (w.groupFile₁ files ls gone).datas.isDirty = true
  := by
  have hthere := @there_groupFile₀ w files ls hls
  obtain ⟨p, ls', rfl⟩ := List.exists_cons_of_ne_nil hne
  obtain ⟨hp, hget⟩ := hthere p List.mem_cons_self
  have htimes : LinuxFile.times w.pairs.roleGroups p.2.name ≠ 0 := by
    rw [times_pairs]
    exact Nat.one_le_iff_ne_zero.mp (one_le_roleTimes hp)
  have hmove := LinuxFile.effect_moveAccount w.pairs.roleGroups hp hget
  have hmoves := @effect_moves
    (LinuxFile.moveAccount w.pairs.roleGroups (w.groupFile₀ files) p) ls' w.pairs.roleGroups
    fun q hq => by
      rw [hmove.isSome_get]
      exact hthere q (List.mem_cons_of_mem _ hq)
  rw [groupFile₁_eq, List.foldl_cons]
  apply (effect_leaves w.pairs.roleGroups gone _).isDirty
  exact hmoves.isDirty (LinuxFile.isDirty_moveAccount hp htimes hget)

/-- The members of the group of a role after a flush. -/
theorem users_groupFile₁ (hls : w.flushed.mapM withGroup = some ls) (gone : List String)
    {g : RoleGroup} (hg : g ∈ roleGroupMap) :
  (w.groupFile₁ files ls gone).users g.name
    = settle (roleTimes g.name) (w.members g.name) gone (present files g.name)
  := by
  rw [(effect_groupFile₁ hls gone).users_eq (isSome_groupFile₀ (mem_baseGroups hg)),
    users_groupFile₀]

end World

/-! ## Lines of groups -/

/-- A user is listed in a group of the file. -/
def Listed (files : Files) (u k : String) : Prop :=
  ∃ l ∈ files.group, l.groupName = k ∧ u ∈ l.users

/-- What is listed in a file that is written. -/
theorem listed_iff {files : Files} {f : LinuxFile groupFile} (hdirty : f.datas.isDirty = true)
    (hlines : files.group = f.save.lines) {u k : String} :
  Listed files u k ↔ u ∈ f.users k
  := by
  rw [LinuxFile.lines_save, if_pos hdirty] at hlines
  unfold Listed
  rw [hlines]
  constructor
  · rintro ⟨_, hmem, hk, hu⟩
    obtain ⟨e, he, rfl⟩ := List.mem_map.mp hmem
    have hget : f.get k = some e := Book.get_eq_some.mpr ⟨he, hk⟩
    rw [f.users_of_get hget]
    exact hu
  · intro hu
    cases hget : f.get k with
    | none => simp [LinuxFile.users, hget] at hu
    | some e =>
      rw [f.users_of_get hget] at hu
      obtain ⟨he, hk⟩ := Book.get_eq_some.mp hget
      exact ⟨_, List.mem_map_of_mem he, hk, hu⟩

end Linux

end BmcAccount
