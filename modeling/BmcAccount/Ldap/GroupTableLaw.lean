import BmcAccount.Ldap.GroupTable

/-!
# Identifiers of remote groups

`GroupTable.Lawful` is the invariant of the table: a group is under its own identifier, which
has room, no two groups have the same place in a controller, and the rows of the database are
those of the collection. There are as many identifiers as places in controllers, so a
controller with an unused place leaves an identifier unused as well, and the search that
starts from the length of the table finds one, whatever the holes of the table make of the
length.

`run_groupTable` collects what follows for runs that begin with the empty table, and
`Lawful.configured` says that the table is as the authentication of a user needs it.
-/

namespace BmcAccount

namespace Ldap

open Raise

/-! ## The invariant -/

/-- The place of a group: its type, its controller and its inner identifier. -/
def GroupRow.place (g : GroupRow) : ℕ × ℕ × ℕ :=
  (g.groupType, g.controllerId, g.controllerInnerId)

/-- The type with a number. -/
def RemoteGroupType.ofValue : ℕ → Option RemoteGroupType
  | 0 => some .ldap
  | 1 => some .kerberos
  | _ => none

/-- What an authentication reads of a group all whose properties are set. -/
def GroupRow.toRemoteGroup (g : GroupRow) : Option RemoteGroup := do
  let groupType ← RemoteGroupType.ofValue g.groupType
  let name ← g.name
  let folder ← g.folder
  let privilege ← g.privilege
  let permitRuleIds ← g.permitRuleIds
  let loginInterface ← g.loginInterface
  return ⟨groupType, g.controllerId, g.controllerInnerId, name, folder, g.userRoleId, privilege,
    permitRuleIds, loginInterface⟩

theorem isSome_toRemoteGroup {g : GroupRow} :
  g.toRemoteGroup.isSome ↔ (RemoteGroupType.ofValue g.groupType).isSome ∧ g.name.isSome
    ∧ g.folder.isSome ∧ g.privilege.isSome ∧ g.permitRuleIds.isSome ∧ g.loginInterface.isSome
  := by
  simp only [GroupRow.toRemoteGroup, Option.bind_eq_bind, Option.isSome_iff_exists,
    Option.bind_eq_some_iff, Option.pure_def, Option.some_inj]
  constructor
  · rintro ⟨_, _, h, _, hname, _, hfolder, _, hprivilege, _, hrules, _, hinterface, -⟩
    exact ⟨⟨_, h⟩, ⟨_, hname⟩, ⟨_, hfolder⟩, ⟨_, hprivilege⟩, ⟨_, hrules⟩, ⟨_, hinterface⟩⟩
  · rintro ⟨⟨_, h⟩, ⟨_, hname⟩, ⟨_, hfolder⟩, ⟨_, hprivilege⟩, ⟨_, hrules⟩, ⟨_, hinterface⟩⟩
    exact ⟨_, _, h, _, hname, _, hfolder, _, hprivilege, _, hrules, _, hinterface, rfl⟩

/-- The invariant of the table. -/
structure GroupTable.Lawful (t : GroupTable) : Prop where
  keyed : ∀ {i g}, t.collection i = some g → g.id = i
  range : ∀ {i g}, t.collection i = some g → 1 ≤ i ∧ i ≤ maxGroupCount
  controller : ∀ {i g}, t.collection i = some g →
    checkControllerTypeAndId g.groupType g.controllerId = true
  inner : ∀ {i g}, t.collection i = some g →
    1 ≤ g.controllerInnerId ∧ g.controllerInnerId ≤ maxGroupCntInController
  places : ∀ {i j g h}, t.collection i = some g → t.collection j = some h →
    g.place = h.place → i = j
  complete : ∀ {i g}, t.collection i = some g → g.toRemoteGroup.isSome
  rows : ∀ k g, t.rows k = some g ↔ t.collection k.1 = some g ∧ g.controllerInnerId = k.2

theorem lawful_empty :
  GroupTable.empty.Lawful
  where
  keyed := by simp [GroupTable.empty]
  range := by simp [GroupTable.empty]
  controller := by simp [GroupTable.empty]
  inner := by simp [GroupTable.empty]
  places := by simp [GroupTable.empty]
  complete := by simp [GroupTable.empty]
  rows := by simp [GroupTable.empty]

/-- The group may be entered: it is new or takes the place of itself. -/
structure GroupTable.Fits (t : GroupTable) (g : GroupRow) : Prop where
  range : 1 ≤ g.id ∧ g.id ≤ maxGroupCount
  controller : checkControllerTypeAndId g.groupType g.controllerId = true
  inner : 1 ≤ g.controllerInnerId ∧ g.controllerInnerId ≤ maxGroupCntInController
  place : ∀ {j h}, t.collection j = some h → h.place = g.place → j = g.id
  same : ∀ {h}, t.collection g.id = some h → h.controllerInnerId = g.controllerInnerId
  complete : g.toRemoteGroup.isSome

section Lawful

variable {t : GroupTable} (ht : t.Lawful)
include ht

theorem GroupTable.Lawful.enter {g : GroupRow} (hg : t.Fits g) :
  (t.enter g).Lawful
  := by
  have hcases : ∀ {i h}, (t.enter g).collection i = some h →
      (i = g.id ∧ h = g) ∨ (i ≠ g.id ∧ t.collection i = some h) := by
    intro i h hi
    rw [collection_enter, Function.update_apply] at hi
    split at hi
    · rename_i hid
      exact .inl ⟨hid, (Option.some_inj.mp hi).symm⟩
    · rename_i hid
      exact .inr ⟨hid, hi⟩
  constructor
  case keyed =>
    intro i h hi
    rcases hcases hi with ⟨rfl, rfl⟩ | ⟨-, hi⟩
    · rfl
    · exact ht.keyed hi
  case range =>
    intro i h hi
    rcases hcases hi with ⟨rfl, rfl⟩ | ⟨-, hi⟩
    · exact hg.range
    · exact ht.range hi
  case controller =>
    intro i h hi
    rcases hcases hi with ⟨rfl, rfl⟩ | ⟨-, hi⟩
    · exact hg.controller
    · exact ht.controller hi
  case inner =>
    intro i h hi
    rcases hcases hi with ⟨rfl, rfl⟩ | ⟨-, hi⟩
    · exact hg.inner
    · exact ht.inner hi
  case places =>
    intro i j h h' hi hj hplace
    rcases hcases hi with ⟨hig, hhg⟩ | ⟨-, hi⟩
    · rcases hcases hj with ⟨hjg, -⟩ | ⟨-, hj⟩
      · rw [hig, hjg]
      · rw [hig]
        exact (hg.place hj (hplace.symm.trans (congrArg _ hhg))).symm
    · rcases hcases hj with ⟨hjg, hhg⟩ | ⟨-, hj⟩
      · rw [hjg]
        exact hg.place hi (hplace.trans (congrArg _ hhg))
      · exact ht.places hi hj hplace
  case complete =>
    intro i h hi
    rcases hcases hi with ⟨rfl, rfl⟩ | ⟨-, hi⟩
    · exact hg.complete
    · exact ht.complete hi
  case rows =>
    rintro ⟨i, n⟩ h
    simp only [collection_enter, rows_enter, Function.update_apply, GroupRow.key, Prod.mk.injEq]
    by_cases hi : i = g.id
    · subst hi
      by_cases hn : n = g.controllerInnerId
      · subst hn
        simp only [and_self, if_true]
        constructor
        · rintro h
          exact ⟨h, by rw [Option.some_inj.mp h]⟩
        · exact fun h => h.1
      · simp only [hn, and_false, if_false, if_true, ht.rows]
        constructor
        · rintro ⟨hh, hin⟩
          exact absurd (hin.symm.trans (hg.same hh)) hn
        · rintro ⟨hh, hin⟩
          obtain rfl := Option.some_inj.mp hh
          exact absurd hin.symm hn
    · simp only [hi, false_and, if_false, ht.rows]

theorem GroupTable.Lawful.remove {i : ℕ} {g : GroupRow} (hg : t.collection i = some g) :
  (t.remove g).Lawful
  := by
  obtain rfl := ht.keyed hg
  have hsub : ∀ {i h}, (t.remove g).collection i = some h → t.collection i = some h := by
    intro i h hi
    rw [collection_remove, Function.update_apply] at hi
    split at hi
    · exact nomatch hi
    · exact hi
  constructor
  case keyed => exact fun hi => ht.keyed (hsub hi)
  case range => exact fun hi => ht.range (hsub hi)
  case controller => exact fun hi => ht.controller (hsub hi)
  case inner => exact fun hi => ht.inner (hsub hi)
  case places => exact fun hi hj => ht.places (hsub hi) (hsub hj)
  case complete => exact fun hi => ht.complete (hsub hi)
  case rows =>
    rintro ⟨i, n⟩ h
    simp only [collection_remove, rows_remove, Function.update_apply, GroupRow.key,
      Prod.mk.injEq]
    by_cases hi : i = g.id
    · subst hi
      simp only [true_and, if_true, reduceCtorEq, false_and, iff_false]
      split
      · simp
      · rename_i hn
        rw [ht.rows]
        rintro ⟨hh, hin⟩
        obtain rfl := Option.some_inj.mp (hg.symm.trans hh)
        exact hn hin.symm
    · simp only [hi, false_and, if_false, ht.rows]

end Lawful

/-! ## The groups of a controller -/

/-- The groups of a controller. -/
def GroupTable.groupsOf (t : GroupTable) (groupType serverId : ℕ) : List GroupRow :=
  (List.range' 1 maxGroupCount).filterMap fun i =>
    (t.collection i).filter (GroupRow.isIn groupType serverId)

/-- What `get_remote_groups_in_controller` returns. -/
theorem GroupTable.getRemoteGroupsInController_eq (t : GroupTable) (groupType serverId : ℕ) :
  t.getRemoteGroupsInController groupType serverId
    = (Keyed.index (·.controllerInnerId) (t.groupsOf groupType serverId),
        (t.groupsOf groupType serverId).length)
  := by
  have hloop : t.getRemoteGroupsInController groupType serverId
      = (t.groupsOf groupType serverId).foldl GroupRow.count (fun _ => none, 0) := by
    unfold GroupTable.getRemoteGroupsInController GroupTable.groupsOf
    rw [List.foldl_filterMap]
    congr 1
    funext acc i
    cases t.collection i with
    | none => rfl
    | some g =>
      by_cases hg : g.isIn groupType serverId = true
      · simp [hg, Option.filter]
      · simp [hg, Option.filter]
  have hcount := Keyed.foldl_count GroupRow.controllerInnerId (t.groupsOf groupType serverId)
    (fun _ => none) 0
  rw [Nat.zero_add] at hcount
  exact hloop.trans hcount

theorem GroupRow.isIn_iff {groupType serverId : ℕ} {g : GroupRow} :
  g.isIn groupType serverId = true ↔ g.groupType = groupType ∧ g.controllerId = serverId
  := by
  simp [GroupRow.isIn]

section Groups

variable {t : GroupTable} (ht : t.Lawful)
include ht

theorem GroupTable.Lawful.mem_groupsOf {groupType serverId : ℕ} {g : GroupRow} :
  g ∈ t.groupsOf groupType serverId ↔
    t.collection g.id = some g ∧ g.groupType = groupType ∧ g.controllerId = serverId
  := by
  simp only [GroupTable.groupsOf, List.mem_filterMap, Option.filter_eq_some_iff,
    GroupRow.isIn_iff]
  constructor
  · rintro ⟨i, -, hi, hin⟩
    obtain rfl := ht.keyed hi
    exact ⟨hi, hin⟩
  · rintro ⟨hg, hin⟩
    have hrange := ht.range hg
    refine ⟨g.id, List.mem_range'_1.mpr ⟨hrange.1, ?_⟩, hg, hin⟩
    omega

/-- The inner identifiers of the groups of a controller are distinct. -/
theorem GroupTable.Lawful.nodup_groupsOf (groupType serverId : ℕ) :
  ((t.groupsOf groupType serverId).map (·.controllerInnerId)).Nodup
  := by
  have hids : (t.groupsOf groupType serverId).Pairwise fun g h => g.id ≠ h.id := by
    apply List.Pairwise.filterMap _ _ (List.nodup_range' (s := 1) (n := maxGroupCount))
    intro i j hij g hg h hh
    rw [Option.filter_eq_some_iff] at hg hh
    rw [ht.keyed hg.1, ht.keyed hh.1]
    exact hij
  rw [List.Nodup, List.pairwise_map]
  refine hids.imp_of_mem ?_
  intro g h hg hh hne hinner
  rw [ht.mem_groupsOf] at hg hh
  apply hne
  apply ht.places hg.1 hh.1
  rw [GroupRow.place, GroupRow.place, hg.2.1, hg.2.2, hh.2.1, hh.2.2, hinner]

/-- A group of a controller is found under its inner identifier. -/
theorem GroupTable.Lawful.getRemoteGroupsInController {groupType serverId n : ℕ}
    {g : GroupRow} :
  (t.getRemoteGroupsInController groupType serverId).1 n = some g ↔
    t.collection g.id = some g ∧ g.place = (groupType, serverId, n)
  := by
  rw [t.getRemoteGroupsInController_eq, Keyed.index_eq_some (ht.nodup_groupsOf _ _),
    ht.mem_groupsOf, GroupRow.place]
  simp only [Prod.mk.injEq, and_assoc]

/-- Each controller has room for five groups. -/
theorem GroupTable.Lawful.length_groupsOf (groupType serverId : ℕ) :
  (t.groupsOf groupType serverId).length ≤ maxGroupCntInController
  := by
  have hsub : (t.groupsOf groupType serverId).map (·.controllerInnerId)
      ⊆ List.range' 1 maxGroupCntInController := by
    intro n hn
    obtain ⟨g, hg, rfl⟩ := List.mem_map.mp hn
    have hinner := ht.inner (ht.mem_groupsOf.mp hg).1
    exact List.mem_range'_1.mpr ⟨hinner.1, by omega⟩
  have hlen := ((ht.nodup_groupsOf groupType serverId).subperm hsub).length_le
  rwa [List.length_map, List.length_range'] at hlen

end Groups

/-! ## Unused identifiers -/

/-- The places of all controllers. -/
def allPlaces : Finset (ℕ × ℕ × ℕ) :=
  (Finset.range 2 ×ˢ Finset.range 7 ×ˢ Finset.range 6).filter fun p =>
    checkControllerTypeAndId p.1 p.2.1 ∧ 1 ≤ p.2.2

/-- There are as many places as identifiers. -/
theorem card_allPlaces :
  allPlaces.card = maxGroupCount
  := by decide

/-- What is said of a controller by the check of its type and its identifier. -/
theorem checkControllerTypeAndId_cases {groupType controllerId : ℕ}
    (h : checkControllerTypeAndId groupType controllerId = true) :
  (groupType = 0 ∧ controllerId ≤ 6) ∨ (groupType = 1 ∧ controllerId = 1)
  := by
  unfold checkControllerTypeAndId at h
  split_ifs at h with hldap
  · exact .inl ⟨hldap, of_decide_eq_true (Bool.and_eq_true_iff.mp h).2⟩
  · have hc := Bool.and_eq_true_iff.mp h
    exact .inr ⟨of_decide_eq_true hc.1, of_decide_eq_true hc.2⟩

theorem mem_allPlaces {groupType controllerId n : ℕ}
    (hcontroller : checkControllerTypeAndId groupType controllerId = true)
    (hn : 1 ≤ n ∧ n ≤ maxGroupCntInController) :
  (groupType, controllerId, n) ∈ allPlaces
  := by
  have hc := checkControllerTypeAndId_cases hcontroller
  simp only [maxGroupCntInController] at hn
  simp only [allPlaces, Finset.mem_filter, Finset.mem_product, Finset.mem_range, hcontroller,
    true_and]
  omega

/-- An unused place of a controller leaves an identifier unused. -/
theorem GroupTable.Lawful.exists_unused_id {t : GroupTable} (ht : t.Lawful)
    {groupType controllerId n : ℕ}
    (hcontroller : checkControllerTypeAndId groupType controllerId = true)
    (hn : 1 ≤ n ∧ n ≤ maxGroupCntInController)
    (hunused : (t.getRemoteGroupsInController groupType controllerId).1 n = none) :
  ∃ i, 1 ≤ i ∧ i ≤ maxGroupCount ∧ t.collection i = none
  := by
  by_contra hall
  push Not at hall
  have hgroup : ∀ i ∈ Finset.Icc 1 maxGroupCount, ∃ g, t.collection i = some g := by
    intro i hi
    rw [Finset.mem_Icc] at hi
    exact Option.ne_none_iff_exists'.mp (hall i hi.1 hi.2)
  have hcard : (allPlaces.erase (groupType, controllerId, n)).card
      < (Finset.Icc 1 maxGroupCount).card := by
    rw [Finset.card_erase_of_mem (mem_allPlaces hcontroller hn), card_allPlaces, Nat.card_Icc]
    decide
  have hmaps : ∀ i ∈ Finset.Icc 1 maxGroupCount,
      ((t.collection i).map GroupRow.place).getD (0, 0, 0)
        ∈ allPlaces.erase (groupType, controllerId, n) := by
    intro i hi
    obtain ⟨g, hg⟩ := hgroup i hi
    rw [hg, Option.map_some, Option.getD_some, Finset.mem_erase]
    refine ⟨?_, mem_allPlaces (ht.controller hg) (ht.inner hg)⟩
    intro hplace
    obtain rfl := ht.keyed hg
    have hused := ht.getRemoteGroupsInController.mpr ⟨hg, hplace⟩
    exact nomatch hunused.symm.trans hused
  obtain ⟨i, hi, j, hj, hij, hplace⟩ := Finset.exists_ne_map_eq_of_card_lt_of_maps_to hcard hmaps
  obtain ⟨g, hg⟩ := hgroup i hi
  obtain ⟨h, hh⟩ := hgroup j hj
  rw [hg, hh] at hplace
  exact hij (ht.places hg hh hplace)

/-- `find_unused_group_id` finds an identifier that is not used, whatever border the length
operator returns. -/
theorem GroupTable.Lawful.findUnusedGroupId {t : GroupTable} (ht : t.Lawful) {border : ℕ}
    (hborder : LuaTable.IsBorder t.collection border)
    (hunused : ∃ i, 1 ≤ i ∧ i ≤ maxGroupCount ∧ t.collection i = none) :
  t.collection (t.findUnusedGroupId border) = none
    ∧ 1 ≤ t.findUnusedGroupId border ∧ t.findUnusedGroupId border ≤ maxGroupCount
  := by
  have hle : border ≤ maxGroupCount := by
    rcases hborder.1 with rfl | hsome
    · exact Nat.zero_le _
    · obtain ⟨g, hg⟩ := Option.isSome_iff_exists.mp hsome
      exact (ht.range hg).2
  unfold GroupTable.findUnusedGroupId
  cases hfind : (List.range' 1 border).find? fun i => (t.collection i).isNone with
  | some i =>
    have hi := List.mem_range'_1.mp (List.mem_of_find?_eq_some hfind)
    have hnone := List.find?_some hfind
    rw [Option.getD_some]
    exact ⟨by simpa using hnone, hi.1, by omega⟩
  | none =>
    rw [Option.getD_none]
    refine ⟨hborder.2, Nat.succ_pos _, ?_⟩
    obtain ⟨i, hi, hmax, hnone⟩ := hunused
    have hlt : border < i := by
      by_contra hge
      have := List.find?_eq_none.mp hfind i (List.mem_range'_1.mpr ⟨hi, by omega⟩)
      simp [hnone] at this
    omega

/-! ## Setting the properties -/

/-- The table differs at most in the row with the key. -/
structure GroupTable.Around (t : GroupTable) (k : ℕ × ℕ) (s : GroupTable) : Prop where
  collection : s.collection = t.collection
  rows : ∀ k', k' ≠ k → s.rows k' = t.rows k'

theorem around_refl (t : GroupTable) (k : ℕ × ℕ) :
  t.Around k t
  :=
  ⟨rfl, fun _ _ => rfl⟩

theorem around_save (t : GroupTable) (g : GroupRow) :
  t.Around g.key (t.save g)
  :=
  ⟨rfl, fun _ hk => Function.update_of_ne hk _ _⟩

theorem GroupTable.Around.save {t s : GroupTable} {g : GroupRow} (h : t.Around g.key s) :
  s.save g = t.save g
  := by
  apply GroupTable.ext
  · exact h.collection
  · funext k
    rw [rows_save, rows_save, Function.update_apply, Function.update_apply]
    split
    · rfl
    · rename_i hk
      exact h.rows k hk

/-- Taking the row away restores the table. -/
theorem GroupTable.Around.remove {t s : GroupTable} {g : GroupRow} (h : t.Around g.key s)
    (hgroup : t.collection g.id = none) (hrow : t.rows g.key = none) :
  s.remove g = t
  := by
  apply GroupTable.ext
  · rw [collection_remove, h.collection, ← hgroup, Function.update_eq_self]
  · funext k
    rw [rows_remove, Function.update_apply]
    split
    · rename_i hk
      rw [hk, hrow]
    · rename_i hk
      exact h.rows k hk

section Setters

variable {t : GroupTable} {k : ℕ × ℕ} {β : Type} {Q : β → GroupTable → Prop}

/-- A setter returns the row it has saved, and raises before it saves. -/
theorem setField_spec {check : Except GroupError Unit} {write : GroupRow → GroupRow}
    {g : GroupRow} (hkey : (write g).key = k) :
  Spec (t.Around k) (setField check write g)
    (fun g' s => g' = write g ∧ s = t.save (write g)) (t.Around k)
  := by
  apply Spec.bind Keeps.outcome
  intro _
  apply Spec.bind (Spec.modify (S := fun s => s = t.save (write g)) ?_)
  · intro _
    apply Spec.pure
    exact fun s hs => ⟨rfl, hs⟩
  · subst hkey
    exact fun s hs => hs.save

theorem setField_bind {check : Except GroupError Unit} {write : GroupRow → GroupRow}
    {g : GroupRow} {f : GroupRow → G β} (hkey : (write g).key = k)
    (hf : Spec (t.Around k) (f (write g)) Q (t.Around k)) :
  Spec (t.Around k) (setField check write g >>= f) Q (t.Around k)
  := by
  apply Spec.bind (setField_spec hkey)
  rintro g' s ⟨rfl, rfl⟩
  exact hf _ (hkey ▸ around_save t (write g))

theorem setRemoteGroupSid_bind {sid : String} {g : GroupRow} {f : GroupRow → G β}
    (hkey : g.key = k) (hf : ∀ sid, Spec (t.Around k) (f { g with sid := sid }) Q (t.Around k)) :
  Spec (t.Around k) (setRemoteGroupSid sid g >>= f) Q (t.Around k)
  := by
  unfold setRemoteGroupSid
  split
  · exact hf g.sid
  · exact setField_bind hkey (hf sid)

/-- The properties are set, or an error leaves the rest of the table as it is. -/
theorem setupGroupProperties_spec (roles : ℕ → Bool) (a : NewGroup) (g : GroupRow) :
  Spec (t.Around g.key) (setupGroupProperties roles a g)
    (fun g' s => s = t.save g' ∧ ∃ sid role privilege permitRuleIds loginInterface,
      g' = { g with
        name := some a.groupName
        sid := sid
        folder := some a.folder
        userRoleId := role
        privilege := some privilege
        permitRuleIds := some permitRuleIds
        loginInterface := some loginInterface }) (t.Around g.key)
  := by
  unfold setupGroupProperties setRemoteGroupName setRemoteGroupFolder setRemoteGroupRoleId
    setRemoteGroupPrivilege setRemoteGroupPermitRuleIds setRemoteGroupLoginInterface
  refine setField_bind ?_ ?_
  · rfl
  refine setRemoteGroupSid_bind ?_ fun sid => ?_
  · rfl
  refine setField_bind ?_ (setField_bind ?_ (setField_bind ?_ ?_))
  · rfl
  · rfl
  · rfl
  apply Spec.bind Keeps.outcome
  intro _
  refine setField_bind ?_ ?_
  · rfl
  apply Spec.bind Keeps.refuse
  intro _
  refine (setField_spec ?_).weaken (fun _ hs => hs) ?_ (fun _ hs => hs)
  · rfl
  rintro g' s ⟨rfl, rfl⟩
  exact ⟨rfl, _, _, _, _, _, rfl⟩

end Setters

/-! ## Adding a group -/

/-- The `mdb_id` of a group. -/
def GroupRow.mdbId (g : GroupRow) : String :=
  Ldap.mdbId g.groupType g.controllerId g.controllerInnerId

/-- The inner identifier of a new group is not in use in its controller. -/
theorem innerIdFor_spec {groups : ℕ → Option GroupRow} {memberId n : ℕ}
    (hmember : memberId ≤ maxGroupCntInController) (hfree : (groups memberId).isSome = false)
    (h : innerIdFor groups memberId = .ok n) :
  (1 ≤ n ∧ n ≤ maxGroupCntInController) ∧ groups n = none
  := by
  unfold innerIdFor at h
  split at h
  case isTrue =>
    unfold findUnusedControllerInnerId at h
    split at h
    case h_1 i hfind =>
      obtain rfl := Except.ok.inj h
      have hi := List.mem_range'_1.mp (List.mem_of_find?_eq_some hfind)
      have hnone := List.find?_some hfind
      exact ⟨⟨hi.1, by omega⟩, by simpa using hnone⟩
    case h_2 => exact nomatch h
  case isFalse hne =>
    obtain rfl := Except.ok.inj h
    exact ⟨⟨Nat.pos_of_ne_zero hne, hmember⟩, by simpa using hfree⟩

/-- A group whose place and whose identifier are not in use fits. -/
theorem GroupTable.Lawful.fits {t : GroupTable} (ht : t.Lawful) {g : GroupRow}
    (hid : t.collection g.id = none) (hrange : 1 ≤ g.id ∧ g.id ≤ maxGroupCount)
    (hcontroller : checkControllerTypeAndId g.groupType g.controllerId = true)
    (hinner : 1 ≤ g.controllerInnerId ∧ g.controllerInnerId ≤ maxGroupCntInController)
    (hplace : (t.getRemoteGroupsInController g.groupType g.controllerId).1
      g.controllerInnerId = none)
    (hcomplete : g.toRemoteGroup.isSome) :
  t.Fits g
  where
  range := hrange
  controller := hcontroller
  inner := hinner
  place := by
    intro j h hj hjg
    obtain rfl := ht.keyed hj
    have hused := ht.getRemoteGroupsInController.mpr ⟨hj, hjg⟩
    exact nomatch hplace.symm.trans hused
  same := fun hh => nomatch hid.symm.trans hh
  complete := hcomplete

/-- A controller of one of the two types. -/
theorem isSome_ofValue {groupType controllerId : ℕ}
    (h : checkControllerTypeAndId groupType controllerId = true) :
  (RemoteGroupType.ofValue groupType).isSome
  := by
  rcases checkControllerTypeAndId_cases h with ⟨rfl, -⟩ | ⟨rfl, -⟩
  · rfl
  · rfl

/-- A group is added under an identifier that was not in use, or the table is as before. -/
theorem newRemoteGroup_spec {t : GroupTable} (ht : t.Lawful) (roles : ℕ → Bool) {border : ℕ}
    (hborder : LuaTable.IsBorder t.collection border) (a : NewGroup) :
  Spec (· = t) (newRemoteGroup roles border a)
    (fun r s => ∃ g, t.collection g.id = none ∧ t.Fits g ∧ r = (g.mdbId, g.id) ∧ s = t.enter g)
    (· = t)
  := by
  unfold newRemoteGroup
  apply Spec.refuse_bind (fun _ hs => hs)
  intro hcontroller
  apply Spec.refuse_bind (fun _ hs => hs)
  intro hmember
  apply Spec.get_bind
  apply Spec.refuse_bind (fun _ hs => hs)
  intro _
  apply Spec.refuse_bind (fun _ hs => hs)
  intro hfree
  apply Spec.outcome_bind (fun _ hs => hs)
  intro innerId hinnerId
  rw [Bool.not_eq_false'] at hcontroller
  rw [decide_eq_false_iff_not, not_lt] at hmember
  obtain ⟨hinner, hplace⟩ := innerIdFor_spec hmember hfree hinnerId
  obtain ⟨hid, hrange⟩ := ht.findUnusedGroupId hborder
    (ht.exists_unused_id hcontroller hinner hplace)
  have hrow : t.rows (a.row (t.findUnusedGroupId border) innerId).key = none := by
    cases hrow : t.rows (a.row (t.findUnusedGroupId border) innerId).key with
    | none => rfl
    | some g => exact nomatch hid.symm.trans ((ht.rows _ _).mp hrow).1
  have hsetup := setupGroupProperties_spec (t := t) roles a
    (a.row (t.findUnusedGroupId border) innerId)
  apply Spec.bind (Spec.protect (hsetup.weaken ?_ (fun _ _ h => h) fun _ h => h) ?_)
  · rintro g' s ⟨rfl, sid, role, privilege, permitRuleIds, loginInterface, hg'⟩
    have hcomplete : g'.toRemoteGroup.isSome := by
      rw [isSome_toRemoteGroup, hg']
      exact ⟨isSome_ofValue hcontroller, rfl, rfl, rfl, rfl, rfl⟩
    have hid' : g'.id = t.findUnusedGroupId border := by rw [hg', NewGroup.row]
    have htype : g'.groupType = a.groupType := by rw [hg', NewGroup.row]
    have hserver : g'.controllerId = a.controllerId := by rw [hg', NewGroup.row]
    have hinner' : g'.controllerInnerId = innerId := by rw [hg', NewGroup.row]
    refine ⟨g', ?_, ht.fits ?_ ?_ ?_ ?_ ?_ hcomplete, ?_, ?_⟩
    · rw [hid', hid]
    · rw [hid', hid]
    · rwa [hid']
    · rwa [htype, hserver]
    · rwa [hinner']
    · rwa [htype, hserver, hinner']
    · rw [GroupRow.mdbId, htype, hserver, hinner', hid']
    · rw [GroupTable.enter, hid']
      rfl
  · rintro s rfl
    exact around_refl s _
  · intro e
    apply Spec.bind (Spec.modify (S := (· = t)) fun s hs => hs.remove hid hrow)
    intro _
    exact Spec.throw fun _ hs => hs

/-! ## Deleting a group -/

theorem isDigit_digitChar {n : ℕ} (hn : n < 10) :
  (Nat.digitChar n).isDigit = true
  := by
  interval_cases n <;> rfl

theorem number_digitChar {n : ℕ} (hn : n < 10) :
  Fields.number [Nat.digitChar n] = n
  := by
  rw [Fields.number, Nat.ofDigitChars_cons_digitChar_of_lt_ten hn, Nat.ofDigitChars_nil]
  omega

/-- What `delete_remote_group` reads back from an `mdb_id`. The letters of the type and the
digit of the controller are one run of the first class, which gives the digit back. -/
theorem parseMdbId_mdbId {groupType controllerId innerId : ℕ} (hc : controllerId < 10)
    (hn : innerId < 10) :
  parseMdbId (mdbId groupType controllerId innerId)
    = some ((if groupType = 0 then "LDAP" else "KERBEROS").toList, controllerId, innerId)
  := by
  have htext : (mdbId groupType controllerId innerId).toList
      = (if groupType = 0 then "LDAP" else "KERBEROS").toList
        ++ Nat.digitChar controllerId :: ['_', Nat.digitChar innerId] := by
    simp [mdbId, Nat.toDigits_of_lt_base hc, Nat.toDigits_of_lt_base hn]
  have hletters : ∀ c ∈ (if groupType = 0 then "LDAP" else "KERBEROS").toList,
      c.isAlphanum = true := by
    split <;> simp
  have hcaptures : LuaPattern.captures mdbIdPattern (mdbId groupType controllerId innerId).toList
      = some [(if groupType = 0 then "LDAP" else "KERBEROS").toList,
          [Nat.digitChar controllerId], [Nat.digitChar innerId]] := by
    apply LuaPattern.captures_of_matchAt
    rw [htext]
    apply LuaPattern.matchAt_plus_backtrack
    · split <;> decide
    · intro c hmem
      rcases List.mem_append.mp hmem with hmem | hmem
      · exact hletters c hmem
      · rw [List.mem_singleton.mp hmem, Char.isAlphanum, isDigit_digitChar hc, Bool.or_true]
    · rintro _ ⟨⟩
      rfl
    · apply LuaPattern.matchAt_plus_none
      rintro _ ⟨⟩
      rfl
    · apply LuaPattern.matchAt_plus (w := [Nat.digitChar controllerId])
      · exact List.cons_ne_nil _ _
      · simpa using isDigit_digitChar hc
      · rintro _ ⟨⟩
        rfl
      · rw [LuaPattern.matchAt_lit]
        apply LuaPattern.matchAt_plus (w := [Nat.digitChar innerId]) (v := [])
        · exact List.cons_ne_nil _ _
        · simpa using isDigit_digitChar hn
        · simp
        · rfl
  rw [parseMdbId, hcaptures]
  dsimp only
  rw [number_digitChar hc, number_digitChar hn]

section Calls

variable {t : GroupTable} (ht : t.Lawful)
include ht

/-- The `mdb_id` of a group names it. -/
theorem GroupTable.Lawful.named_mdbId {i : ℕ} {g : GroupRow} (hg : t.collection i = some g) :
  t.named g.mdbId = some g
  := by
  obtain rfl := ht.keyed hg
  have hinner := ht.inner hg
  simp only [maxGroupCntInController] at hinner
  rcases checkControllerTypeAndId_cases (ht.controller hg) with ⟨htype, hserver⟩ | ⟨htype, hserver⟩
  · rw [GroupTable.named, GroupRow.mdbId, parseMdbId_mdbId (by omega) (by omega), htype]
    exact ht.getRemoteGroupsInController.mpr ⟨hg, by rw [GroupRow.place, htype]; rfl⟩
  · rw [GroupTable.named, GroupRow.mdbId, parseMdbId_mdbId (by omega) (by omega), htype]
    exact ht.getRemoteGroupsInController.mpr ⟨hg, by rw [GroupRow.place, htype]; rfl⟩

omit ht in
theorem exec_deleteRemoteGroup (t : GroupTable) (mdbId : String) :
  exec (deleteRemoteGroup mdbId) t
    = (t.named mdbId).elim (.error (.invalidValue (innerIdText mdbId) "MemberId"), t)
        fun g => (.ok (), t.remove g)
  := by
  unfold deleteRemoteGroup
  rw [exec_bind_ok (exec_get t)]
  cases t.named mdbId <;> rfl

/-- What is named is a group of the collection. -/
theorem GroupTable.Lawful.collection_of_named {mdbId : String} {g : GroupRow}
    (h : t.named mdbId = some g) :
  t.collection g.id = some g
  := by
  obtain ⟨p, -, hp⟩ := Option.bind_eq_some_iff.mp h
  exact (ht.getRemoteGroupsInController.mp hp).1

theorem GroupTable.Lawful.delete (mdbId : String) :
  (after (deleteRemoteGroup mdbId) t).Lawful
  := by
  rw [after, exec_deleteRemoteGroup]
  cases hnamed : t.named mdbId with
  | none => exact ht
  | some g => exact ht.remove (ht.collection_of_named hnamed)

theorem GroupTable.Lawful.new (roles : ℕ → Bool) {border : ℕ}
    (hborder : LuaTable.IsBorder t.collection border) (a : NewGroup) :
  (after (newRemoteGroup roles border a) t).Lawful
  := by
  have hspec : Spec (· = t) (newRemoteGroup roles border a)
      (fun _ => GroupTable.Lawful) GroupTable.Lawful := by
    apply (newRemoteGroup_spec ht roles hborder a).weaken fun _ hs => hs
    · rintro r s ⟨g, -, hg, -, rfl⟩
      exact ht.enter hg
    · rintro s rfl
      exact ht
  exact hspec.after rfl

/-- A group whose role goes away gets the role of a common user. -/
theorem GroupTable.Lawful.exec_demote (roles : ℕ → Bool) (roleId : ℕ) {i : ℕ} {g : GroupRow}
    (hg : t.collection i = some g) :
  exec (demote roles roleId i) t = (.ok (), if g.userRoleId = roleId
    then t.enter { g with userRoleId := commonUser } else t)
  := by
  obtain rfl := ht.keyed hg
  unfold demote
  rw [exec_bind_ok (exec_get t), hg]
  dsimp only
  by_cases hrole : g.userRoleId = roleId
  · rw [if_pos hrole, decide_eq_true hrole]
    rfl
  · rw [if_neg hrole, decide_eq_false hrole]
    rfl

theorem GroupTable.Lawful.demoted {i : ℕ} {g : GroupRow} (hg : t.collection i = some g) :
  (t.enter { g with userRoleId := commonUser }).Lawful
  := by
  obtain rfl := ht.keyed hg
  have hcontroller := ht.controller hg
  have hinner := ht.inner hg
  have hcomplete := isSome_toRemoteGroup.mp (ht.complete hg)
  apply ht.enter
  exact {
    range := ht.range hg
    controller := hcontroller
    inner := hinner
    place := fun hj hplace => ht.places hj hg hplace
    same := fun hh => by rw [Option.some_inj.mp (hh.symm.trans hg)]
    complete := isSome_toRemoteGroup.mpr hcomplete }

omit ht in
theorem keeps_updatePrivilege (roles : ℕ → Bool) (keys : List ℕ) (roleId : ℕ) :
  Keeps GroupTable.Lawful (updatePrivilege roles keys roleId)
  := by
  apply Keeps.forM
  intro i _ t ht
  cases hg : t.collection i with
  | none =>
    unfold demote
    rw [exec_bind_ok (exec_get t), hg]
    exact ht
  | some g =>
    rw [ht.exec_demote roles roleId hg]
    dsimp only
    split
    · exact ht.demoted hg
    · exact ht

end Calls

/-! ## What an authentication reads -/

/-- The groups as an authentication reads them. -/
def GroupTable.toRemoteGroups (t : GroupTable) : RemoteGroups :=
  fun i => (t.collection i).bind GroupRow.toRemoteGroup

theorem toRemoteGroup_eq_some {g : GroupRow} {r : RemoteGroup} (h : g.toRemoteGroup = some r) :
  RemoteGroupType.ofValue g.groupType = some r.groupType ∧ r.controllerId = g.controllerId
    ∧ r.controllerInnerId = g.controllerInnerId
  := by
  simp only [GroupRow.toRemoteGroup, Option.bind_eq_bind, Option.bind_eq_some_iff,
    Option.pure_def, Option.some_inj] at h
  obtain ⟨_, htype, _, -, _, -, _, -, _, -, _, -, rfl⟩ := h
  exact ⟨htype, rfl, rfl⟩

theorem ofValue_eq_ldap (n : ℕ) :
  RemoteGroupType.ofValue n = some .ldap ↔ n = RemoteGroupType.ldap.value
  := by
  rcases n with _ | _ | n <;> simp [RemoteGroupType.ofValue, RemoteGroupType.value]

theorem GroupTable.Lawful.map_groupsOf {t : GroupTable} (ht : t.Lawful) (serverId : ℕ) :
  (t.toRemoteGroups.groupsOf .ldap serverId).map (·.controllerInnerId)
    = (t.groupsOf RemoteGroupType.ldap.value serverId).map (·.controllerInnerId)
  := by
  unfold RemoteGroups.groupsOf GroupTable.groupsOf
  rw [List.map_filterMap, List.map_filterMap]
  congr 1
  funext i
  cases hi : t.collection i with
  | none => simp [GroupTable.toRemoteGroups, hi]
  | some g =>
    obtain ⟨r, hr⟩ := Option.isSome_iff_exists.mp (ht.complete hi)
    obtain ⟨htype, hserver, hinner⟩ := toRemoteGroup_eq_some hr
    have hisIn : r.isIn .ldap serverId = g.isIn RemoteGroupType.ldap.value serverId := by
      have hiff := ofValue_eq_ldap g.groupType
      rw [htype, Option.some_inj] at hiff
      simp only [RemoteGroup.isIn, GroupRow.isIn, hserver, hiff]
    have hread : t.toRemoteGroups i = some r := by rw [GroupTable.toRemoteGroups, hi]; exact hr
    rw [hread]
    cases hin : g.isIn RemoteGroupType.ldap.value serverId with
    | true =>
      rw [Option.filter_some_pos (by rwa [hisIn]), Option.filter_some_pos hin, Option.map_some,
        Option.map_some, hinner]
    | false =>
      rw [Option.filter_some_neg (by rwa [hisIn]), Option.filter_some_neg hin, Option.map_none,
        Option.map_none]

/-- The table is as an authentication needs it, for every controller. -/
theorem GroupTable.Lawful.configured {t : GroupTable} (ht : t.Lawful) (serverId : ℕ) :
  t.toRemoteGroups.Configured serverId
  where
  distinct := by
    rw [ht.map_groupsOf]
    exact ht.nodup_groupsOf _ _
  range := by
    intro r hr
    have hmem := List.mem_map_of_mem (f := RemoteGroup.controllerInnerId) hr
    rw [ht.map_groupsOf] at hmem
    obtain ⟨g, hg, hinner⟩ := List.mem_map.mp hmem
    rw [← hinner]
    exact ht.inner (ht.mem_groupsOf.mp hg).1

/-! ## Runs -/

/-- The calls. -/
inductive GroupCall where
  | new (roles : ℕ → Bool) (border : ℕ) (a : NewGroup)
  | delete (mdbId : String)
  | updatePrivilege (roles : ℕ → Bool) (keys : List ℕ) (roleId : ℕ)

/-- The table after a call, which may raise. -/
def GroupTable.step (t : GroupTable) : GroupCall → GroupTable
  | .new roles border a => after (newRemoteGroup roles border a) t
  | .delete mdbId => after (deleteRemoteGroup mdbId) t
  | .updatePrivilege roles keys roleId => after (Ldap.updatePrivilege roles keys roleId) t

/-- The length that a call is given is one that the length operator may return. -/
def GroupTable.Bordered (t : GroupTable) : GroupCall → Prop
  | .new _ border _ => LuaTable.IsBorder t.collection border
  | _ => True

theorem GroupTable.Lawful.step {t : GroupTable} (ht : t.Lawful) (c : GroupCall)
    (hborder : t.Bordered c) :
  (t.step c).Lawful
  := by
  cases c with
  | new roles border a => exact ht.new roles hborder a
  | delete mdbId => exact ht.delete mdbId
  | updatePrivilege roles keys roleId => exact (keeps_updatePrivilege roles keys roleId).after ht

/-- The invariant holds in every run. -/
theorem run_lawful {t : GroupTable} (ht : t.Lawful) {calls : List GroupCall}
    (hcalls : Run.Along GroupTable.step GroupTable.Bordered t calls) :
  ∀ t' ∈ Run.states GroupTable.step t calls, t'.Lawful
  :=
  Run.invariant (fun _ c h hborder => h.step c hborder) ht hcalls

/-- The identifiers of the groups are distinct and have room, and so are the inner identifiers
of the groups of each controller. -/
structure GroupTable.Identified (t : GroupTable) : Prop where
  keyed : ∀ i g, t.collection i = some g → g.id = i ∧ 1 ≤ i ∧ i ≤ 35
  distinct : ∀ i j g h, t.collection i = some g → t.collection j = some h → g.id = h.id → i = j
  count : ∀ groupType controllerId, (t.groupsOf groupType controllerId).length ≤ 5
  inner : ∀ groupType controllerId,
    ((t.groupsOf groupType controllerId).map (·.controllerInnerId)).Nodup
  innerRange : ∀ groupType controllerId, ∀ g ∈ t.groupsOf groupType controllerId,
    1 ≤ g.controllerInnerId ∧ g.controllerInnerId ≤ 5

theorem GroupTable.Lawful.identified {t : GroupTable} (ht : t.Lawful) :
  t.Identified
  where
  keyed := fun _ _ hg => ⟨ht.keyed hg, ht.range hg⟩
  distinct := fun _ _ _ _ hg hh heq => (ht.keyed hg).symm.trans (heq.trans (ht.keyed hh))
  count := ht.length_groupsOf
  inner := ht.nodup_groupsOf
  innerRange := fun _ _ _ hg => ht.inner (ht.mem_groupsOf.mp hg).1

/-- An error leaves the table as it is. -/
theorem GroupTable.Lawful.new_error {t t' : GroupTable} (ht : t.Lawful) {roles : ℕ → Bool}
    {border : ℕ} (hborder : LuaTable.IsBorder t.collection border) {a : NewGroup}
    {e : GroupError} (h : exec (newRemoteGroup roles border a) t = (.error e, t')) :
  t' = t
  := by
  have hspec := newRemoteGroup_spec ht roles hborder a t rfl
  rw [h] at hspec
  exact hspec

theorem GroupTable.Lawful.new_ok {t t' : GroupTable} (ht : t.Lawful) {roles : ℕ → Bool}
    {border : ℕ} (hborder : LuaTable.IsBorder t.collection border) {a : NewGroup}
    {r : String × ℕ} (h : exec (newRemoteGroup roles border a) t = (.ok r, t')) :
  ∃ g, t.collection g.id = none ∧ t.Fits g ∧ r = (g.mdbId, g.id) ∧ t' = t.enter g
  := by
  have hspec := newRemoteGroup_spec ht roles hborder a t rfl
  rw [h] at hspec
  exact hspec

/-- In every run that begins with the empty table, whatever the length operator returns for
the tables on the way, the identifiers are as they should be, a group that cannot be added
leaves no trace, and the text that adding a group returns deletes this group, as long as it is
there, and nothing else. -/
theorem run_groupTable {calls : List GroupCall}
    (hcalls : Run.Along GroupTable.step GroupTable.Bordered .empty calls) :
  ∀ t ∈ Run.states GroupTable.step .empty calls,
    t.Identified
    ∧ ∀ roles border a, LuaTable.IsBorder t.collection border →
      (∀ e t', exec (newRemoteGroup roles border a) t = (.error e, t') → t' = t)
      ∧ ∀ mdbId i t', exec (newRemoteGroup roles border a) t = (.ok (mdbId, i), t') →
        t.collection i = none
        ∧ (∃ g, g.id = i ∧ g.mdbId = mdbId ∧ t' = t.enter g)
        ∧ ∀ later, Run.Along GroupTable.step GroupTable.Bordered t' later →
          ∀ t'' ∈ Run.states GroupTable.step t' later, ∀ g,
            t''.collection i = some g → g.mdbId = mdbId →
              exec (deleteRemoteGroup mdbId) t'' = (.ok (), t''.remove g)
  := by
  intro t hmem
  have ht := run_lawful lawful_empty hcalls t hmem
  refine ⟨ht.identified, fun roles border a hborder => ⟨fun e t' h => ht.new_error hborder h, ?_⟩⟩
  intro mdbId i t' h
  obtain ⟨g, hnone, hfits, hr, rfl⟩ := ht.new_ok hborder h
  obtain ⟨rfl, rfl⟩ := Prod.mk.inj hr
  refine ⟨hnone, ⟨g, rfl, rfl, rfl⟩, ?_⟩
  intro later hlater t'' hmem' g' hg' hname
  have ht'' := run_lawful (ht.enter hfits) hlater t'' hmem'
  rw [← hname, exec_deleteRemoteGroup, ht''.named_mdbId hg']
  rfl

/-- Two groups of the sixth controller. -/
def testGroup : NewGroup := ⟨0, 6, 0, "Test", "aaa", "bbb", 2, [], ["Web", "SSH"]⟩

def guestGroup : NewGroup := ⟨0, 6, 0, "Guests", "ccc", "ddd", 2, [], ["Web"]⟩

/-- The table with the first one. -/
def testTable : GroupTable := GroupTable.empty.step (.new (fun _ => false) 0 testGroup)

/-- The table with both. -/
def testGuestTable : GroupTable := after (newRemoteGroup (fun _ => false) 1 guestGroup) testTable

/-- The second group cannot have the inner identifier of the first one; without one of its own it
gets the next, and the text that is returned deletes it. An authentication can read both. -/
theorem run_groupTable_two :
  testTable.Identified
    ∧ testGuestTable.toRemoteGroups.Configured 6
    ∧ exec (newRemoteGroup (fun _ => false) 1 { guestGroup with memberId := 1 }) testTable
      = (.error .resourceAlreadyExists, testTable)
    ∧ exec (newRemoteGroup (fun _ => false) 1 guestGroup) testTable
      = (.ok ("LDAP6_2", 2), testGuestTable)
    ∧ ∃ g, testGuestTable.collection 2 = some g
      ∧ exec (deleteRemoteGroup "LDAP6_2") testGuestTable = (.ok (), testGuestTable.remove g)
  := by
  have hcalls : Run.Along GroupTable.step GroupTable.Bordered .empty
      [.new (fun _ => false) 0 testGroup] := ⟨⟨Or.inl rfl, rfl⟩, trivial⟩
  have hborder : LuaTable.IsBorder testTable.collection 1 := ⟨Or.inr (by decide), rfl⟩
  have hmem : testTable ∈ Run.states GroupTable.step .empty [.new (fun _ => false) 0 testGroup] :=
    .tail _ (.head _)
  obtain ⟨hidentified, hnew⟩ := run_groupTable hcalls testTable hmem
  have hlawful : testGuestTable.Lawful := (run_lawful lawful_empty hcalls testTable hmem).new
    (fun _ => false) hborder guestGroup
  have herror : (exec (newRemoteGroup (fun _ => false) 1 { guestGroup with memberId := 1 })
      testTable).1 = .error .resourceAlreadyExists := by
    rfl
  have hok : (exec (newRemoteGroup (fun _ => false) 1 guestGroup) testTable).1
      = .ok ("LDAP6_2", 2) := by
    rfl
  have hadded : exec (newRemoteGroup (fun _ => false) 1 guestGroup) testTable
      = (.ok ("LDAP6_2", 2), testGuestTable) := Prod.ext hok rfl
  have hrefused := (hnew _ 1 { guestGroup with memberId := 1 } hborder).1 _ _
    (Prod.ext herror rfl)
  obtain ⟨-, ⟨g, hid, hname, hentered⟩, hdelete⟩ := (hnew _ 1 guestGroup hborder).2 _ _ _ hadded
  have hg : testGuestTable.collection 2 = some g := by
    rw [hentered, collection_enter, hid, Function.update_self]
  exact ⟨hidentified, hlawful.configured 6, Prod.ext herror hrefused, hadded, g, hg,
    hdelete [] trivial testGuestTable (.head _) g hg hname⟩

end Ldap

end BmcAccount
