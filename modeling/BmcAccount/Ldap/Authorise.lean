import BmcAccount.Ldap.Resolve
import BmcAccount.Lib.Keyed

/-!
# The roles of an LDAP session

The remote groups that are configured for a controller go to the C library as an array, and
the library answers with an array that tells of each inner identifier whether the search of
the directory has found the user in the group that has it. The groups are looked up by their
inner identifiers again, and those whose login rule and whose login interfaces let the request
pass decide on the roles of the session.

The numbers of a compacted array, the numbers of the C arrays and the inner identifiers, which
may leave gaps, are three different things here. `authenticate_exact` says that they are not
mixed up: the search finds DNs, and the roles are those of the groups with these DNs.
-/

namespace BmcAccount

namespace Ldap

/-! ## Remote groups -/

/-- `RemoteGroupType`. -/
inductive RemoteGroupType where
  | ldap
  | kerberos
deriving DecidableEq

/-- A remote group, as far as an authentication reads it. -/
structure RemoteGroup where
  groupType : RemoteGroupType
  controllerId : ℕ
  controllerInnerId : ℕ
  name : String
  folder : String
  userRoleId : ℕ
  privilege : ℕ
  permitRuleIds : ℕ
  loginInterface : ℕ

/-- The remote groups under their identifiers, or those of a controller under their inner
ones. -/
abbrev RemoteGroups : Type := ℕ → Option RemoteGroup

/-- `MAX_GROUP_COUNT`. -/
def maxGroupCount : ℕ := 35

/-- The group is one of the controller. -/
def RemoteGroup.isIn (t : RemoteGroupType) (serverId : ℕ) (g : RemoteGroup) : Bool :=
  g.groupType = t && g.controllerId = serverId

/-- A group of the controller is entered under its inner identifier, and counted. -/
def RemoteGroup.enter (acc : RemoteGroups × ℕ) (g : RemoteGroup) : RemoteGroups × ℕ :=
  (Function.update acc.1 g.controllerInnerId (some g), acc.2 + 1)

/-- `get_remote_groups_in_controller`, with the number of the groups. -/
def RemoteGroups.getRemoteGroupsInController (gs : RemoteGroups) (t : RemoteGroupType)
    (serverId : ℕ) : RemoteGroups × ℕ :=
  (List.range' 1 maxGroupCount).foldl (fun acc i =>
    match gs i with
    | none => acc
    | some g => if g.isIn t serverId then RemoteGroup.enter acc g else acc) (fun _ => none, 0)

/-- `get_remote_group_by_id` for the groups of LDAP. -/
def RemoteGroups.getRemoteGroupById (gs : RemoteGroups) (serverId innerId : ℕ) :
    Option RemoteGroup :=
  (gs.getRemoteGroupsInController .ldap serverId).1 innerId

/-! ## The C library -/

/-- `LDAP_GROUP_INFO`. -/
structure LdapGroupInfo where
  groupInnerId : ℕ
  groupName : String
  groupFolder : String
  groupPriv : ℕ

/-- A group of the array that is not filled. -/
def LdapGroupInfo.zero : LdapGroupInfo := ⟨0, "", "", 0⟩

/-- `LDAP_AUTH_INFO`: the groups, and who is to be authenticated. -/
structure LdapAuthInfo where
  serverId : ℕ
  userDomain : String
  groupCnt : ℕ
  group : Fin 5 → LdapGroupInfo
  username : String
  password : String

/-- The directory server, and how it is asked. -/
structure Server (Dn : Type) where
  /-- `parse_ldap_group_info`: the DN of a group, and whether it could be made. -/
  groupDn : String → LdapGroupInfo → Dn × Bool
  /-- The bind and the search for the user. -/
  bind : LdapAuthInfo → Bool
  /-- `do_get_user_group` of the user that is found. -/
  search : LdapAuthInfo → GroupConf Dn → GroupIds → AuthCode × GroupIds

/-- `read_groupdn`: the groups after one without a DN are not read. -/
def readGroupdn {Dn : Type} (groupDn : LdapGroupInfo → Dn × Bool) :
    List LdapGroupInfo → GroupConf Dn → GroupConf Dn
  | [], groupdn => groupdn
  | g :: l, groupdn =>
    let groupdn := fun i => if g.groupInnerId = i.val + 1 then some (groupDn g).1 else groupdn i
    if (groupDn g).2 then readGroupdn groupDn l groupdn else groupdn

/-- The DNs that the search is handed. -/
def Server.groupdn {Dn : Type} (server : Server Dn) (info : LdapAuthInfo) : GroupConf Dn :=
  readGroupdn (server.groupDn info.userDomain) ((List.ofFn info.group).take info.groupCnt)
    fun _ => none

/-- `ldap_authenticate` of the C library. -/
def ldapAuthenticate {Dn : Type} (server : Server Dn) (info : LdapAuthInfo) (group : GroupIds) :
    AuthCode × GroupIds :=
  if server.bind info then server.search info (server.groupdn info) group else (.error, group)

/-- `USER_LDAP_LOGIN_FAIL`, `USER_LOGIN_LIMITED` and `USER_NO_ACCESS`. -/
def userLdapLoginFail : ℕ := 0xDA
def userLoginLimited : ℕ := 0x90
def userNoAccess : ℕ := 0x88

/-- The highest privilege of the groups so far. -/
def raisePrivilege (privilege groupPriv : ℕ) : ℕ :=
  if privilege = 0x0f ∨ (groupPriv ≠ 0x0f ∧ privilege < groupPriv) then groupPriv else privilege

/-- The inner loop of `mscm_ldap_authenticate`, for the `i`-th entry of the group array. -/
def matchGroup (info : LdapAuthInfo) (groupId : GroupIds) (i : Fin 5) (acc : ℕ × GroupIds)
    (j : Fin 5) : ℕ × GroupIds :=
  if (info.group j).groupInnerId = i.val + 1 then
    (raisePrivilege acc.1 (info.group j).groupPriv, Function.update acc.2 i (groupId i))
  else acc

/-- `mscm_ldap_authenticate`: its code, the privilege, and the array of the groups. -/
def mscmLdapAuthenticate {Dn : Type} (server : Server Dn) (info : LdapAuthInfo)
    (group : GroupIds) : ℕ × ℕ × GroupIds :=
  let r := ldapAuthenticate server info noGroups
  if r.1 = .success then
    (0, (List.finRange 5).foldl (fun acc i =>
      if r.2 i = 0xff then acc else (List.finRange 5).foldl (matchGroup info r.2 i) acc)
      (0x0f, group))
  else (userLdapLoginFail, 0x0f, group)

/-- `lua_get_struct_group`: the numbers become bytes. -/
def LdapGroupInfo.ofLua (g : LdapGroupInfo) : LdapGroupInfo :=
  { g with groupInnerId := g.groupInnerId % 256, groupPriv := g.groupPriv % 256 }

/-- The array of the groups as `l_mscm_ldap_authenticate` fills it; a group that is not in the
table raises an error. -/
def luaGroups (tGroup : List LdapGroupInfo) (groupCnt : ℕ) : Option (Fin 5 → LdapGroupInfo) :=
  if groupCnt ≤ tGroup.length then
    some fun i => if i < groupCnt then (tGroup[i.val]?.getD .zero).ofLua else .zero
  else none

/-! ## The service -/

/-- The group as it goes into the table for the C library. -/
def RemoteGroup.toInfo (g : RemoteGroup) : LdapGroupInfo :=
  ⟨g.controllerInnerId, g.name, g.folder, g.privilege⟩

/-- `get_groups_in_cur_controller`: the groups without gaps, the groups, and their number. -/
def getGroupsInCurController (gs : RemoteGroups) (serverId : ℕ) :
    List LdapGroupInfo × RemoteGroups × ℕ :=
  let groups := gs.getRemoteGroupsInController .ldap serverId
  ((List.range' 1 5).filterMap fun i => (groups.1 i).map RemoteGroup.toInfo, groups)

/-- `get_valid_group`. -/
def getValidGroup (gs : RemoteGroups) (serverId : ℕ) (group : GroupIds) : List RemoteGroup :=
  (List.finRange 5).filterMap fun i =>
    if group i ≠ 255 then gs.getRemoteGroupById serverId (i.val + 1) else none

/-- A table of five places. -/
abbrev Places : Type := Fin 5 → Option RemoteGroup

/-- The groups that fail a check are taken out of the table. -/
def Places.drop (fails : RemoteGroup → Bool) (t : Places) : Places :=
  fun i => (t i).filter fun g => !fails g

/-- `next` finds nothing. -/
def Places.isEmpty (t : Places) : Bool :=
  (List.finRange 5).all fun i => (t i).isNone

/-- The groups of a table. -/
def Places.toList (t : Places) : List RemoteGroup :=
  (List.finRange 5).filterMap t

/-- The login rules of the group, whose verdict is `rules`, do not admit the address, if one is
given. -/
def RemoteGroup.failsRule (rules : ℕ → String → Bool) (ip : Option String) (g : RemoteGroup) :
    Bool :=
  ip.any fun ip => !rules g.permitRuleIds ip

/-- The group has no common login interface with the request, if that has one. -/
def RemoteGroup.failsInterface (interface : Option ℕ) (g : RemoteGroup) : Bool :=
  interface.any fun n => n &&& g.loginInterface = 0

/-- `valid_group_authenticate`. -/
def validGroupAuthenticate (rules : ℕ → String → Bool) (validGroups : Places)
    (ip : Option String) (interface : Option ℕ) : Except ℕ Places :=
  let t := validGroups.drop (RemoteGroup.failsRule rules ip)
  if t.isEmpty then .error userLoginLimited
  else
    let t := t.drop (RemoteGroup.failsInterface interface)
    if t.isEmpty then .error userNoAccess else .ok t

/-- What `authenticate` returns: a code alone, or with it the privilege, the roles and the mask
of the inner identifiers. -/
inductive AuthReturn where
  | code (ret : ℕ)
  | groups (ret pri : ℕ) (roles : List ℕ) (innerIds : ℕ)

/-- The information for the C library. -/
def authInfo (gs : RemoteGroups) (serverId : ℕ) (userDomain username password : String) :
    Option LdapAuthInfo :=
  let t := getGroupsInCurController gs serverId
  (luaGroups t.1 t.2.2).map fun group =>
    { serverId, userDomain, groupCnt := t.2.2, group, username, password }

/-- The part of `authenticate` that follows the C library. -/
def authorise (gs : RemoteGroups) (rules : ℕ → String → Bool) (serverId : ℕ)
    (r : ℕ × ℕ × GroupIds) (ip : Option String) (interface : Option ℕ) : AuthReturn :=
  if r.1 ≠ 0 then .code userLdapLoginFail
  else
    let validGroups := getValidGroup gs serverId r.2.2
    if validGroups.isEmpty then .code userLdapLoginFail
    else
      match validGroupAuthenticate rules (fun i => validGroups[i.val]?) ip interface with
      | .error e => .code e
      | .ok t =>
        .groups r.1 r.2.1 (Keyed.firsts id [] (t.toList.map (·.userRoleId)))
          (t.toList.foldl (fun n g => n ||| 1 <<< g.controllerInnerId) 0)

/-- `authenticate`, which may raise an error. -/
def authenticate {Dn : Type} (server : Server Dn) (gs : RemoteGroups)
    (rules : ℕ → String → Bool) (serverId : ℕ) (userDomain username password : String)
    (ip : Option String) (interface : Option ℕ) : Option AuthReturn :=
  (authInfo gs serverId userDomain username password).map fun info =>
    authorise gs rules serverId (mscmLdapAuthenticate server info fun _ => 0xff) ip interface

/-! ## The groups of a controller -/

/-- The groups of a controller. -/
def RemoteGroups.groupsOf (gs : RemoteGroups) (t : RemoteGroupType) (serverId : ℕ) :
    List RemoteGroup :=
  (List.range' 1 maxGroupCount).filterMap fun i => (gs i).filter (RemoteGroup.isIn t serverId)

/-- The groups of a controller have distinct inner identifiers, from `1` to `5`. -/
structure RemoteGroups.Configured (gs : RemoteGroups) (serverId : ℕ) : Prop where
  distinct : ((gs.groupsOf .ldap serverId).map (·.controllerInnerId)).Nodup
  range : ∀ g ∈ gs.groupsOf .ldap serverId, 1 ≤ g.controllerInnerId ∧ g.controllerInnerId ≤ 5

/-- A group has a place in the array of the groups. -/
theorem RemoteGroups.Configured.exists_place {gs : RemoteGroups} {serverId : ℕ}
    (h : gs.Configured serverId) {g : RemoteGroup} (hg : g ∈ gs.groupsOf .ldap serverId) :
  ∃ i : Fin 5, g.controllerInnerId = i.val + 1
  := by
  have hrange := h.range g hg
  have hlt : g.controllerInnerId - 1 < 5 := by omega
  exact ⟨⟨g.controllerInnerId - 1, hlt⟩, (Nat.sub_add_cancel hrange.1).symm⟩

/-- What `get_remote_groups_in_controller` returns. -/
theorem getRemoteGroupsInController_eq (gs : RemoteGroups) (t : RemoteGroupType)
    (serverId : ℕ) :
  gs.getRemoteGroupsInController t serverId
    = (Keyed.index (·.controllerInnerId) (gs.groupsOf t serverId),
        (gs.groupsOf t serverId).length)
  := by
  have hloop : gs.getRemoteGroupsInController t serverId
      = (gs.groupsOf t serverId).foldl RemoteGroup.enter (fun _ => none, 0) := by
    unfold RemoteGroups.getRemoteGroupsInController RemoteGroups.groupsOf
    rw [List.foldl_filterMap]
    congr 1
    funext acc i
    cases gs i with
    | none => rfl
    | some g =>
      by_cases hg : g.isIn t serverId = true
      · simp [hg, Option.filter]
      · simp [hg, Option.filter]
  rw [hloop]
  have hcount := Keyed.foldl_count RemoteGroup.controllerInnerId (gs.groupsOf t serverId)
    (fun _ => none) 0
  rw [Nat.zero_add] at hcount
  exact hcount

section Configured

variable {gs : RemoteGroups} {serverId : ℕ} (h : gs.Configured serverId)
include h

theorem getRemoteGroupById_eq_some {n : ℕ} {g : RemoteGroup} :
  gs.getRemoteGroupById serverId n = some g ↔
    g ∈ gs.groupsOf .ldap serverId ∧ g.controllerInnerId = n
  := by
  unfold RemoteGroups.getRemoteGroupById
  rw [getRemoteGroupsInController_eq]
  exact Keyed.index_eq_some h.distinct

/-- The compacted table holds the groups of the controller. -/
theorem compacted_perm :
  ((List.range' 1 5).filterMap (gs.getRemoteGroupById serverId)).Perm
    (gs.groupsOf .ldap serverId)
  := by
  have hnodup : ((List.range' 1 5).filterMap (gs.getRemoteGroupById serverId)).Nodup := by
    apply List.Nodup.filterMap _ List.nodup_range'
    intro i j g hi hj
    rw [← ((getRemoteGroupById_eq_some h).mp hi).2, ((getRemoteGroupById_eq_some h).mp hj).2]
  apply (List.perm_ext_iff_of_nodup hnodup h.distinct.of_map).mpr
  intro g
  rw [List.mem_filterMap]
  constructor
  · rintro ⟨i, -, hi⟩
    exact ((getRemoteGroupById_eq_some h).mp hi).1
  · intro hg
    refine ⟨g.controllerInnerId, ?_, (getRemoteGroupById_eq_some h).mpr ⟨hg, rfl⟩⟩
    have := h.range g hg
    rw [List.mem_range'_1]
    omega

omit h in
theorem getGroupsInCurController_table :
  (getGroupsInCurController gs serverId).1
    = ((List.range' 1 5).filterMap (gs.getRemoteGroupById serverId)).map RemoteGroup.toInfo
  := by
  rw [List.map_filterMap]
  rfl

theorem getGroupsInCurController_length :
  (getGroupsInCurController gs serverId).2.2 = (getGroupsInCurController gs serverId).1.length
  := by
  rw [getGroupsInCurController_table, List.length_map, (compacted_perm h).length_eq]
  exact congrArg Prod.snd (getRemoteGroupsInController_eq gs .ldap serverId)

/-- The compacted table is sorted by the inner identifiers. -/
theorem compacted_sorted :
  ((List.range' 1 5).filterMap (gs.getRemoteGroupById serverId)).Pairwise
    fun g g' => g.controllerInnerId < g'.controllerInnerId
  := by
  rw [List.pairwise_filterMap]
  apply List.Pairwise.imp _ (List.pairwise_lt_range' 1)
  intro i j hij g hg g' hg'
  rw [((getRemoteGroupById_eq_some h).mp hg).2, ((getRemoteGroupById_eq_some h).mp hg').2]
  exact hij

omit h in
/-- The array begins with the table, and has its inner identifiers, and zeros. -/
theorem luaGroups_ids {l : List LdapGroupInfo} (hlen : l.length ≤ 5)
    (hid : ∀ g ∈ l, g.groupInnerId ≤ 5) :
  ∃ group, luaGroups l l.length = some group ∧
    (List.ofFn group).take l.length = l.map LdapGroupInfo.ofLua ∧
    ∀ n, (∃ j, (group j).groupInnerId = n + 1) ↔ ∃ g ∈ l, g.groupInnerId = n + 1
  := by
  refine ⟨_, if_pos le_rfl, ?_, fun n => ?_⟩
  · apply List.ext_getElem
    · simp [hlen]
    · intro n hn _
      have hlt : n < l.length := by
        rw [List.length_take] at hn
        omega
      rw [List.getElem_take, List.getElem_map, List.getElem_ofFn, if_pos hlt,
        List.getElem?_eq_getElem hlt, Option.getD_some]
  have hcast : ∀ g ∈ l, g.ofLua.groupInnerId = g.groupInnerId := by
    intro g hg
    have := hid g hg
    exact Nat.mod_eq_of_lt (by omega)
  constructor
  · rintro ⟨j, hj⟩
    by_cases hlt : j.val < l.length
    · simp only [if_pos hlt, List.getElem?_eq_getElem hlt, Option.getD_some] at hj
      rw [hcast _ (List.getElem_mem hlt)] at hj
      exact ⟨_, List.getElem_mem hlt, hj⟩
    · simp only [if_neg hlt] at hj
      exact absurd hj (Nat.zero_ne_add_one n)
  · rintro ⟨g, hg, hn⟩
    obtain ⟨j, hj, rfl⟩ := List.getElem_of_mem hg
    refine ⟨⟨j, by omega⟩, ?_⟩
    simp only [if_pos hj, List.getElem?_eq_getElem hj, Option.getD_some]
    rw [hcast _ (List.getElem_mem hj), hn]

/-- The information for the C library begins with the groups of the controller, and has their
inner identifiers and no others. -/
theorem authInfo_groups (userDomain username password : String) :
  ∃ info, authInfo gs serverId userDomain username password = some info ∧
    (List.ofFn info.group).take info.groupCnt
      = (getGroupsInCurController gs serverId).1.map LdapGroupInfo.ofLua ∧
    ∀ n, (∃ j, (info.group j).groupInnerId = n + 1) ↔
      ∃ g ∈ gs.groupsOf .ldap serverId, g.controllerInnerId = n + 1
  := by
  have hmem (x : LdapGroupInfo) : x ∈ (getGroupsInCurController gs serverId).1 ↔
      ∃ g ∈ gs.groupsOf .ldap serverId, g.toInfo = x := by
    rw [getGroupsInCurController_table, List.mem_map]
    simp only [(compacted_perm h).mem_iff]
  have hlen : (getGroupsInCurController gs serverId).1.length ≤ 5 :=
    (List.length_filterMap_le _ _).trans (by simp)
  have hid : ∀ x ∈ (getGroupsInCurController gs serverId).1, x.groupInnerId ≤ 5 := by
    intro x hx
    obtain ⟨g, hg, rfl⟩ := (hmem x).mp hx
    exact (h.range g hg).2
  obtain ⟨group, hgroup, htake, hids⟩ := luaGroups_ids hlen hid
  refine ⟨⟨serverId, userDomain, (getGroupsInCurController gs serverId).1.length, group, username,
    password⟩, ?_, htake, fun n => (hids n).trans ?_⟩
  · unfold authInfo
    simp only [getGroupsInCurController_length h, hgroup, Option.map_some]
  · constructor
    · rintro ⟨x, hx, hn⟩
      obtain ⟨g, hg, rfl⟩ := (hmem x).mp hx
      exact ⟨g, hg, hn⟩
    · rintro ⟨g, hg, hn⟩
      exact ⟨g.toInfo, (hmem _).mpr ⟨g, hg, rfl⟩, hn⟩

end Configured

/-! ## The groups that the library returns -/

theorem snd_foldl_matchGroup (info : LdapAuthInfo) (groupId : GroupIds) (i : Fin 5)
    (l : List (Fin 5)) (acc : ℕ × GroupIds) (k : Fin 5) :
  (l.foldl (matchGroup info groupId i) acc).2 k =
    if k = i ∧ ∃ j ∈ l, (info.group j).groupInnerId = i.val + 1 then groupId i else acc.2 k
  := by
  induction l generalizing acc with
  | nil => simp
  | cons j l ih =>
    rw [List.foldl_cons, ih]
    unfold matchGroup
    by_cases hj : (info.group j).groupInnerId = i.val + 1
    · by_cases hk : k = i
      · subst hk
        simp [hj]
      · simp [hk, hj]
    · simp [hj]

theorem snd_foldl_groupId (info : LdapAuthInfo) (groupId : GroupIds) (l : List (Fin 5))
    (acc : ℕ × GroupIds) (k : Fin 5) :
  (l.foldl (fun acc i => if groupId i = 0xff then acc
      else (List.finRange 5).foldl (matchGroup info groupId i) acc) acc).2 k =
    if k ∈ l ∧ groupId k ≠ 0xff ∧ ∃ j, (info.group j).groupInnerId = k.val + 1 then groupId k
    else acc.2 k
  := by
  induction l generalizing acc with
  | nil => simp
  | cons i l ih =>
    rw [List.foldl_cons, ih]
    by_cases hff : groupId i = 0xff
    · rw [if_pos hff]
      by_cases hk : k = i
      · subst hk
        simp [hff]
      · simp [hk]
    · rw [if_neg hff, snd_foldl_matchGroup]
      by_cases hk : k = i
      · subst hk
        by_cases hj : ∃ j, (info.group j).groupInnerId = k.val + 1
        · simp [hff, hj]
        · simp [hj]
      · simp [hk]

variable {Dn : Type}

/-- The array of the groups tells of each inner identifier whether the search has found the
user in a group that has it. -/
theorem mscmLdapAuthenticate_group {server : Server Dn} {info : LdapAuthInfo}
    (hret : (mscmLdapAuthenticate server info fun _ => 0xff).1 = 0) (i : Fin 5) :
  (mscmLdapAuthenticate server info fun _ => 0xff).2.2 i ≠ 255 ↔
    ((ldapAuthenticate server info noGroups).1 = .success
      ∧ (ldapAuthenticate server info noGroups).2 i ≠ 0xff)
      ∧ ∃ j, (info.group j).groupInnerId = i.val + 1
  := by
  unfold mscmLdapAuthenticate at hret ⊢
  by_cases hsuccess : (ldapAuthenticate server info noGroups).1 = .success
  · simp only [hsuccess, if_true, snd_foldl_groupId, List.mem_finRange, true_and]
    split_ifs with hmatch
    · exact iff_of_true hmatch.1 hmatch
    · exact iff_of_false (by simp) hmatch
  · simp only [if_neg hsuccess] at hret
    exact absurd hret (by decide)

/-! ## The DNs of the groups -/

/-- The groups of the list before `g` have DNs, so that `g` is read. -/
def IsRead (groupDn : LdapGroupInfo → Dn × Bool) (l : List LdapGroupInfo) (g : LdapGroupInfo) :
    Prop :=
  ∀ g' ∈ l, g'.groupInnerId < g.groupInnerId → (groupDn g').2 = true

/-- The group behind the first one is read if the first one has a DN. -/
theorem isRead_cons_iff {groupDn : LdapGroupInfo → Dn × Bool} {l : List LdapGroupInfo}
    {g₀ g : LdapGroupInfo} (h : g₀.groupInnerId < g.groupInnerId) :
  IsRead groupDn (g₀ :: l) g ↔ (groupDn g₀).2 = true ∧ IsRead groupDn l g
  := by
  unfold IsRead
  rw [List.forall_mem_cons]
  exact and_congr_left' ⟨fun hfirst => hfirst h, fun hfirst _ => hfirst⟩

/-- The first group is read, and the others are if it has a DN. -/
theorem exists_isRead_cons_iff (groupDn : LdapGroupInfo → Dn × Bool) {l : List LdapGroupInfo}
    {g₀ : LdapGroupInfo} (hlt : ∀ g ∈ l, g₀.groupInnerId < g.groupInnerId) (n : ℕ)
    (P : LdapGroupInfo → Prop) :
  (∃ g ∈ g₀ :: l, g.groupInnerId = n ∧ IsRead groupDn (g₀ :: l) g ∧ P g)
    ↔ (g₀.groupInnerId = n ∧ P g₀)
      ∨ (groupDn g₀).2 = true ∧ ∃ g ∈ l, g.groupInnerId = n ∧ IsRead groupDn l g ∧ P g
  := by
  have hfirst : IsRead groupDn (g₀ :: l) g₀ := by
    intro g' hg' hless
    rcases List.mem_cons.mp hg' with rfl | hg'
    · exact absurd hless (lt_irrefl _)
    · exact absurd hless (hlt g' hg').asymm
  constructor
  · rintro ⟨g, hg, hn, hread, hP⟩
    rcases List.mem_cons.mp hg with rfl | hg
    · exact .inl ⟨hn, hP⟩
    · obtain ⟨hmade, hread⟩ := (isRead_cons_iff (hlt g hg)).mp hread
      exact .inr ⟨hmade, g, hg, hn, hread, hP⟩
  · rintro (⟨hn, hP⟩ | ⟨hmade, g, hg, hn, hread, hP⟩)
    · exact ⟨g₀, List.mem_cons_self, hn, hfirst, hP⟩
    · exact ⟨g, List.mem_cons_of_mem _ hg, hn, (isRead_cons_iff (hlt g hg)).mpr ⟨hmade, hread⟩, hP⟩

/-- The place of an inner identifier has the DN of the group with that identifier, if it is read,
and otherwise what it had before. -/
theorem readGroupdn_eq_some {groupDn : LdapGroupInfo → Dn × Bool} {l : List LdapGroupInfo}
    (hsorted : l.Pairwise fun g g' => g.groupInnerId < g'.groupInnerId) (groupdn : GroupConf Dn)
    (i : Fin 5) (d : Dn) :
  readGroupdn groupDn l groupdn i = some d ↔
    (∃ g ∈ l, g.groupInnerId = i.val + 1 ∧ IsRead groupDn l g ∧ (groupDn g).1 = d)
      ∨ (¬ ∃ g ∈ l, g.groupInnerId = i.val + 1 ∧ IsRead groupDn l g) ∧ groupdn i = some d
  := by
  induction l generalizing groupdn with
  | nil => simp [readGroupdn]
  | cons g₀ l ih =>
    obtain ⟨hlt, hsorted⟩ := List.pairwise_cons.mp hsorted
    have hread := exists_isRead_cons_iff groupDn hlt (i.val + 1)
    have hread' := hread fun _ => True
    simp only [and_true] at hread'
    rw [hread, hread']
    unfold readGroupdn
    by_cases hi : g₀.groupInnerId = i.val + 1
    · have hother (P : LdapGroupInfo → Prop) : ¬ ∃ g ∈ l, g.groupInnerId = i.val + 1 ∧ P g := by
        rintro ⟨g, hg, hn, -⟩
        have := hlt g hg
        omega
      split_ifs with hmade
      · rw [ih hsorted]
        simp [hi, hother]
      · simp [hi, hmade]
    · split_ifs with hmade
      · rw [ih hsorted]
        simp [hi, hmade]
      · simp [hi, hmade]

/-- The DN of a remote group. -/
def Server.dn (server : Server Dn) (info : LdapAuthInfo) (g : RemoteGroup) : Dn :=
  (server.groupDn info.userDomain g.toInfo.ofLua).1

/-- The DN of a remote group is read: the groups of the controller with a smaller inner identifier
have DNs. -/
def Server.Reads (server : Server Dn) (gs : RemoteGroups) (info : LdapAuthInfo)
    (g : RemoteGroup) : Prop :=
  ∀ g' ∈ gs.groupsOf .ldap info.serverId, g'.controllerInnerId < g.controllerInnerId →
    (server.groupDn info.userDomain g'.toInfo.ofLua).2 = true

/-- The search is handed the DN of each group that is read, at the place of its inner
identifier. -/
theorem groupdn_eq_some {server : Server Dn} {gs : RemoteGroups} {info : LdapAuthInfo}
    (h : gs.Configured info.serverId)
    (htake : (List.ofFn info.group).take info.groupCnt
      = (getGroupsInCurController gs info.serverId).1.map LdapGroupInfo.ofLua)
    (i : Fin 5) (d : Dn) :
  server.groupdn info i = some d ↔ ∃ g ∈ gs.groupsOf .ldap info.serverId,
    g.controllerInnerId = i.val + 1 ∧ server.Reads gs info g ∧ server.dn info g = d
  := by
  rw [getGroupsInCurController_table, List.map_map] at htake
  have hinner (g : RemoteGroup) (hg : g ∈ gs.groupsOf .ldap info.serverId) :
      g.toInfo.ofLua.groupInnerId = g.controllerInnerId := by
    have hle := (h.range g hg).2
    have hlt : g.controllerInnerId < 256 := by omega
    exact Nat.mod_eq_of_lt hlt
  have hmem (g : RemoteGroup) := (compacted_perm h).mem_iff (a := g)
  have hsorted : (((List.range' 1 5).filterMap (gs.getRemoteGroupById info.serverId)).map
      (LdapGroupInfo.ofLua ∘ RemoteGroup.toInfo)).Pairwise
      fun g g' => g.groupInnerId < g'.groupInnerId := by
    rw [List.pairwise_map]
    apply List.Pairwise.imp_of_mem _ (compacted_sorted h)
    intro g g' hg hg' hlt
    rw [Function.comp, Function.comp, hinner g ((hmem g).mp hg), hinner g' ((hmem g').mp hg')]
    exact hlt
  have hread (g : RemoteGroup) (hg : g ∈ gs.groupsOf .ldap info.serverId) :
      IsRead (server.groupDn info.userDomain)
        (((List.range' 1 5).filterMap (gs.getRemoteGroupById info.serverId)).map
          (LdapGroupInfo.ofLua ∘ RemoteGroup.toInfo)) g.toInfo.ofLua
        ↔ server.Reads gs info g := by
    unfold IsRead Server.Reads
    rw [List.forall_mem_map]
    constructor
    · intro hall g' hg' hlt
      apply hall g' ((hmem g').mpr hg')
      rw [Function.comp, hinner g hg, hinner g' hg']
      exact hlt
    · intro hall g' hg' hlt
      rw [Function.comp, hinner g hg, hinner g' ((hmem g').mp hg')] at hlt
      exact hall g' ((hmem g').mp hg') hlt
  unfold Server.groupdn
  rw [htake, readGroupdn_eq_some hsorted]
  simp only [reduceCtorEq, and_false, or_false]
  constructor
  · rintro ⟨x, hx, heq, hreads, hd⟩
    obtain ⟨g, hg, rfl⟩ := List.mem_map.mp hx
    have hg' := (hmem g).mp hg
    exact ⟨g, hg', (hinner g hg').symm.trans heq, (hread g hg').mp hreads, hd⟩
  · rintro ⟨g, hg, heq, hreads, hd⟩
    exact ⟨_, List.mem_map_of_mem ((hmem g).mpr hg), (hinner g hg).trans heq,
      (hread g hg).mpr hreads, hd⟩

/-- The search reports the user to be in the groups whose DNs are in `M`: it marks the places where
it is handed one of them, and succeeds if there is one. -/
structure Server.Finds (server : Server Dn) (info : LdapAuthInfo) (M : Set Dn) : Prop where
  marks : ∀ i, (server.search info (server.groupdn info) noGroups).2 i ≠ 0xff
    ↔ ∃ d ∈ M, server.groupdn info i = some d
  success : (∃ i, ∃ d ∈ M, server.groupdn info i = some d) →
    (server.search info (server.groupdn info) noGroups).1 = .success

theorem Server.Finds.ldapAuthenticate_iff {server : Server Dn} {info : LdapAuthInfo} {M : Set Dn}
    (hM : server.Finds info M) (i : Fin 5) :
  ((ldapAuthenticate server info noGroups).1 = .success
      ∧ (ldapAuthenticate server info noGroups).2 i ≠ 0xff)
    ↔ server.bind info = true ∧ ∃ d ∈ M, server.groupdn info i = some d
  := by
  unfold ldapAuthenticate
  by_cases hbind : server.bind info = true
  · simp only [hbind, if_true, true_and, hM.marks]
    exact and_iff_right_of_imp fun hd => hM.success ⟨i, hd⟩
  · simp [hbind]

/-! ## Tables of groups -/

theorem Places.isEmpty_iff {t : Places} :
  t.isEmpty = true ↔ t.toList = []
  := by
  unfold Places.isEmpty Places.toList
  rw [List.all_eq_true, List.filterMap_eq_nil_iff]
  simp

theorem Places.mem_toList {t : Places} {g : RemoteGroup} :
  g ∈ t.toList ↔ ∃ i, t i = some g
  := by
  unfold Places.toList
  rw [List.mem_filterMap]
  simp

theorem Places.mem_toList_drop {t : Places} {fails : RemoteGroup → Bool} {g : RemoteGroup} :
  g ∈ (t.drop fails).toList ↔ g ∈ t.toList ∧ fails g = false
  := by
  simp only [Places.mem_toList, Places.drop, Option.filter_eq_some_iff, Bool.not_eq_true']
  exact exists_and_right

/-- The groups of a list of at most five. -/
theorem Places.mem_toList_ofList {l : List RemoteGroup} (hl : l.length ≤ 5) {g : RemoteGroup} :
  g ∈ Places.toList (fun i => l[i.val]?) ↔ g ∈ l
  := by
  rw [Places.mem_toList]
  constructor
  · rintro ⟨i, hi⟩
    exact List.mem_of_getElem? hi
  · intro hg
    obtain ⟨i, hi⟩ := List.getElem?_of_mem hg
    have hlt := (List.getElem?_eq_some_iff.mp hi).1
    exact ⟨⟨i, by omega⟩, hi⟩

/-- A group lets a request pass. -/
def RemoteGroup.LetsPass (rules : ℕ → String → Bool) (ip : Option String) (interface : Option ℕ)
    (g : RemoteGroup) : Prop :=
  (∀ a ∈ ip, rules g.permitRuleIds a = true) ∧ ∀ n ∈ interface, n &&& g.loginInterface ≠ 0

/-- The groups that are left are those that let the request pass; without any there is an error
code. -/
theorem validGroupAuthenticate_eq (rules : ℕ → String → Bool) (t : Places) (ip : Option String)
    (interface : Option ℕ) :
  (∃ e, e ≠ 0 ∧ validGroupAuthenticate rules t ip interface = .error e ∧
      ∀ g ∈ t.toList, ¬ g.LetsPass rules ip interface)
    ∨ ∃ t', validGroupAuthenticate rules t ip interface = .ok t' ∧ t'.toList ≠ [] ∧
      ∀ g, g ∈ t'.toList ↔ g ∈ t.toList ∧ g.LetsPass rules ip interface
  := by
  have hrules (g : RemoteGroup) : g.failsRule rules ip = false ↔
      ∀ a ∈ ip, rules g.permitRuleIds a = true := by
    cases ip <;> simp [RemoteGroup.failsRule]
  have hinterface (g : RemoteGroup) : g.failsInterface interface = false ↔
      ∀ n ∈ interface, n &&& g.loginInterface ≠ 0 := by
    cases interface <;> simp [RemoteGroup.failsInterface]
  unfold validGroupAuthenticate
  simp only
  split_ifs with hlimited haccess
  · refine .inl ⟨_, by decide, rfl, fun g hg hpass => ?_⟩
    rw [Places.isEmpty_iff] at hlimited
    have hmem := Places.mem_toList_drop.mpr ⟨hg, (hrules g).mpr hpass.1⟩
    rw [hlimited] at hmem
    exact List.not_mem_nil hmem
  · refine .inl ⟨_, by decide, rfl, fun g hg hpass => ?_⟩
    rw [Places.isEmpty_iff] at haccess
    have hmem := Places.mem_toList_drop.mpr
      ⟨Places.mem_toList_drop.mpr ⟨hg, (hrules g).mpr hpass.1⟩, (hinterface g).mpr hpass.2⟩
    rw [haccess] at hmem
    exact List.not_mem_nil hmem
  · refine .inr ⟨_, rfl, fun hnil => haccess (Places.isEmpty_iff.mpr hnil), fun g => ?_⟩
    rw [Places.mem_toList_drop, Places.mem_toList_drop, hrules, hinterface, and_assoc]
    exact Iff.rfl

/-! ## The roles and the mask -/

/-- The bits of the mask are the inner identifiers. -/
theorem testBit_foldl_innerIds (l : List RemoteGroup) (n k : ℕ) :
  (l.foldl (fun n g => n ||| 1 <<< g.controllerInnerId) n).testBit k = true ↔
    n.testBit k = true ∨ ∃ g ∈ l, g.controllerInnerId = k
  := by
  induction l generalizing n with
  | nil => simp
  | cons g l ih =>
    rw [List.foldl_cons, ih, Nat.testBit_or, Nat.one_shiftLeft, Nat.testBit_two_pow]
    simp [or_assoc]

theorem mem_firsts_id (l : List ℕ) (r : ℕ) :
  r ∈ Keyed.firsts id [] l ↔ r ∈ l
  := by
  constructor
  · exact fun hr => (Keyed.mem_of_mem_firsts hr).1
  · intro hr
    have hfind : (l.find? (id · = r)).isSome = true := by
      rw [List.find?_isSome]
      exact ⟨r, hr, by simp⟩
    rw [← Keyed.find?_firsts (List.not_mem_nil (a := r)), List.find?_isSome] at hfind
    obtain ⟨x, hx, heq⟩ := hfind
    simp only [id_eq, decide_eq_true_eq] at heq
    exact heq ▸ hx

/-- The user is bound, and the search reports the user to be in the group. -/
def Server.Reports (server : Server Dn) (gs : RemoteGroups) (info : LdapAuthInfo) (M : Set Dn)
    (g : RemoteGroup) : Prop :=
  server.bind info = true ∧ server.Reads gs info g ∧ server.dn info g ∈ M

/-- The search marks the place of the inner identifier of a group exactly if it reports the user
to be in the group. -/
theorem reports_iff {server : Server Dn} {gs : RemoteGroups} {info : LdapAuthInfo} {M : Set Dn}
    (h : gs.Configured info.serverId)
    (htake : (List.ofFn info.group).take info.groupCnt
      = (getGroupsInCurController gs info.serverId).1.map LdapGroupInfo.ofLua)
    (hM : server.Finds info M) {g : RemoteGroup} (hg : g ∈ gs.groupsOf .ldap info.serverId)
    {i : Fin 5} (hi : g.controllerInnerId = i.val + 1) :
  ((ldapAuthenticate server info noGroups).1 = .success
      ∧ (ldapAuthenticate server info noGroups).2 i ≠ 0xff) ↔ server.Reports gs info M g
  := by
  rw [hM.ldapAuthenticate_iff]
  apply and_congr_right'
  constructor
  · rintro ⟨d, hd, hdn⟩
    obtain ⟨g', hg', hi', hreads, rfl⟩ := (groupdn_eq_some h htake i d).mp hdn
    have hsame := ((getRemoteGroupById_eq_some h).mpr ⟨hg', hi'⟩).symm.trans
      ((getRemoteGroupById_eq_some h).mpr ⟨hg, hi⟩)
    obtain rfl := Option.some_inj.mp hsame
    exact ⟨hreads, hd⟩
  · rintro ⟨hreads, hd⟩
    exact ⟨_, hd, (groupdn_eq_some h htake i _).mpr ⟨g, hg, hi, hreads, rfl⟩⟩

/-- The valid groups are those that the search reports the user to be in. -/
theorem mem_getValidGroup {server : Server Dn} {gs : RemoteGroups} {info : LdapAuthInfo}
    {M : Set Dn} (h : gs.Configured info.serverId)
    (htake : (List.ofFn info.group).take info.groupCnt
      = (getGroupsInCurController gs info.serverId).1.map LdapGroupInfo.ofLua)
    (hids : ∀ n, (∃ j, (info.group j).groupInnerId = n + 1) ↔
      ∃ g ∈ gs.groupsOf .ldap info.serverId, g.controllerInnerId = n + 1)
    (hM : server.Finds info M)
    (hret : (mscmLdapAuthenticate server info fun _ => 0xff).1 = 0) (g : RemoteGroup) :
  g ∈ getValidGroup gs info.serverId (mscmLdapAuthenticate server info fun _ => 0xff).2.2 ↔
    g ∈ gs.groupsOf .ldap info.serverId ∧ server.Reports gs info M g
  := by
  unfold getValidGroup
  rw [List.mem_filterMap]
  constructor
  · rintro ⟨i, -, hi⟩
    split_ifs at hi with hvalid
    obtain ⟨hg, hinner⟩ := (getRemoteGroupById_eq_some h).mp hi
    have hmarked := ((mscmLdapAuthenticate_group hret i).mp hvalid).1
    exact ⟨hg, (reports_iff h htake hM hg hinner).mp hmarked⟩
  · rintro ⟨hg, hreports⟩
    obtain ⟨i, hinner⟩ := h.exists_place hg
    refine ⟨i, List.mem_finRange i, ?_⟩
    rw [if_pos, getRemoteGroupById_eq_some h]
    · exact ⟨hg, hinner⟩
    · apply (mscmLdapAuthenticate_group hret _).mpr
      exact ⟨(reports_iff h htake hM hg hinner).mpr hreports, (hids _).mpr ⟨g, hg, hinner⟩⟩

/-- What `authenticate` returns is exact for the groups `S`: their roles without duplicates and
their inner identifiers, or an error code if there are none. -/
def AuthReturn.Exact (S : Set RemoteGroup) : AuthReturn → Prop
  | .code ret => ret ≠ 0 ∧ S = ∅
  | .groups ret _ roles innerIds =>
      ret = 0 ∧ S.Nonempty ∧ roles.Nodup ∧ (∀ r, r ∈ roles ↔ ∃ g ∈ S, g.userRoleId = r) ∧
        ∀ k, innerIds.testBit k = true ↔ ∃ g ∈ S, g.controllerInnerId = k

/-- The groups that are to decide on the roles: the search reports the user to be in them, and
they let the request pass. -/
def Granting (server : Server Dn) (gs : RemoteGroups) (rules : ℕ → String → Bool)
    (info : LdapAuthInfo) (M : Set Dn) (ip : Option String) (interface : Option ℕ) :
    Set RemoteGroup :=
  { g | g ∈ gs.groupsOf .ldap info.serverId ∧ server.Reports gs info M g ∧
    g.LetsPass rules ip interface }

/-- An authentication with LDAP is exact, whichever DNs the search finds the user in. -/
theorem authenticate_exact (server : Server Dn) (gs : RemoteGroups) (rules : ℕ → String → Bool)
    (serverId : ℕ) (h : gs.Configured serverId) (userDomain username password : String)
    (M : Set Dn)
    (hM : ∀ info ∈ authInfo gs serverId userDomain username password, server.Finds info M)
    (ip : Option String) (interface : Option ℕ) :
  ∃ info ret, authInfo gs serverId userDomain username password = some info ∧
    authenticate server gs rules serverId userDomain username password ip interface = some ret ∧
    ret.Exact (Granting server gs rules info M ip interface)
  := by
  obtain ⟨info, hinfo, htake, hids⟩ := authInfo_groups h userDomain username password
  have hfinds := hM info hinfo
  have hserver : info.serverId = serverId := by
    unfold authInfo at hinfo
    obtain ⟨_, -, rfl⟩ := Option.map_eq_some_iff.mp hinfo
    rfl
  refine ⟨info, _, hinfo, by rw [authenticate, hinfo, Option.map_some], ?_⟩
  subst hserver
  unfold authorise
  by_cases hret : (mscmLdapAuthenticate server info fun _ => 0xff).1 = 0
  · have hvalid := mem_getValidGroup h htake hids hfinds hret
    have hlen : (getValidGroup gs info.serverId
        (mscmLdapAuthenticate server info fun _ => 0xff).2.2).length ≤ 5 :=
      (List.length_filterMap_le _ _).trans (by simp)
    rw [if_neg (not_not.mpr hret)]
    simp only
    generalize getValidGroup gs info.serverId
      (mscmLdapAuthenticate server info fun _ => 0xff).2.2 = valid at hvalid hlen ⊢
    have hgranting (g : RemoteGroup) : g ∈ Granting server gs rules info M ip interface ↔
        g ∈ valid ∧ g.LetsPass rules ip interface := by
      rw [hvalid, and_assoc]
      exact Iff.rfl
    by_cases hempty : valid.isEmpty = true
    · rw [if_pos hempty]
      refine ⟨by decide, Set.eq_empty_of_forall_notMem fun g hg => ?_⟩
      rw [List.isEmpty_iff] at hempty
      rw [hgranting, hempty] at hg
      exact List.not_mem_nil hg.1
    · rw [if_neg hempty]
      obtain ⟨e, he, heq, hnone⟩ | ⟨t, heq, hne, ht⟩ := validGroupAuthenticate_eq
        rules (fun i => valid[i.val]?) ip interface
      · rw [heq]
        refine ⟨he, Set.eq_empty_of_forall_notMem fun g hg => ?_⟩
        rw [hgranting] at hg
        exact hnone g ((Places.mem_toList_ofList hlen).mpr hg.1) hg.2
      · rw [heq]
        have hmem (g : RemoteGroup) : g ∈ t.toList ↔
            g ∈ Granting server gs rules info M ip interface := by
          rw [ht, Places.mem_toList_ofList hlen, hgranting]
        refine ⟨hret, ?_, ?_, fun r => ?_, fun k => ?_⟩
        · obtain ⟨g, hg⟩ := List.exists_mem_of_ne_nil _ hne
          exact ⟨g, (hmem g).mp hg⟩
        · simpa using Keyed.nodup_firsts id [] (t.toList.map (·.userRoleId))
        · rw [mem_firsts_id, List.mem_map]
          simp only [hmem]
        · rw [testBit_foldl_innerIds]
          simp [hmem]
  · rw [if_pos hret]
    refine ⟨by decide, Set.eq_empty_of_forall_notMem fun g hg => ?_⟩
    obtain ⟨hg, hreports, -⟩ := hg
    obtain ⟨i, hinner⟩ := h.exists_place hg
    have hsuccess := ((reports_iff h htake hfinds hg hinner).mpr hreports).1
    apply hret
    unfold mscmLdapAuthenticate
    simp only [hsuccess, if_true]

/-- A search of a directory that is exact finds the groups that contain the user. -/
theorem finds_of_outcome {server : Server Dn} {info : LdapAuthInfo} {dir : Directory Dn}
    {user : Dn}
    (h : Outcome (Member dir user (server.groupdn info))
      (server.search info (server.groupdn info) noGroups)) :
  server.Finds info { d | Contains dir user d }
  := by
  have hmember (i : Fin 5) : Member dir user (server.groupdn info) i
      ↔ ∃ d ∈ { d | Contains dir user d }, server.groupdn info i = some d :=
    exists_congr fun _ => and_comm
  constructor
  · intro i
    rw [← hmember]
    constructor
    · intro hne
      by_contra hnot
      exact hne (h.unmarked i hnot)
    · intro hi heq
      exact noGroups_ne i (heq.symm.trans (h.marked i hi))
  · rintro ⟨i, hi⟩
    exact h.success ⟨i, (hmember i).mpr hi⟩

/-! ### Two groups with a gap -/

/-- A directory with one group, which has the user. -/
def opsDirectory : Directory String where
  member g := if g = "CN=ops" then some ["CN=user"] else none
  memberOf x := if x = "CN=user" then ["CN=ops"] else []
  groups := {"CN=ops"}
  mem_groups g := by
    by_cases hg : g = "CN=ops" <;> simp [hg]
  providesMemberOf := true
  memberOf_eq_nil h := by cases h
  mem_memberOf _ x g := by
    by_cases hx : x = "CN=user"
    · by_cases hg : g = "CN=ops" <;> simp [hx, hg]
    · by_cases hg : g = "CN=ops" <;> simp [hx, hg]

/-- The user. -/
def opsUser : UserDn String := ⟨"CN=user", "CN=user"⟩

/-- The server of that directory. -/
def opsServer : Server String where
  groupDn _ g := ("CN=" ++ g.groupName, true)
  bind info := info.username = "user"
  search _ groupdn group := doGetUserGroup opsDirectory opsUser groupdn group

/-- Two groups of the first controller, with the inner identifiers `2` and `5`. -/
def gapGroups : RemoteGroups :=
  fun id =>
    if id = 1 then some ⟨.ldap, 1, 5, "ops", "", 4, 4, 0, 1⟩
    else if id = 2 then some ⟨.ldap, 1, 2, "guests", "", 2, 2, 0, 1⟩
    else none

theorem authenticate_exact_gap :
  gapGroups.Configured 1 ∧
    ∃ info ret, authInfo gapGroups 1 "example" "user" "secret" = some info ∧
      authenticate opsServer gapGroups (fun _ _ => true) 1 "example" "user" "secret"
        (some "192.168.1.2") (some 1) = some ret ∧
      ret.Exact (Granting opsServer gapGroups (fun _ _ => true) info
        { d | Contains opsDirectory "CN=user" d } (some "192.168.1.2") (some 1))
  := by
  have h : gapGroups.Configured 1 := ⟨by decide, by decide⟩
  have hM (info : LdapAuthInfo)
      (hinfo : info ∈ authInfo gapGroups 1 "example" "user" "secret") :
      opsServer.Finds info { d | Contains opsDirectory "CN=user" d } := by
    have hmember : ∃ i, Member opsDirectory "CN=user" (opsServer.groupdn info) i := by
      cases hinfo
      exact ⟨4, "CN=ops", rfl, .direct (by decide)⟩
    have hcard : opsDirectory.groups.card < 50 := by decide
    have houtcome : Outcome (Member opsDirectory opsUser.entry (opsServer.groupdn info))
        (doGetUserGroup opsDirectory opsUser (opsServer.groupdn info) noGroups) :=
      doGetUserGroup_of_member hcard rfl hmember
    exact finds_of_outcome houtcome
  exact ⟨h, authenticate_exact opsServer gapGroups (fun _ _ => true) 1 h "example" "user" "secret"
    _ hM (some "192.168.1.2") (some 1)⟩

example :
  authenticate opsServer gapGroups (fun _ _ => true) 1 "example" "user" "secret"
    (some "192.168.1.2") (some 1) = some (.groups 0 4 [4] 32)
  := by rfl

end Ldap

end BmcAccount
