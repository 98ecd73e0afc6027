import BmcAccount.Linux.Edits
import BmcAccount.Lib.Roster

/-!
# The members of groups

An account belongs to the group of its role. `flush_account` makes the users of the system
members of their groups, moves each account to the group of its role, and takes users that are
no longer accounts out of the groups of all roles. A user is taken out of a list of members as
many times as there are roles with this group, so once of most groups.

`groupFile_flushAccount` says that on each group this is `Roster.settle`.
-/

namespace BmcAccount

namespace Linux

open Keyed Roster

/-! ## Changes of members -/

/-- One file is another with the members of each group changed. -/
structure Effect (f f' : LinuxFile groupFile) (T : String → List String → List String) :
    Prop where
  lines : f'.lines = f.lines
  isDirty : f.datas.isDirty = true → f'.datas.isDirty = true
  same : f'.datas.isDirty = false → f' = f
  names : f'.datas.entries.map groupFile.dataKey = f.datas.entries.map groupFile.dataKey
  get : ∀ k, f'.get k = (f.get k).map fun e => { e with users := T k e.users }

namespace Effect

variable {f f' f'' : LinuxFile groupFile} {T T' : String → List String → List String}

theorem refl (f : LinuxFile groupFile) :
  Effect f f fun _ users => users
  where
  lines := rfl
  isDirty h := h
  same _ := rfl
  names := rfl
  get k := by simp

theorem trans (h : Effect f f' T) (h' : Effect f' f'' T') :
  Effect f f'' fun k users => T' k (T k users)
  where
  lines := h'.lines.trans h.lines
  isDirty hd := h'.isDirty (h.isDirty hd)
  same hd := by
    have heq := h'.same hd
    rw [heq] at hd ⊢
    exact h.same hd
  names := h'.names.trans h.names
  get k := by
    rw [h'.get, h.get, Option.map_map]
    rfl

/-- The groups are the same. -/
theorem isSome_get (h : Effect f f' T) (k : String) :
  (f'.get k).isSome = (f.get k).isSome
  := by
  rw [h.get, Option.isSome_map]

/-- Effects of a loop, which may rely on some groups. -/
theorem foldl {β : Type} {step : LinuxFile groupFile → β → LinuxFile groupFile}
    {T : β → String → List String → List String} {P : β → String → Prop} {bs : List β}
    (hstep : ∀ b ∈ bs, ∀ f : LinuxFile groupFile,
      (∀ k, P b k → (f.get k).isSome = true) → Effect f (step f b) (T b))
    {f : LinuxFile groupFile} (hget : ∀ b ∈ bs, ∀ k, P b k → (f.get k).isSome = true) :
  Effect f (bs.foldl step f) fun k users => bs.foldl (fun users b => T b k users) users
  := by
  induction bs generalizing f with
  | nil => exact refl f
  | cons b bs ih =>
    have hhead := hstep b List.mem_cons_self f (hget b List.mem_cons_self)
    have hget' : ∀ b' ∈ bs, ∀ k, P b' k → ((step f b).get k).isSome = true := by
      intro b' hb' k hk
      rw [hhead.isSome_get]
      exact hget b' (List.mem_cons_of_mem _ hb') k hk
    exact hhead.trans (ih (fun b' hb' => hstep b' (List.mem_cons_of_mem _ hb')) hget')

/-- The entries are the same if the members are. -/
theorem entries_eq (h : Effect f f' T)
    (hT : ∀ k e, f.get k = some e → T k e.users = e.users) :
  f'.datas.entries = f.datas.entries
  := by
  apply Book.entries_eq_of_get h.names
  intro k
  rw [show f'.datas.get k = _ from h.get k]
  cases he : f.get k with
  | none => exact he.symm
  | some e =>
    rw [Option.map_some, hT k e he]
    exact he.symm

end Effect

namespace LinuxFile

variable (f : LinuxFile groupFile)

theorem effect_setUsers (g : String) (T : List String → List String) :
  Effect f (f.setUsers g T) fun k users => if k = g then T users else users
  where
  lines := rfl
  isDirty _ := rfl
  same hd := absurd hd (by simp [setUsers, Book.modify])
  names := f.datas.keys_modify g (fun e => { e with users := T e.users }) fun _ => rfl
  get k := by
    have hget : (f.setUsers g T).get k = (f.datas.get k).map fun e =>
        if groupFile.dataKey e = g then { e with users := T e.users } else e :=
      f.datas.get_modify g k (fun e => { e with users := T e.users }) fun _ => rfl
    rw [hget]
    cases he : f.datas.get k with
    | none =>
      rw [show f.get k = none from he]
      rfl
    | some e =>
      have hkey : groupFile.dataKey e = k := (Book.get_eq_some.mp he).2
      rw [show f.get k = some e from he, Option.map_some, Option.map_some, hkey]
      split <;> rfl

/-- An effect that does nothing on the members that are there. -/
theorem effect_of_eq {T : String → List String → List String}
    (hT : ∀ k e, f.get k = some e → T k e.users = e.users) :
  Effect f f T
  where
  lines := rfl
  isDirty h := h
  same _ := rfl
  names := rfl
  get k := by
    cases he : f.get k with
    | none => rfl
    | some e => rw [Option.map_some, hT k e he]

theorem effect_removeUser (u g : String) :
  Effect f (f.removeUser u g) fun k users => if k = g then users.erase u else users
  := by
  unfold removeUser
  cases hg : f.get g with
  | none =>
    apply effect_of_eq
    intro k e he
    split
    case isTrue hk => simp [hk, hg] at he
    case isFalse => rfl
  | some group =>
    simp only
    split
    case isTrue => exact f.effect_setUsers g _
    case isFalse hu =>
      apply effect_of_eq
      intro k e he
      split
      case isTrue hk =>
        obtain rfl : group = e := by simpa [hk, hg] using he
        exact List.erase_of_not_mem hu
      case isFalse => rfl

theorem effect_insertUser (u g : String) :
  Effect f (f.insertUser u g) fun k users => if k = g then join users u else users
  := by
  unfold insertUser
  cases hg : f.get g with
  | none =>
    apply effect_of_eq
    intro k e he
    split
    case isTrue hk => simp [hk, hg] at he
    case isFalse => rfl
  | some group =>
    simp only
    split
    case isTrue hu =>
      apply effect_of_eq
      intro k e he
      split
      case isTrue hk =>
        obtain rfl : group = e := by simpa [hk, hg] using he
        exact if_pos hu
      case isFalse => rfl
    case isFalse hu =>
      have hset := f.effect_setUsers g (· ++ [u])
      refine { hset with get := ?_ }
      intro k
      rw [hset.get]
      cases he : f.get k with
      | none => rfl
      | some e =>
        rw [Option.map_some, Option.map_some]
        by_cases hk : k = g
        · obtain rfl : group = e := by simpa [hk, hg] using he
          simp only [hk, if_true, join, if_neg hu]
        · simp only [hk, if_false]

/-- A user leaves the groups of all roles. -/
def leave (roleGroups : List RoleGroup) (f : LinuxFile groupFile) (u : String) :
    LinuxFile groupFile :=
  roleGroups.foldl (fun f g => f.removeUser u g.name) f

/-- How many roles have a group. -/
def times (roleGroups : List RoleGroup) (k : String) : ℕ :=
  roleGroups.countP (·.name = k)

theorem effect_leave (roleGroups : List RoleGroup) (u : String) :
  Effect f (leave roleGroups f u) fun k users => eraseTimes (times roleGroups k) u users
  := by
  have hnone : ∀ g ∈ roleGroups, ∀ k, False → (f.get k).isSome = true :=
    fun _ _ _ h => h.elim
  have hfold := Effect.foldl
    (fun (g : RoleGroup) (_ : g ∈ roleGroups) f _ => f.effect_removeUser u g.name) hnone
  refine { hfold with get := ?_ }
  intro k
  rw [show (leave roleGroups f u).get k = _ from hfold.get k]
  congr 1
  funext e
  congr 1
  generalize e.users = users
  clear hfold hnone
  induction roleGroups generalizing users with
  | nil => rfl
  | cons g gs ih =>
    rw [List.foldl_cons, ih]
    by_cases hg : k = g.name
    · have htimes : times (g :: gs) k = times gs k + 1 :=
        List.countP_cons_of_pos (by simpa using hg.symm)
      rw [if_pos hg, htimes, eraseTimes_succ]
    · have htimes : times (g :: gs) k = times gs k :=
        List.countP_cons_of_neg (by simpa [eq_comm] using hg)
      rw [if_neg hg, htimes]

theorem createGroup_of_some {g : String} (gid : ℕ) (h : (f.get g).isSome = true) :
  f.createGroup g gid = f
  := by
  obtain ⟨e, he⟩ := Option.isSome_iff_exists.mp h
  have hget : f.datas.get (groupFile.dataKey ⟨g, .num gid, []⟩) = some e := he
  unfold createGroup addItem edit
  simp only [Book.edit, Book.put, hget, if_true]

/-- `GroupFile:add_user`, when the roles do not have another name for the group. -/
theorem addUser_eq {u g : String} {gid : ℕ} {base : Option String} (hbase : base.getD g = g) :
  f.addUser u gid g base = (f.createGroup g gid).insertUser u g
  := by
  unfold addUser
  cases hg : f.get g with
  | none => simp only [hbase]
  | some e => rw [f.createGroup_of_some gid (Option.isSome_of_eq_some hg)]

theorem effect_addUser {u g : String} {gid : ℕ} {base : Option String} (hbase : base.getD g = g)
    (hg : (f.get g).isSome = true) :
  Effect f (f.addUser u gid g base) fun k users => if k = g then join users u else users
  := by
  rw [f.addUser_eq hbase, f.createGroup_of_some gid hg]
  exact f.effect_insertUser u g

theorem get_createGroup (g : String) (gid : ℕ) (k : String) :
  (f.createGroup g gid).get k = (f.get k).or (if k = g then some ⟨g, .num gid, []⟩ else none)
  := by
  cases hg : f.get g with
  | some e =>
    rw [f.createGroup_of_some gid (Option.isSome_of_eq_some hg)]
    by_cases hk : k = g
    · rw [hk, hg]
      rfl
    · rw [if_neg hk, Option.or_none]
  | none =>
    have hget : f.datas.get (groupFile.dataKey ⟨g, .num gid, []⟩) = none := hg
    have hput : (f.createGroup g gid).datas = f.datas.append ⟨g, .num gid, []⟩ := by
      unfold createGroup addItem edit
      simp only [Book.edit, Book.put, hget]
    rw [show (f.createGroup g gid).get k = (f.createGroup g gid).datas.get k from rfl, hput,
      Book.get_append]
    by_cases hk : k = g
    · rw [hk, hg]
      simp [groupFile]
    · rw [if_neg (show ¬ k = groupFile.dataKey ⟨g, .num gid, []⟩ from hk), if_neg hk,
        Option.or_none]
      rfl

/-- The members of a group, none if there is no such group. -/
def users (k : String) : List String :=
  ((f.get k).map GroupEntry.users).getD []

theorem users_of_get {k : String} {e : GroupEntry} (h : f.get k = some e) :
  f.users k = e.users
  := by
  rw [users, h]
  rfl

end LinuxFile

theorem Effect.users_eq {f f' : LinuxFile groupFile} {T : String → List String → List String}
    (h : Effect f f' T) {k : String} (hk : (f.get k).isSome = true) :
  f'.users k = T k (f.users k)
  := by
  obtain ⟨e, he⟩ := Option.isSome_iff_exists.mp hk
  rw [f.users_of_get he, LinuxFile.users, h.get, he]
  rfl

/-! ## Creating groups -/

/-- Groups are created, and the members of each group are changed. -/
structure Joins (f f' : LinuxFile groupFile) (T : String → List String → List String) :
    Prop where
  lines : f'.lines = f.lines
  isDirty : f.datas.isDirty = true → f'.datas.isDirty = true
  isSome : ∀ k, (f.get k).isSome = true → (f'.get k).isSome = true
  users : ∀ k, f'.users k = T k (f.users k)

namespace Joins

variable {f f' f'' : LinuxFile groupFile} {T T' : String → List String → List String}

theorem trans (h : Joins f f' T) (h' : Joins f' f'' T') :
  Joins f f'' fun k users => T' k (T k users)
  where
  lines := h'.lines.trans h.lines
  isDirty hd := h'.isDirty (h.isDirty hd)
  isSome k hk := h'.isSome k (h.isSome k hk)
  users k := by rw [h'.users, h.users]

theorem foldl {β : Type} {step : LinuxFile groupFile → β → LinuxFile groupFile}
    {T : β → String → List String → List String} {bs : List β}
    (hstep : ∀ b ∈ bs, ∀ f, Joins f (step f b) (T b)) (f : LinuxFile groupFile) :
  Joins f (bs.foldl step f) fun k users => bs.foldl (fun users b => T b k users) users
  := by
  induction bs generalizing f with
  | nil =>
    exact {
      lines := rfl
      isDirty := id
      isSome := fun _ hk => hk
      users := fun _ => rfl }
  | cons b bs ih =>
    have htail := ih (fun b' hb' => hstep b' (List.mem_cons_of_mem _ hb')) (step f b)
    exact (hstep b List.mem_cons_self f).trans htail

/-- The group that a step of a loop creates is there after the loop. -/
theorem isSome_foldl {β : Type} {step : LinuxFile groupFile → β → LinuxFile groupFile}
    {T : β → String → List String → List String} {bs : List β}
    (hstep : ∀ b ∈ bs, ∀ f, Joins f (step f b) (T b)) {name : β → String}
    (hname : ∀ b ∈ bs, ∀ f, ((step f b).get (name b)).isSome = true) (f : LinuxFile groupFile)
    {b : β} (hb : b ∈ bs) :
  ((bs.foldl step f).get (name b)).isSome = true
  := by
  induction bs generalizing f with
  | nil => exact absurd hb List.not_mem_nil
  | cons b' bs ih =>
    have hstep' : ∀ b ∈ bs, ∀ f, Joins f (step f b) (T b) :=
      fun b hb => hstep b (List.mem_cons_of_mem _ hb)
    rw [List.foldl_cons]
    rcases List.mem_cons.mp hb with rfl | hb
    · exact (foldl hstep' (step f b)).isSome _ (hname b List.mem_cons_self f)
    · exact ih hstep' (fun b hb => hname b (List.mem_cons_of_mem _ hb)) (step f b') hb

theorem createGroup (f : LinuxFile groupFile) (g : String) (gid : ℕ) :
  Joins f (f.createGroup g gid) fun _ users => users
  where
  lines := rfl
  isDirty hd := (Book.edit_isDirty _).mpr (Or.inl hd)
  isSome k hk := by
    rw [f.get_createGroup, Option.isSome_or, hk, Bool.true_or]
  users k := by
    unfold LinuxFile.users
    rw [f.get_createGroup]
    cases f.get k with
    | some e => rfl
    | none => split <;> rfl

end Joins

namespace LinuxFile

variable (f : LinuxFile groupFile)

theorem isSome_createGroup (g : String) (gid : ℕ) :
  ((f.createGroup g gid).get g).isSome = true
  := by
  rw [f.get_createGroup, if_pos rfl, Option.isSome_or, Option.isSome_some, Bool.or_true]

theorem isSome_addUser {u g : String} (gid : ℕ) {base : Option String}
    (hbase : base.getD g = g) :
  ((f.addUser u gid g base).get g).isSome = true
  := by
  rw [f.addUser_eq hbase, ((f.createGroup g gid).effect_insertUser u g).isSome_get,
    f.isSome_createGroup]

theorem joins_addUser {u g : String} (gid : ℕ) {base : Option String} (hbase : base.getD g = g) :
  Joins f (f.addUser u gid g base) fun k users => if k = g then join users u else users
  := by
  rw [f.addUser_eq hbase]
  have hinsert := (f.createGroup g gid).effect_insertUser u g
  have hsome := f.isSome_createGroup g gid
  apply (Joins.createGroup f g gid).trans
  exact {
    lines := hinsert.lines
    isDirty := hinsert.isDirty
    isSome := fun k hk => by rw [hinsert.isSome_get, hk]
    users := fun k => by
      by_cases hk : k = g
      · rw [hk, hinsert.users_eq hsome]
      · rw [if_neg hk]
        unfold users
        rw [hinsert.get]
        simp [hk] }

end LinuxFile

/-- The users of the system with the groups that each of them has. -/
def appMembers : List (String × ℕ) :=
  appUsers.flatMap fun u => u.gids.map fun gid => (u.name, gid)

/-- The users of the system in a group. -/
def appsOf (k : String) : List String :=
  (appMembers.filter fun p => appGidName p.2 = k).map Prod.fst

/-- The groups of the roles and of the system's users. -/
def baseGroups : List String :=
  roleGroupMap.map RoleGroup.name ++ "apps" :: appMembers.map fun p => appGidName p.2

/-- A group of the system's users has the same name for the roles. -/
theorem baseGroupName_appGidName {p : String × ℕ} (hp : p ∈ appMembers) :
  (baseGroupName p.2).getD (appGidName p.2) = appGidName p.2
  := by
  revert p
  decide

theorem baseGroupName_of_mem {g : RoleGroup} (hg : g ∈ roleGroupMap) :
  (baseGroupName g.gid).getD g.name = g.name
  := by
  revert g
  decide

theorem mem_roleGroupMap_of_roleGroup {role : ℕ} {g : RoleGroup} (h : roleGroup role = some g) :
  g ∈ roleGroupMap
  :=
  List.mem_of_find?_eq_some h

namespace LinuxFile

variable (pairs : Pairs) (f : LinuxFile groupFile)

/-- A user of the system joins a group. -/
def addAppMember (f : LinuxFile groupFile) (p : String × ℕ) : LinuxFile groupFile :=
  f.addUser p.1 p.2 (appGidName p.2) (baseGroupName p.2)

theorem joins_addAppMember {p : String × ℕ} (hp : p ∈ appMembers) (f : LinuxFile groupFile) :
  Joins f (f.addAppMember p) fun k users => if k = appGidName p.2 then join users p.1 else users
  :=
  f.joins_addUser p.2 (baseGroupName_appGidName hp)

theorem isSome_addAppMember {p : String × ℕ} (hp : p ∈ appMembers) (f : LinuxFile groupFile) :
  ((f.addAppMember p).get (appGidName p.2)).isSome = true
  :=
  f.isSome_addUser p.2 (baseGroupName_appGidName hp)

theorem effect_addAppMember {p : String × ℕ} (hp : p ∈ appMembers) (f : LinuxFile groupFile)
    (hget : (f.get (appGidName p.2)).isSome = true) :
  Effect f (f.addAppMember p) fun k users => if k = appGidName p.2 then join users p.1 else users
  :=
  f.effect_addUser (baseGroupName_appGidName hp) hget

/-- The part of `LinuxUserMgr:ensure_system_base_user_exists` for groups. -/
def ensureGroups : LinuxFile groupFile :=
  appMembers.foldl addAppMember
    ((pairs.roleGroups.foldl (fun f g => f.createGroup g.name g.gid) f).createGroup "apps" 103)

theorem foldl_join_appMembers (ps : List (String × ℕ)) (k : String) (users : List String) :
  ps.foldl (fun users p => if k = appGidName p.2 then join users p.1 else users) users
    = joinAll ((ps.filter fun p => appGidName p.2 = k).map Prod.fst) users
  := by
  induction ps generalizing users with
  | nil => rfl
  | cons p ps ih =>
    rw [List.foldl_cons, ih]
    by_cases hk : k = appGidName p.2
    · rw [if_pos hk, List.filter_cons_of_pos (by simpa using hk.symm)]
      rfl
    · rw [if_neg hk, List.filter_cons_of_neg (by simpa [eq_comm] using hk)]

theorem joins_ensureGroups :
  Joins f (ensureGroups pairs f) fun k users => joinAll (appsOf k) users
  := by
  have hroles := Joins.foldl
    (fun (g : RoleGroup) (_ : g ∈ pairs.roleGroups) f => Joins.createGroup f g.name g.gid) f
  have happs := Joins.createGroup (pairs.roleGroups.foldl (fun f g => f.createGroup g.name g.gid) f)
    "apps" 103
  have husers := Joins.foldl (fun p hp f => joins_addAppMember hp f)
    ((pairs.roleGroups.foldl (fun f g => f.createGroup g.name g.gid) f).createGroup "apps" 103)
  have hall := (hroles.trans happs).trans husers
  unfold ensureGroups
  refine { hall with users := ?_ }
  intro k
  have hid : ∀ (gs : List RoleGroup) (us : List String), gs.foldl (fun us _ => us) us = us := by
    intro gs us
    induction gs with
    | nil => rfl
    | cons g gs ih => exact ih
  rw [hall.users, hid, foldl_join_appMembers]
  rfl

theorem isSome_ensureGroups {k : String} (hk : k ∈ baseGroups) :
  ((ensureGroups pairs f).get k).isSome = true
  := by
  have hkept := Joins.foldl fun p hp f => joins_addAppMember hp f
  rcases List.mem_append.mp hk with hk | hk
  · obtain ⟨g, hg, rfl⟩ := List.mem_map.mp hk
    have hcreated := Joins.isSome_foldl
      (fun (g : RoleGroup) (_ : g ∈ pairs.roleGroups) f => Joins.createGroup f g.name g.gid)
      (fun g _ f => f.isSome_createGroup g.name g.gid) f (pairs.roleGroups_perm.mem_iff.mpr hg)
    exact (hkept _).isSome _ ((Joins.createGroup _ "apps" 103).isSome _ hcreated)
  · rcases List.mem_cons.mp hk with rfl | hk
    · exact (hkept _).isSome _ (isSome_createGroup _ "apps" 103)
    · obtain ⟨p, hp, rfl⟩ := List.mem_map.mp hk
      exact Joins.isSome_foldl (fun p hp f => joins_addAppMember hp f)
        (fun p hp f => isSome_addAppMember hp f) _ hp

/-- Nothing is created if all groups are there. -/
theorem effect_ensureGroups (h : ∀ k ∈ baseGroups, (f.get k).isSome = true) :
  Effect f (ensureGroups pairs f) fun k users => joinAll (appsOf k) users
  := by
  have hroles : pairs.roleGroups.foldl (fun f g => f.createGroup g.name g.gid) f = f := by
    have hmem : ∀ g ∈ pairs.roleGroups, (f.get g.name).isSome = true := by
      intro g hg
      apply h
      exact List.mem_append_left _ (List.mem_map_of_mem (pairs.roleGroups_perm.mem_iff.mp hg))
    generalize pairs.roleGroups = gs at hmem
    induction gs with
    | nil => rfl
    | cons g gs ih =>
      rw [List.foldl_cons, f.createGroup_of_some g.gid (hmem g List.mem_cons_self)]
      exact ih fun g hg => hmem g (List.mem_cons_of_mem _ hg)
  have happs : f.createGroup "apps" 103 = f :=
    f.createGroup_of_some 103 (h _ (List.mem_append_right _ List.mem_cons_self))
  have hthere : ∀ p ∈ appMembers, ∀ k, appGidName p.2 = k → (f.get k).isSome = true := by
    rintro p hp k rfl
    apply h
    exact List.mem_append_right _ (List.mem_cons_of_mem _ (List.mem_map_of_mem hp))
  have hall := Effect.foldl (fun p hp f hf => effect_addAppMember hp f (hf _ rfl)) hthere
  unfold ensureGroups
  rw [hroles, happs]
  refine { hall with get := ?_ }
  intro k
  rw [hall.get]
  congr 1
  funext e
  rw [foldl_join_appMembers]
  rfl

/-- An account moves to the group of its role. -/
def moveAccount (roleGroups : List RoleGroup) (f : LinuxFile groupFile)
    (p : AccountLine × RoleGroup) : LinuxFile groupFile :=
  (leave roleGroups f p.1.userName).addUser p.1.userName p.2.gid p.2.name
    (baseGroupName p.2.gid)

variable {f} {p : AccountLine × RoleGroup}

theorem effect_moveAccount (roleGroups : List RoleGroup) (hp : p.2 ∈ roleGroupMap)
    (hget : (f.get p.2.name).isSome = true) :
  Effect f (moveAccount roleGroups f p) fun k users =>
    moveMember (times roleGroups k) users (p.1.userName, k = p.2.name)
  := by
  have hleave := f.effect_leave roleGroups p.1.userName
  have hadd := @effect_addUser (leave roleGroups f p.1.userName) p.1.userName p.2.name p.2.gid _
    (baseGroupName_of_mem hp) (by rw [hleave.isSome_get, hget])
  have hall := hleave.trans hadd
  refine { hall with get := ?_ }
  intro k
  rw [show (moveAccount roleGroups f p).get k = _ from hall.get k]
  simp only [moveMember, decide_eq_true_eq]

/-- The file is changed when an account moves, even if it comes back to the same group. -/
theorem isDirty_moveAccount {roleGroups : List RoleGroup} (hp : p.2 ∈ roleGroupMap)
    (htimes : times roleGroups p.2.name ≠ 0) (hget : (f.get p.2.name).isSome = true) :
  (moveAccount roleGroups f p).datas.isDirty = true
  := by
  have hleave := f.effect_leave roleGroups p.1.userName
  have hsome : ((leave roleGroups f p.1.userName).get p.2.name).isSome = true := by
    rw [hleave.isSome_get, hget]
  have hadd := @effect_addUser (leave roleGroups f p.1.userName) p.1.userName p.2.name p.2.gid _
    (baseGroupName_of_mem hp) hsome
  by_contra hd
  rw [Bool.not_eq_true] at hd
  have hsame := hadd.same hd
  have hclean : (leave roleGroups f p.1.userName).datas.isDirty = false := by
    rw [← hsame]
    exact hd
  have hin : p.1.userName ∈ (leave roleGroups f p.1.userName).users p.2.name := by
    rw [← hsame, hadd.users_eq hsome, if_pos rfl]
    exact mem_join.mpr (Or.inr rfl)
  have hcount := congrArg (List.count p.1.userName) (hleave.users_eq hget)
  rw [count_eraseTimes, if_pos rfl, hleave.same hclean] at hcount
  rw [hleave.same hclean, ← List.count_pos_iff] at hin
  omega

end LinuxFile

/-! ## The groups after a flush -/

namespace LinuxUserMgr

variable {la : LinuxUserMgr} {pairs : Pairs}

theorem ensureSystemBaseUserExists_groupFile (la : LinuxUserMgr) :
  (la.ensureSystemBaseUserExists pairs).groupFile = la.groupFile.ensureGroups pairs
  := by
  have hfold : ∀ (us : List AppUser) (la : LinuxUserMgr),
      (us.foldl ensureAppUser la).groupFile
        = (us.flatMap fun u => u.gids.map fun gid => (u.name, gid)).foldl
          LinuxFile.addAppMember la.groupFile := by
    intro us
    induction us with
    | nil => exact fun la => rfl
    | cons u us ih =>
      intro la
      rw [List.foldl_cons, ih, List.flatMap_cons, List.foldl_append, List.foldl_map]
      rfl
  exact hfold appUsers _

theorem removeAll_groupFile (names : List String) :
  (la.removeAll pairs names).groupFile
    = names.foldl (LinuxFile.leave pairs.roleGroups) la.groupFile
  := by
  induction names generalizing la with
  | nil => rfl
  | cons name names ih => exact ih

theorem foldlM_updateUser_groupFile (shell : String) {accounts : List AccountLine}
    {ls : List (AccountLine × RoleGroup)} (hls : accounts.mapM World.withGroup = some ls)
    {la' : LinuxUserMgr}
    (h : accounts.foldlM (fun (la : LinuxUserMgr) account => la.updateUser shell pairs false account)
      la = some la') :
  la'.groupFile = ls.foldl (LinuxFile.moveAccount pairs.roleGroups) la.groupFile
  := by
  induction accounts generalizing la ls with
  | nil =>
    obtain rfl : [] = ls := by simpa using hls
    obtain rfl : la = la' := by simpa using h
    rfl
  | cons account accounts ih =>
    rw [List.mapM_cons] at hls
    simp only [World.withGroup, Option.bind_eq_bind, Option.bind_eq_some_iff,
      Option.map_eq_some_iff, Option.pure_def, Option.some.injEq] at hls
    obtain ⟨p, ⟨g, hg, rfl⟩, ls', hls', rfl⟩ := hls
    rw [List.foldlM_cons] at h
    have hupdate : ∃ la₁, la.updateUser shell pairs false account = some la₁
        ∧ la₁.groupFile = la.groupFile.moveAccount pairs.roleGroups (account, g) := by
      unfold updateUser addUser
      rw [hg]
      exact ⟨_, rfl, rfl⟩
    obtain ⟨la₁, hla₁, hgroup⟩ := hupdate
    rw [hla₁] at h
    rw [ih hls' h, hgroup, List.foldl_cons]

end LinuxUserMgr

namespace World

variable (w : World)

theorem nodup_removed (la : LinuxUserMgr) :
  (w.stalePasswd la ++ w.staleIpmi (w.cleanPasswd la)).Nodup
  := by
  rw [List.nodup_append]
  refine ⟨?_, ?_, ?_⟩
  · exact ((w.pairs.visit_perm _).nodup_iff.mpr la.passwdFile.datas.nodup).filter _
  · exact ((w.pairs.visit_perm _).nodup_iff.mpr (w.cleanPasswd la).ipmiFile.datas.nodup).filter _
  · rintro k hk k' hk' rfl
    have hmem := (w.mem_staleIpmi.mp hk').2
    rw [cleanPasswd_eq, LinuxUserMgr.removeAll_ipmiFile] at hmem
    have hnone : (la.ipmiFile.run ((w.stalePasswd la).map .delete)).datas.get k = none := by
      rw [LinuxFile.run, Book.get_run_deletes, if_pos hk]
    exact Book.get_eq_none.mp hnone hmem

/-- The groups after a flush. -/
theorem groupFile_flushAccount {files : Files} {ls : List (AccountLine × RoleGroup)}
    (hls : w.flushed.mapM withGroup = some ls) {la : LinuxUserMgr}
    (h : w.flushAccount files = some la) :
  ∃ gone : List String, gone.Perm (w.stale files).dedup ∧ la.groupFile
    = (gone.foldl (LinuxFile.leave w.pairs.roleGroups)
        (ls.foldl (LinuxFile.moveAccount w.pairs.roleGroups)
          ((LinuxFile.load groupFile files.group).ensureGroups w.pairs))).save
  := by
  have hupdates := foldlM_updateUser w.shell w.pairs w.flushed
    ((LinuxUserMgr.new files).ensureSystemBaseUserExists w.pairs)
  rw [hls] at hupdates
  obtain ⟨la₁, hla₁, hp, -, hi⟩ := hupdates
  have hg := LinuxUserMgr.foldlM_updateUser_groupFile w.shell hls hla₁
  obtain ⟨hp₀, -, hi₀⟩ := ensureSystemBaseUserExists_files w.pairs (LinuxUserMgr.new files)
  rw [hp₀, ← LinuxFile.run_append] at hp
  rw [hi₀] at hi
  have hstale := w.mem_stale_append (map_fst_of_mapM hls) hp hi
  refine ⟨w.stalePasswd la₁ ++ w.staleIpmi (w.cleanPasswd la₁), ?_, ?_⟩
  · rw [List.perm_ext_iff_of_nodup (w.nodup_removed la₁) (List.nodup_dedup _)]
    intro k
    rw [List.mem_dedup]
    exact hstale k
  · have hclean : w.cleanIpmi (w.cleanPasswd la₁)
        = la₁.removeAll w.pairs (w.stalePasswd la₁ ++ w.staleIpmi (w.cleanPasswd la₁)) := by
      rw [cleanIpmi_eq, LinuxUserMgr.removeAll_append, ← cleanPasswd_eq]
    simp only [flushAccount] at h
    rw [hla₁, Option.map_some, Option.some.injEq, hclean] at h
    rw [← h, LinuxUserMgr.save, LinuxUserMgr.removeAll_groupFile, hg,
      LinuxUserMgr.ensureSystemBaseUserExists_groupFile]
    rfl

end World

end Linux

end BmcAccount
