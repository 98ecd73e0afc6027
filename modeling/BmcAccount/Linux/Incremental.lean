import BmcAccount.Linux.Held

/-!
# Files that are kept up to date

Files hold lines of accounts (`Holds`) if each of the four has exactly what it should have of them,
besides what it has of foreign names. The handlers of the signals and the flushes keep this, in
whatever order they run (`Holds.run`), if no name is taken from somebody else and a user is removed
with the role that is known of them.

They run one after another, since they all go through the queue of the account files. So files that
have been kept up to date line by line agree with the accounts as they do after a flush, once the
lines that have been written last are those of the accounts (`agrees_run`).
-/

namespace BmcAccount

namespace Linux

open Keyed Roster World

/-- The files hold the lines of some accounts: these are the lines of the file of IPMI users, each
of them has one line in `passwd` and one in `shadow` and is in the group of its role only, and all
other lines are of foreign names, which do not have the user identifier of an account. -/
structure Holds (foreign : String → Prop) (shell : String) (held : Held) (files : Files) : Prop where
  known : ∀ a ∈ held.entries, ¬ foreign a.userName ∧ (roleGroup a.role).isSome = true
  passwd : Tells passwdFile id PasswdUser.IsNumbered foreign files.passwd
    (held.view id (AccountLine.passwdUser shell))
  uids : ∀ l ∈ files.passwd, foreign l.name → isAccountUid (tonumber (l.getD 2 [])) = false
  shadow : Tells shadowFile ShadowUser.password (fun _ => True) foreign files.shadow
    (held.view ShadowUser.password fun a _ => a.shadowUser)
  ipmi : files.ipmi = held.ipmiLines
  group : HoldsGroups foreign held (LinuxFile.load groupFile files.group)


section After

variable {foreign : String → Prop} {w : World} {held : Held} {files : Files} {op : Op}

/-! ## Lines of accounts -/

theorem mem_append {b : Held} {a l : AccountLine} (h : l ∈ (b.append a).entries) :
  l ∈ b.entries ∨ l = a
  := by
  rcases List.mem_append.mp h with h | h
  · exact Or.inl (List.mem_of_mem_filter h)
  · exact Or.inr (List.mem_singleton.mp h)

theorem mem_delete {b : Held} {k : String} {l : AccountLine} (h : l ∈ (b.delete k).entries) :
  l ∈ b.entries
  := by
  unfold Book.delete at h
  split at h
  · exact List.mem_of_mem_filter h
  · exact h

/-- An account whose line is held has a name of its own and a role with a group. -/
theorem known_write (htimely : op.Timely w foreign held)
    (h : ∀ a ∈ held.entries, ¬ foreign a.userName ∧ (roleGroup a.role).isSome = true) :
  ∀ a ∈ (op.write w held).entries, ¬ foreign a.userName ∧ (roleGroup a.role).isSome = true
  := by
  have hgrouped : ∀ {id : ℕ} {p : AccountLine × RoleGroup}, Op.grouped w id = some p →
      (roleGroup p.1.role).isSome = true :=
    fun hp => Option.isSome_of_eq_some (grouped_spec hp).2
  cases op with
  | addUser id =>
    simp only [Op.write]
    cases hp : Op.grouped w id with
    | none => exact h
    | some p =>
      intro a ha
      rcases mem_append ha with ha | rfl
      · exact h a ha
      · exact ⟨(htimely p hp).1, hgrouped hp⟩
  | removeUser id =>
    simp only [Op.write]
    cases Op.grouped w id with
    | none => exact h
    | some p => exact fun a ha => h a (mem_delete ha)
  | updateUser id old =>
    simp only [Op.write]
    cases hp : Op.grouped w id with
    | none => exact h
    | some p =>
      intro a ha
      rcases mem_append ha with ha | rfl
      · cases hold : old.filter (· ≠ "") with
        | none =>
          rw [hold] at ha
          exact h a ha
        | some o =>
          rw [hold] at ha
          exact h a (mem_delete ha)
      · exact ⟨(htimely p hp).1, hgrouped hp⟩
  | flushIpmi id =>
    simp only [Op.write]
    cases hl : w.accountLine id none with
    | none => exact h
    | some l =>
      intro a ha
      rcases mem_append ha with ha | rfl
      · exact h a ha
      · obtain ⟨b, hb, -, hrole, -⟩ := htimely a hl
        obtain ⟨hmem, hname⟩ := Book.get_eq_some.mp hb
        rw [← hname, ← hrole]
        exact h b hmem
  | flushAccount =>
    simp only [Op.write]
    cases hls : w.flushed.mapM World.withGroup with
    | none => exact h
    | some ls =>
      intro a ha
      have hmem := (mem_of_mem_firsts ha).1
      obtain ⟨g, -, hg⟩ := World.exists_pair hls hmem
      exact ⟨htimely.2 _ (List.mem_map_of_mem hmem), Option.isSome_of_eq_some hg⟩

/-- A user whose line is held and who is no account any more is stale. -/
theorem mem_stale_of_held (hipmi : files.ipmi = held.ipmiLines) {k : String}
    (hheld : (held.get k).isSome = true) (hk : k ∉ w.userMap) :
  k ∈ w.stale files
  := by
  rw [World.mem_stale, hipmi, entries_load_ipmiLines, List.map_map]
  exact ⟨hk, Or.inr (Book.isSome_get.mp hheld)⟩

/-! ## User identifiers -/

/-- Foreign users do not get the user identifier of an account. -/
theorem uids_run {lines : List Line} {es : List (Edit PasswdUser String)}
    (hread : ∀ l ∈ lines, ∃ d, passwdFile.lineToData l = some d ∧ d.IsNumbered)
    (hes : ∀ d overwrite, .put d overwrite ∈ es → d.IsNumbered
      ∧ (foreign d.userName → isAccountUid d.userId = false))
    (h : ∀ l ∈ lines, foreign l.name → isAccountUid (tonumber (l.getD 2 [])) = false) :
  ∀ l ∈ ((LinuxFile.load passwdFile lines).run es).save.lines,
    foreign l.name → isAccountUid (tonumber (l.getD 2 [])) = false
  := by
  by_cases hd : Rewritten passwdFile lines es
  · rw [lines_saved_of_rewritten hd]
    intro _ hmem hforeign
    obtain ⟨d, hd, rfl⟩ := List.mem_map.mp hmem
    rw [passwdFile_named.name_line] at hforeign
    have hentry : d.IsNumbered ∧ isAccountUid d.userId = false := by
      rcases Book.mem_entries_run hd with hd | ⟨overwrite, hput⟩
      · obtain ⟨l, hl, hdata⟩ := List.mem_filterMap.mp (mem_of_mem_firsts hd).1
        obtain ⟨d', hd', hnumbered⟩ := hread l hl
        obtain rfl : d = d' := Option.some.inj (hdata.symm.trans hd')
        rw [passwdFile_named.key_data hdata] at hforeign
        rw [World.tonumber_userId hdata]
        exact ⟨hnumbered, h l hl hforeign⟩
      · exact ⟨(hes d overwrite hput).1, (hes d overwrite hput).2 hforeign⟩
    rw [← World.tonumber_userId hentry.1.read]
    exact hentry.2
  · rw [lines_saved_of_not_rewritten hd]
    exact h

/-! ## The files of IPMI users and of groups -/

/-- The account line that an update writes, whether it changes the name or not. -/
theorem updateUser_eq (id : ℕ) (old : Option String) :
  w.updateUser id old files
    = (Op.grouped w id).map fun p =>
      let la := (old.filter (· ≠ "")).elim (LinuxUserMgr.new files) fun o =>
        let la := (LinuxUserMgr.new files).deleteEntries o
        LinuxUserMgr.save { la with groupFile := la.groupFile.removeUser o p.2.name }
      LinuxUserMgr.save
        { passwdFile := la.passwdFile.addItem (p.1.passwdUser w.shell p.2) true
          shadowFile := la.shadowFile.addItem p.1.shadowUser true
          ipmiFile := la.ipmiFile.addItem p.1.ipmiUser true
          groupFile := (LinuxFile.leave w.pairs.roleGroups la.groupFile p.1.userName).addUser
            p.1.userName p.2.gid p.2.name (baseGroupName p.2.gid) }
  := by
  have hsave : ∀ la : LinuxUserMgr, la.save.save = la.save := by
    intro la
    simp only [LinuxUserMgr.save, LinuxFile.save_save]
  unfold World.updateUser Op.grouped World.accountLine
  cases ha : w.state.accounts.lookup id with
  | none => cases old.filter (· ≠ "") <;> rfl
  | some a =>
    have hrole : ∀ o, (getAccountFileLine w.state w.visible id a o).role = a.data.roleId :=
      fun _ => rfl
    cases hg : roleGroup a.data.roleId with
    | none =>
      cases old.filter (· ≠ "") <;>
        simp [World.withGroup, hrole, hg, LinuxUserMgr.updateUser, LinuxUserMgr.addUser,
          LinuxUserMgr.removeUser]
    | some g =>
      cases old.filter (· ≠ "") with
      | none =>
        simp only [Option.map_some, Option.bind_some, World.withGroup, hrole, hg,
          LinuxUserMgr.updateUser, LinuxUserMgr.addUser, LinuxUserMgr.saveIf, if_true, hsave]
        rfl
      | some o =>
        simp only [Option.map_some, Option.bind_some, World.withGroup, hrole, hg,
          LinuxUserMgr.updateUser, LinuxUserMgr.addUser, LinuxUserMgr.removeUser,
          LinuxUserMgr.saveIf, if_true, hsave]
        rfl

/-- The files after an update. -/
theorem updateUser_files {id : ℕ} {old : Option String} {p : AccountLine × RoleGroup}
    (hp : Op.grouped w id = some p) :
  ((Op.updateUser id old).result w files).ipmi
      = (((old.filter (· ≠ "")).elim (LinuxFile.load ipmiUserFile files.ipmi)
          (LinuxFile.load ipmiUserFile files.ipmi).deleteDataByKey).addItem
        p.1.ipmiUser true).save.lines
    ∧ ((Op.updateUser id old).result w files).group
      = ((LinuxFile.leave w.pairs.roleGroups
          ((old.filter (· ≠ "")).elim (LinuxFile.load groupFile files.group) fun o =>
            ((LinuxFile.load groupFile files.group).removeUser o p.2.name).save)
          p.1.userName).addUser
        p.1.userName p.2.gid p.2.name (baseGroupName p.2.gid)).save.lines
  := by
  simp only [Op.result, Op.exec, updateUser_eq, hp, Option.map_some, Option.getD_some]
  cases old.filter (· ≠ "") with
  | none => exact ⟨rfl, rfl⟩
  | some o => exact ⟨LinuxFile.save_edit_save _ _, rfl⟩

/-- The file of IPMI users after an operation. -/
theorem ipmi_after (hipmi : files.ipmi = held.ipmiLines) (htimely : op.Timely w foreign held) :
  (op.result w files).ipmi = Held.ipmiLines (op.write w held)
  := by
  have hload := ReadsIpmi.load held
  rw [← hipmi] at hload
  cases op with
  | addUser id =>
    simp only [Op.result, Op.exec, World.addUser, Op.write, Op.grouped]
    cases hl : w.accountLine id none with
    | none => exact hipmi
    | some l =>
      cases hg : roleGroup l.role with
      | none => simpa [LinuxUserMgr.addUser, World.withGroup, hg] using hipmi
      | some g =>
        simp only [Option.bind_some, LinuxUserMgr.addUser, World.withGroup, hg, Option.map_some,
          Option.getD_some, Option.elim_some]
        exact hload.lines_put l
  | removeUser id =>
    simp only [Op.result, Op.exec, World.removeUser, Op.write, Op.grouped]
    cases hl : w.accountLine id none with
    | none => exact hipmi
    | some l =>
      cases hg : roleGroup l.role with
      | none => simpa [LinuxUserMgr.removeUser, World.withGroup, hg] using hipmi
      | some g =>
        simp only [Option.bind_some, LinuxUserMgr.removeUser, World.withGroup, hg, Option.map_some,
          Option.getD_some, Option.elim_some]
        exact (hload.delete l.userName).lines_save
  | updateUser id old =>
    simp only [Op.write]
    cases hp : Op.grouped w id with
    | none => simpa [Op.result, Op.exec, updateUser_eq, hp] using hipmi
    | some p =>
      rw [(updateUser_files hp).1, Option.elim_some]
      cases old.filter (· ≠ "") with
      | none => exact hload.lines_put p.1
      | some o => exact (hload.delete o).lines_put p.1
  | flushIpmi id =>
    simp only [Op.result, Op.exec, World.flushIpmi, Op.write]
    cases hl : w.accountLine id none with
    | none => exact hipmi
    | some l => exact hload.lines_put l
  | flushAccount =>
    simp only [Op.write]
    cases hls : w.flushed.mapM World.withGroup with
    | none =>
      have hspec := w.flushAccount_spec files
      rw [hls] at hspec
      simpa [Op.result, Op.exec, hspec] using hipmi
    | some ls =>
      have hread : ∀ l ∈ files.ipmi, (ipmiLineToData l).isSome = true := by
        rw [hipmi]
        intro _ hmem
        obtain ⟨a, -, rfl⟩ := List.mem_map.mp hmem
        exact Option.isSome_of_eq_some (read_ipmiUser a)
      have hflush := World.ipmi_flush hls htimely.1 hread
      rw [show (Op.flushAccount.result w files).ipmi = _ from hflush, Option.elim_some,
        Held.ipmiLines, Book.entries_ofList_of_nodup htimely.1, World.ipmiUsers, List.map_map]
      rfl

theorem current_ensureGroups (pairs : Pairs) {f : LinuxFile groupFile} (h : Current f) :
  Current (f.ensureGroups pairs)
  := by
  have hroles : ∀ (gs : List RoleGroup) (f : LinuxFile groupFile), Current f →
      Current (gs.foldl (fun f g => f.createGroup g.name g.gid) f) := by
    intro gs
    induction gs with
    | nil => exact fun f h => h
    | cons g gs ih => exact fun f h => ih _ (h.createGroup g.name g.gid)
  have happs : ∀ (ps : List (String × ℕ)) (f : LinuxFile groupFile),
      (∀ p ∈ ps, p ∈ appMembers) → Current f → Current (ps.foldl LinuxFile.addAppMember f) := by
    intro ps
    induction ps with
    | nil => exact fun f _ h => h
    | cons p ps ih =>
      intro f hps h
      apply ih _ fun q hq => hps q (List.mem_cons_of_mem _ hq)
      exact h.addUser (baseGroupName_appGidName (hps p List.mem_cons_self))
  unfold LinuxFile.ensureGroups
  apply happs _ _ fun p hp => hp
  exact (hroles pairs.roleGroups f h).createGroup "apps" 103

/-- Somebody who is not one of those who join is as often there as before. -/
theorem count_joinAll {names users : List String} {u : String} (h : u ∉ names) :
  (joinAll names users).count u = users.count u
  := by
  obtain ⟨extra, heq, -, hextra⟩ := joinAll_eq_append names users
  have hnot : u ∉ extra := fun hu => h (hextra u hu).1
  rw [heq, List.count_append, List.count_eq_zero_of_not_mem hnot, Nat.add_zero]

/-- The groups after a flush. -/
theorem groups_flush {ls : List (AccountLine × RoleGroup)}
    (hls : w.flushed.mapM World.withGroup = some ls)
    (happs : ∀ u ∈ appUsers, foreign u.name) (hnodup : w.userMap.Nodup)
    (hipmi : files.ipmi = held.ipmiLines)
    (h : HoldsGroups foreign held (LinuxFile.load groupFile files.group)) :
  HoldsGroups foreign (Book.ofList AccountLine.userName w.flushed)
    (LinuxFile.load groupFile (w.flush files).group)
  := by
  obtain ⟨-, -, -, gone, hgone, hgroup⟩ := @World.flush_files w files ls hls
  rw [hgroup]
  apply HoldsGroups.load_save
  have hcurrent : Current (w.groupFile₁ files ls gone) :=
    (current_ensureGroups w.pairs h.current).effect (World.effect_groupFile₁ hls gone)
  refine ⟨hcurrent, ?_⟩
  intro g hg u hu
  have hnames : ((w.members g.name).map Prod.fst).Nodup := World.names_members w g.name ▸ hnodup
  have hmemgone : ∀ k, k ∈ gone ↔ k ∈ w.stale files := by
    intro k
    rw [hgone.mem_iff, List.mem_dedup]
  have hnot : ∀ p ∈ w.members g.name, p.1 ∉ gone := by
    intro p hp hmem
    refine World.not_mem_stale ?_ ((hmemgone p.1).mp hmem)
    exact World.names_members w g.name ▸ List.mem_map_of_mem hp
  have happ : u ∉ appsOf g.name := by
    intro hmem
    obtain ⟨p, hp, rfl⟩ := List.mem_map.mp hmem
    obtain ⟨a, ha, hp⟩ := List.mem_flatMap.mp (List.mem_of_mem_filter hp)
    obtain ⟨gid, -, rfl⟩ := List.mem_map.mp hp
    exact hu (happs a ha)
  have hpresent : (World.present files g.name).count u
      = if held.Belongs u g.name then 1 else 0 := by
    rw [World.present, count_joinAll happ]
    exact h.count g hg u hu
  have hnodup' : ((w.members g.name).map Prod.fst ++ gone).Nodup := by
    rw [List.nodup_append]
    refine ⟨hnames, hgone.nodup_iff.mpr (List.nodup_dedup _), ?_⟩
    rintro v hv k hk rfl
    obtain ⟨p, hp, rfl⟩ := List.mem_map.mp hv
    exact hnot p hp hk
  have hrest : u ∉ rest (roleTimes g.name) (w.members g.name) gone (World.present files g.name) := by
    have htimes := one_le_roleTimes hg
    rw [← List.count_eq_zero, rest, count_eraseAll hnodup', hpresent]
    by_cases hin : u ∈ (w.members g.name).map Prod.fst ++ gone
    · rw [if_pos hin]
      split <;> omega
    · have hout : ¬ held.Belongs u g.name := by
        intro hb
        obtain ⟨a, ha, -⟩ := Option.bind_eq_some_iff.mp hb
        rw [List.mem_append, not_or, World.names_members, hmemgone] at hin
        exact hin.2 (mem_stale_of_held hipmi (Option.isSome_of_eq_some ha) hin.1)
      rw [if_neg hout, Nat.zero_sub]
  have hown : u ∈ own (w.members g.name)
      ↔ Held.Belongs (Book.ofList AccountLine.userName w.flushed) u g.name := by
    unfold Held.Belongs
    rw [Book.get_ofList]
    by_cases hmem : u ∈ w.userMap
    · obtain ⟨a, ha, rfl⟩ := World.exists_of_mem_userMap hmem
      have hp : (a.userName, decide ((roleGroup a.role).map RoleGroup.name = some g.name))
          ∈ w.members g.name := List.mem_map_of_mem ha
      have hiff := mem_own hnames hp
      rw [decide_eq_true_eq] at hiff
      rw [hiff, find?_eq_some_of_mem hnodup ha, Option.bind_some]
    · have hnone : w.flushed.find? (·.userName = u) = none := by
        rw [List.find?_eq_none]
        intro a ha heq
        exact hmem (of_decide_eq_true heq ▸ List.mem_map_of_mem ha)
      rw [hnone, Option.bind_none]
      apply iff_of_false _ (by simp)
      intro hin
      exact hmem (World.names_members w g.name ▸ mem_names_of_mem_own hin)
  rw [World.users_groupFile₁ hls gone hg, settle_eq hnames hnot, List.count_append,
    List.count_eq_zero_of_not_mem hrest, Nat.zero_add]
  by_cases hbelongs : Held.Belongs (Book.ofList AccountLine.userName w.flushed) u g.name
  · have hmem : u ∈ (own (w.members g.name)).filter
        (· ∉ rest (roleTimes g.name) (w.members g.name) gone (World.present files g.name)) := by
      rw [List.mem_filter, decide_eq_true_eq]
      exact ⟨hown.mpr hbelongs, hrest⟩
    have hnodupOwn : (own (w.members g.name)).Nodup :=
      hnames.sublist (List.filter_sublist.map Prod.fst)
    rw [if_pos hbelongs, List.count_eq_one_of_mem (hnodupOwn.filter _) hmem]
  · rw [if_neg hbelongs, List.count_eq_zero_of_not_mem]
    intro hmem
    exact hbelongs (hown.mp (List.mem_of_mem_filter hmem))

/-- The groups after an operation. -/
theorem groups_after (happs : op = .flushAccount → ∀ u ∈ appUsers, foreign u.name)
    (hipmi : files.ipmi = held.ipmiLines) (htimely : op.Timely w foreign held)
    (h : HoldsGroups foreign held (LinuxFile.load groupFile files.group)) :
  HoldsGroups foreign (op.write w held) (LinuxFile.load groupFile (op.result w files).group)
  := by
  have hrole : ∀ {p : AccountLine × RoleGroup} {k : String}, roleGroup p.1.role = some p.2 →
      (∀ a ∈ held.get k, a.role = p.1.role) → ∀ a ∈ held.get k, roleGroup a.role = some p.2 := by
    intro p k hg hall a ha
    rw [hall a ha, hg]
  cases op with
  | addUser id =>
    simp only [Op.result, Op.exec, World.addUser, Op.write, Op.grouped]
    cases hl : w.accountLine id none with
    | none => exact h
    | some l =>
      cases hg : roleGroup l.role with
      | none => simpa [LinuxUserMgr.addUser, World.withGroup, hg] using h
      | some g =>
        have hp : Op.grouped w id = some (l, g) := by
          simp only [Op.grouped, hl, Option.bind_some, World.withGroup, hg, Option.map_some]
        simp only [Option.bind_some, LinuxUserMgr.addUser, World.withGroup, hg, Option.map_some,
          Option.getD_some, Option.elim_some]
        exact (h.addUser hg (htimely (l, g) hp).2).load_save
  | removeUser id =>
    simp only [Op.result, Op.exec, World.removeUser, Op.write, Op.grouped]
    cases hl : w.accountLine id none with
    | none => exact h
    | some l =>
      cases hg : roleGroup l.role with
      | none => simpa [LinuxUserMgr.removeUser, World.withGroup, hg] using h
      | some g =>
        have hp : Op.grouped w id = some (l, g) := by
          simp only [Op.grouped, hl, Option.bind_some, World.withGroup, hg, Option.map_some]
        simp only [Option.bind_some, LinuxUserMgr.removeUser, World.withGroup, hg, Option.map_some,
          Option.getD_some, Option.elim_some]
        exact (h.removeUser (hrole (p := (l, g)) hg (htimely (l, g) hp))).load_save
  | updateUser id old =>
    simp only [Op.write]
    cases hp : Op.grouped w id with
    | none => simpa [Op.result, Op.exec, updateUser_eq, hp] using h
    | some p =>
      obtain ⟨-, hg⟩ := grouped_spec hp
      rw [(updateUser_files hp).2, Option.elim_some]
      apply HoldsGroups.load_save
      have hmove : ∀ {b : Held} {f : LinuxFile groupFile}, HoldsGroups foreign b f →
          HoldsGroups foreign (b.append p.1) ((LinuxFile.leave w.pairs.roleGroups f
            p.1.userName).addUser p.1.userName p.2.gid p.2.name (baseGroupName p.2.gid)) := by
        intro b f hb
        have hleft := hb.leave w.pairs p.1.userName
        have hnone : ∀ a ∈ Book.get (b.delete p.1.userName) p.1.userName, a.role = p.1.role := by
          rw [get_delete, if_pos rfl]
          exact fun a ha => absurd ha (by simp)
        apply (hleft.addUser hg hnone).congr
        intro k
        rw [Book.get_append, Book.get_append, get_delete]
        split <;> rfl
      cases hold : old.filter (· ≠ "") with
      | none => exact hmove h
      | some o =>
        have ho : o ∈ old := (Option.filter_eq_some_iff.mp hold).1
        exact hmove (h.removeUser (hrole hg ((htimely p hp).2 o ho))).save
  | flushIpmi id =>
    simp only [Op.result, Op.exec, World.flushIpmi, Op.write]
    cases hl : w.accountLine id none with
    | none => exact h
    | some l =>
      obtain ⟨a, ha, -, hsame, -⟩ := htimely l hl
      refine ⟨h.current, ?_⟩
      intro g hg u hu
      have hiff : held.Belongs u g.name ↔ Held.Belongs (held.append l) u g.name := by
        unfold Held.Belongs
        rw [Book.get_append]
        by_cases hul : u = l.userName
        · subst hul
          rw [if_pos rfl, Option.mem_def.mp ha, Option.bind_some, Option.bind_some, hsame]
        · rw [if_neg hul]
      exact (h.count g hg u hu).trans (if_congr hiff rfl rfl)
  | flushAccount =>
    simp only [Op.write]
    cases hls : w.flushed.mapM World.withGroup with
    | none =>
      have hspec := w.flushAccount_spec files
      rw [hls] at hspec
      simpa [Op.result, Op.exec, hspec] using h
    | some ls => exact groups_flush hls (happs rfl) htimely.1 hipmi h

/-! ## All four files -/

theorem fits_edits {α : Type} {F : Format Line α} {good : α → Prop} {base : List (Edit α String)}
    {entry : AccountLine → RoleGroup → α} (hgood : ∀ a g, good (entry a g))
    (hbase : Tells.Fits F good foreign base) (htimely : op.Timely w foreign held) :
  Tells.Fits F good foreign (op.edits w files base entry)
  := by
  intro d overwrite hmem
  rcases put_mem_edits htimely hmem with hmem | ⟨a, g, rfl, rfl, -⟩
  · exact hbase d overwrite hmem
  · exact ⟨hgood a g, Or.inl rfl⟩

theorem mem_appEdits {e : Edit PasswdUser String} (h : e ∈ appEdits) :
  ∃ u ∈ appUsers, e = .put u.passwdUser false
  := by
  obtain ⟨u, hu, rfl⟩ := List.mem_map.mp h
  exact ⟨u, hu, rfl⟩

/-- An operation that comes in time keeps what the files hold. -/
theorem Holds.after (h : Holds foreign w.shell held files)
    (happs : ∀ u ∈ appUsers, foreign u.name) (htimely : op.Timely w foreign held) :
  Holds foreign w.shell (op.write w held) (op.result w files)
  := by
  obtain ⟨hpasswd, hshadow⟩ := Op.result_lines w files op
  have hname : ∀ u ∈ appUsers, foreign u.passwdUser.userName := by
    intro u hu
    have heq : u.passwdUser.userName = u.name := by
      unfold AppUser.passwdUser
      split <;> rfl
    rw [heq]
    exact happs u hu
  have hbase : Tells.Fits passwdFile PasswdUser.IsNumbered foreign appEdits := by
    intro d overwrite hmem
    obtain ⟨u, hu, heq⟩ := mem_appEdits hmem
    obtain ⟨rfl, rfl⟩ := Edit.put.inj heq
    exact ⟨u.isNumbered_passwdUser, Or.inr (hname u hu)⟩
  have hfits : Tells.Fits passwdFile PasswdUser.IsNumbered foreign (op.passwdEdits w files) :=
    fits_edits (fun a g => a.isNumbered_passwdUser w.shell g) hbase htimely
  exact {
    known := known_write htimely h.known
    passwd := by
      rw [hpasswd]
      apply (h.passwd.run passwdFile_named survives_passwdFile hfits).congr
      intro k hk
      apply runView_edits (fun _ _ => rfl) _ _ (fun k => mem_stale_of_held h.ipmi) htimely hk
      · intro a l g hname hid _
        simp only [AccountLine.passwdUser, hname, hid]
      · intro e he
        obtain ⟨u, hu, rfl⟩ := mem_appEdits he
        exact hname u hu
    uids := by
      rw [hpasswd]
      apply uids_run h.passwd.read _ h.uids
      intro d overwrite hmem
      refine ⟨(hfits d overwrite hmem).1, ?_⟩
      intro hforeign
      rcases put_mem_edits htimely hmem with hmem | ⟨a, g, rfl, -, hnot⟩
      · obtain ⟨u, hu, heq⟩ := mem_appEdits hmem
        obtain ⟨rfl, -⟩ := Edit.put.inj heq
        exact isAccountUid_appUser hu
      · exact absurd hforeign hnot
    shadow := by
      rw [hshadow]
      have hfits : Tells.Fits shadowFile (fun _ => True) foreign (op.shadowEdits w files) :=
        fits_edits (fun _ _ => trivial) (fun _ _ hmem => absurd hmem List.not_mem_nil) htimely
      apply (h.shadow.run shadowFile_named survives_shadowFile hfits).congr
      intro k hk
      apply runView_edits (fun _ _ => rfl) _ _ (fun k => mem_stale_of_held h.ipmi) htimely hk
      · exact fun _ _ _ _ _ hpassword => hpassword
      · exact fun e he => absurd he List.not_mem_nil
    ipmi := ipmi_after h.ipmi htimely
    group := groups_after (fun _ => happs) h.ipmi htimely h.group }

end After

/-! ## Runs -/

/-- An operation, and what it sees of the accounts. -/
structure Event where
  world : World
  op : Op

/-- The files after a list of events. -/
def filesAfter (files : Files) (events : List Event) : Files :=
  events.foldl (fun files e => e.op.result e.world files) files

/-- The lines that are held after a list of events. -/
def heldAfter (held : Held) (events : List Event) : Held :=
  events.foldl (fun held e => e.op.write e.world held) held

/-- Every event comes in time, and the shell of users is the same throughout. -/
def TimelyRun (foreign : String → Prop) (shell : String) : Held → List Event → Prop
  | _, [] => True
  | held, e :: events =>
    e.world.shell = shell ∧ e.op.Timely e.world foreign held
      ∧ TimelyRun foreign shell (e.op.write e.world held) events

section Run

variable {foreign : String → Prop} {shell : String} {w : World} {held : Held} {files : Files}

/-- In every run the files hold what has been written last. -/
theorem Holds.run (happs : ∀ u ∈ appUsers, foreign u.name) {events : List Event}
    (h : Holds foreign shell held files) (htimely : TimelyRun foreign shell held events) :
  Holds foreign shell (heldAfter held events) (filesAfter files events)
  := by
  induction events generalizing held files with
  | nil => exact h
  | cons e events ih =>
    obtain ⟨rfl, hop, hrest⟩ := htimely
    exact ih (h.after happs hop) hrest

/-- Files that have lines of foreign names only hold nothing. -/
theorem holds_nothing {files : Files} (hwf : files.WellFormed) (hipmi : files.ipmi = [])
    (hpasswd : ∀ l ∈ files.passwd, foreign l.name ∧ isAccountUid (tonumber (l.getD 2 [])) = false)
    (hshadow : ∀ l ∈ files.shadow, foreign l.name)
    (hnodup : (files.group.map GroupLine.groupName).Nodup)
    (hgroup : ∀ g ∈ roleGroupMap, ∀ u ∈ (LinuxFile.load groupFile files.group).users g.name,
      foreign u) :
  Holds foreign shell (Book.ofList AccountLine.userName []) files
  := by
  have hnone : ∀ {lines : List Line}, (∀ l ∈ lines, foreign l.name) → ∀ k, ¬ foreign k →
      lines.countP (·.name = k) = 0 := by
    intro lines hlines k hk
    rw [List.countP_eq_zero]
    intro l hl heq
    exact hk (of_decide_eq_true heq ▸ hlines l hl)
  have hget : ∀ {α : Type} {F : Format Line α} (_ : F.Named) {lines : List Line}
      (_ : ∀ l ∈ lines, (F.lineToData l).isSome = true) (_ : ∀ l ∈ lines, foreign l.name) k,
      ¬ foreign k → (LinuxFile.load F lines).get k = none := by
    intro α F hF lines hread hlines k hk
    rw [LinuxFile.get, get_load hF hread, List.find?_eq_none.mpr, Option.bind_none]
    exact List.countP_eq_zero.mp (hnone hlines k hk)
  have hnumbered := numbered_of_wellFormed hwf.passwd
  exact {
    known := fun a ha => absurd ha List.not_mem_nil
    passwd := {
      read := fun l hl => by
        obtain ⟨name, password, userId, groupId, gecos, homeDir, shell, rfl⟩ := hwf.passwd l hl
        exact ⟨_, rfl, userId, groupId, tonumber_toDigits userId, tonumber_toDigits groupId⟩
      one := fun k hk => by
        rw [hnone (fun l hl => (hpasswd l hl).1) k hk]
        exact Nat.zero_le 1
      get := fun k hk => by
        rw [hget passwdFile_named hwf.isSome_passwd (fun l hl => (hpasswd l hl).1) k hk]
        rfl }
    uids := fun l hl _ => (hpasswd l hl).2
    shadow := {
      read := fun l hl => by
        obtain ⟨d, hd⟩ := Option.isSome_iff_exists.mp (hwf.isSome_shadow l hl)
        exact ⟨d, hd, trivial⟩
      one := fun k hk => by
        rw [hnone hshadow k hk]
        exact Nat.zero_le 1
      get := fun k hk => by
        rw [hget shadowFile_named hwf.isSome_shadow hshadow k hk]
        rfl }
    ipmi := hipmi
    group := ⟨Current.load hnodup, fun g hg u hu =>
      List.count_eq_zero_of_not_mem fun hmem => hu (hgroup g hg u hmem)⟩ }

/-- Files that hold the lines of the accounts agree with the accounts. -/
theorem Holds.agrees (h : Holds foreign w.shell held files) (hlast : held.entries.Perm w.flushed) :
  w.Agrees files
  := by
  have hget : ∀ a ∈ w.flushed, held.get a.userName = some a := by
    intro a ha
    exact Book.get_eq_some.mpr ⟨hlast.mem_iff.mpr ha, rfl⟩
  have hknown : ∀ a ∈ w.flushed, ¬ foreign a.userName ∧ ∃ g, roleGroup a.role = some g := by
    intro a ha
    obtain ⟨hnot, hg⟩ := h.known a (hlast.mem_iff.mpr ha)
    exact ⟨hnot, Option.isSome_iff_exists.mp hg⟩
  exact {
    ipmi := by
      rw [h.ipmi]
      exact hlast.map _
    passwd := fun a ha => by
      obtain ⟨hnot, g, hg⟩ := hknown a ha
      have hview : held.view id (AccountLine.passwdUser w.shell) a.userName
          = some (a.passwdUser w.shell g) := by
        rw [Held.view, hget a ha, Option.bind_some, hg]
        rfl
      obtain ⟨d, hd, rfl, hone⟩ := h.passwd.countP_eq_one passwdFile_named hnot hview
      exact ⟨g, hg, (filter_name_iff passwdFile_named h.passwd.isSome hd).mpr hone⟩
    uids := fun l hl huid => by
      have hnot : ¬ foreign l.name := by
        intro hforeign
        rw [h.uids l hl hforeign] at huid
        exact Bool.false_ne_true huid
      have hone : files.passwd.countP (·.name = l.name) = 1 := by
        apply Nat.le_antisymm (h.passwd.one l.name hnot)
        exact List.countP_pos_iff.mpr ⟨l, hl, by simp⟩
      obtain ⟨d, hd, -⟩ := h.passwd.read l hl
      have hsome := h.passwd.get l.name hnot
      rw [get_load_of_countP passwdFile_named h.passwd.isSome hl hone, hd] at hsome
      obtain ⟨a, ha, -⟩ := Option.bind_eq_some_iff.mp hsome.symm
      obtain ⟨hmem, hname⟩ := Book.get_eq_some.mp ha
      rw [← hname]
      exact List.mem_map_of_mem (hlast.mem_iff.mp hmem)
    shadow := fun a ha => by
      obtain ⟨hnot, g, hg⟩ := hknown a ha
      have hview : held.view ShadowUser.password (fun a _ => a.shadowUser) a.userName
          = some a.password := by
        rw [Held.view, hget a ha, Option.bind_some, hg]
        rfl
      obtain ⟨d, hd, hpassword, hone⟩ := h.shadow.countP_eq_one shadowFile_named hnot hview
      have hline := (filter_name_iff shadowFile_named h.shadow.isSome hd).mpr hone
      obtain ⟨l, hl, hdata⟩ := List.map_eq_singleton_iff.mp hline
      rw [hl, List.map_singleton, toList_password hdata, hpassword]
    group := fun a ha g hg => by
      have hclean : (LinuxFile.load groupFile files.group).datas.isDirty = false := rfl
      have hbelongs : held.Belongs a.userName g.name
          ↔ (roleGroup a.role).map RoleGroup.name = some g.name := by
        unfold Held.Belongs
        rw [hget a ha, Option.bind_some]
      rw [listed_iff_of_nodup (h.group.current.clean hclean).2, ← List.count_pos_iff,
        h.group.count g hg a.userName (hknown a ha).1, ← hbelongs]
      split
      case isTrue hin => exact iff_of_true Nat.one_pos hin
      case isFalse hout => exact iff_of_false (Nat.lt_irrefl 0) hout }

/-- Files that have been kept up to date agree with the accounts when the lines that have been
written last are theirs, and still agree after a flush. -/
theorem agrees_run (happs : ∀ u ∈ appUsers, foreign u.name) {events : List Event}
    (h : Holds foreign w.shell held files) (htimely : TimelyRun foreign w.shell held events)
    (hlast : (heldAfter held events).entries.Perm w.flushed) :
  w.Agrees (filesAfter files events) ∧ w.Agrees (w.flush (filesAfter files events))
  := by
  have hrun := h.run happs htimely
  refine ⟨hrun.agrees hlast, ?_⟩
  have hnames : (w.flushed.map AccountLine.userName).Nodup :=
    (hlast.map AccountLine.userName).nodup_iff.mp (heldAfter held events).nodup
  have hflush : Op.flushAccount.Timely w foreign (heldAfter held events) := by
    refine ⟨hnames, ?_⟩
    intro k hk
    obtain ⟨a, ha, rfl⟩ := exists_of_mem_userMap hk
    exact (hrun.known a (hlast.mem_iff.mpr ha)).1
  obtain ⟨ls, hls⟩ := mapM_withGroup_iff.mpr fun a ha => (hrun.known a (hlast.mem_iff.mpr ha)).2
  apply (hrun.after happs hflush).agrees
  simp only [Op.write, hls, Option.elim_some]
  rw [Book.entries_ofList_of_nodup hnames]

end Run

/-! ### A first start and a change of the name -/

/-- The names of the users of the system. -/
def isAppName (k : String) : Prop := k ∈ appUsers.map AppUser.name

instance (k : String) : Decidable (isAppName k) :=
  inferInstanceAs (Decidable (_ ∈ _))

theorem holds_rootFiles :
  Holds isAppName "/bin/bash" (Book.ofList AccountLine.userName []) rootFiles
  := by
  apply holds_nothing wellFormed_rootFiles rfl
  · intro l hl
    obtain rfl := List.mem_singleton.mp hl
    decide
  · intro l hl
    obtain rfl := List.mem_singleton.mp hl
    decide
  · exact List.nodup_nil
  · intro g hg u hu
    exact absurd hu List.not_mem_nil

/-- The first flush, and an account that gets another name. -/
def newName : List Event :=
  [⟨plainWorld "alice", .flushAccount⟩, ⟨plainWorld "bob", .updateUser 2 (some "alice")⟩]

theorem timely_newName :
  TimelyRun isAppName "/bin/bash" (Book.ofList AccountLine.userName []) newName
  := by
  refine ⟨rfl, ⟨by decide +kernel, by decide +kernel⟩, rfl, ?_, trivial⟩
  intro p hp
  have hline := Option.some.inj (grouped_spec hp).1
  rw [← hline]
  refine ⟨by decide +kernel, ?_⟩
  rintro o ⟨⟩ a ha
  rw [← Option.some.inj ha]
  rfl

theorem agrees_newName :
  (plainWorld "bob").Agrees (filesAfter rootFiles newName)
    ∧ (plainWorld "bob").Agrees ((plainWorld "bob").flush (filesAfter rootFiles newName))
  := by
  have happs : ∀ u ∈ appUsers, isAppName u.name := fun u hu => List.mem_map_of_mem hu
  apply agrees_run happs holds_rootFiles timely_newName
  rw [show (heldAfter _ newName).entries = (plainWorld "bob").flushed from rfl]

end Linux

end BmcAccount
