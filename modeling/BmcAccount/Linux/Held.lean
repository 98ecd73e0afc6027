import BmcAccount.Linux.Tells
import BmcAccount.Linux.Agreement

/-!
# What the files hold of the accounts

Between two flushes the signals of the account collection keep the files up to date: each has a
handler that writes the line of one account, or moves it to another name, and looks at no other
account. `Op.write` says which lines of accounts the files should hold after a handler.

Each of the files is compared with these lines on its own: `runView_edits` is about the files of
users and of passwords, `ReadsIpmi` about the file of IPMI users, and `HoldsGroups` about the file
of groups, in which a user is once in the group of the role and in no other group of a role.
-/

namespace BmcAccount

namespace Linux

open Keyed Roster

/-- The lines of the accounts as they have been written last, under their names in the files. -/
abbrev Held : Type := Book AccountLine.userName

theorem get_delete (held : Held) (k k' : String) :
  (held.delete k').get k = if k = k' then none else held.get k
  := by
  have hrun : (held.delete k').get k = if k ∈ [k'] then none else held.get k :=
    @Book.get_run_deletes _ _ _ _ (fun _ _ => false) held [k'] k
  simpa only [List.mem_singleton] using hrun

namespace Op

/-- What the files hold after an operation. -/
def write (w : World) (held : Held) : Op → Held
  | .addUser id => (grouped w id).elim held fun p => held.append p.1
  | .removeUser id => (grouped w id).elim held fun p => held.delete p.1.userName
  | .updateUser id old =>
    (grouped w id).elim held fun p =>
      ((old.filter (· ≠ "")).elim held held.delete).append p.1
  | .flushIpmi id => (w.accountLine id none).elim held held.append
  | .flushAccount =>
    (w.flushed.mapM World.withGroup).elim held fun _ => Book.ofList AccountLine.userName w.flushed

/-- An operation comes in time: no name is one of the foreign ones or taken from another user, a
user who is removed, or added again, has the role that is known of them, and the handler for the
file of IPMI users has nothing else to write. -/
def Timely (w : World) (foreign : String → Prop) (held : Held) : Op → Prop
  | .addUser id => ∀ p ∈ grouped w id, ¬ foreign p.1.userName
    ∧ ∀ a ∈ held.get p.1.userName, a.role = p.1.role
  | .removeUser id => ∀ p ∈ grouped w id, ∀ a ∈ held.get p.1.userName, a.role = p.1.role
  | .updateUser id old => ∀ p ∈ grouped w id, ¬ foreign p.1.userName
    ∧ ∀ o ∈ old, ∀ a ∈ held.get o, a.role = p.1.role
  | .flushIpmi id => ∀ l ∈ w.accountLine id none, ∃ a ∈ held.get l.userName,
    a.id = l.id ∧ a.role = l.role ∧ a.password = l.password
  | .flushAccount => w.userMap.Nodup ∧ ∀ k ∈ w.userMap, ¬ foreign k

end Op

/-! ## The files of users and of passwords -/

/-- What a file says of the accounts whose lines are held. -/
def Held.view {α V : Type} (part : α → V) (entry : AccountLine → RoleGroup → α) (held : Held)
    (k : String) : Option V :=
  (held.get k).bind fun a => (roleGroup a.role).map fun g => part (entry a g)

section View

variable {α V : Type} {part : α → V} {entry : AccountLine → RoleGroup → α} {held : Held}

theorem view_append {a : AccountLine} {g : RoleGroup} (hg : roleGroup a.role = some g) :
  Held.view part entry (held.append a)
    = Function.update (held.view part entry) a.userName (some (part (entry a g)))
  := by
  funext k
  unfold Held.view
  rw [Book.get_append]
  by_cases hk : k = a.userName
  · subst hk
    rw [if_pos rfl, Function.update_self, Option.bind_some, hg, Option.map_some]
  · rw [if_neg hk, Function.update_of_ne hk]

theorem view_delete (k' : String) :
  Held.view part entry (held.delete k') = Function.update (held.view part entry) k' none
  := by
  funext k
  unfold Held.view
  rw [get_delete]
  by_cases hk : k = k'
  · subst hk
    rw [if_pos rfl, Function.update_self, Option.bind_none]
  · rw [if_neg hk, Function.update_of_ne hk]

/-- What is said of a name is not changed by a line that differs in other things only. -/
theorem view_append_of_same {a l : AccountLine} (hget : held.get l.userName = some a)
    (hrole : a.role = l.role) (hpart : ∀ g, part (entry a g) = part (entry l g)) :
  Held.view part entry (held.append l) = held.view part entry
  := by
  funext k
  unfold Held.view
  rw [Book.get_append]
  by_cases hk : k = l.userName
  · subst hk
    rw [if_pos rfl, hget, Option.bind_some, Option.bind_some, hrole]
    cases roleGroup l.role with
    | none => rfl
    | some g => rw [Option.map_some, Option.map_some, hpart]
  · rw [if_neg hk]

end View

theorem grouped_spec {w : World} {id : ℕ} {p : AccountLine × RoleGroup}
    (h : Op.grouped w id = some p) :
  w.accountLine id none = some p.1 ∧ roleGroup p.1.role = some p.2
  := by
  obtain ⟨l, hl, hp⟩ := Option.bind_eq_some_iff.mp h
  obtain ⟨g, hg, rfl⟩ := Option.map_eq_some_iff.mp hp
  exact ⟨hl, hg⟩

section Tells

variable {α V : Type} {F : Format Line α} {part : α → V} {good : α → Prop}
  {foreign : String → Prop} {lines : List Line} {base : List (Edit α String)}
  {entry : AccountLine → RoleGroup → α} {w : World} {files : Files} {held : Held} {op : Op}

/-- What an operation puts is an entry of the base, or the entry of an account with a name of its
own. -/
theorem put_mem_edits (htimely : op.Timely w foreign held) {d : α} {overwrite : Bool}
    (hmem : .put d overwrite ∈ op.edits w files base entry) :
  .put d overwrite ∈ base
    ∨ ∃ a g, d = entry a g ∧ overwrite = true ∧ ¬ foreign a.userName
  := by
  cases op with
  | addUser id =>
    simp only [Op.edits] at hmem
    cases hp : Op.grouped w id with
    | none => simp [hp] at hmem
    | some p =>
      rw [hp] at hmem
      obtain ⟨rfl, rfl⟩ := Edit.put.inj (List.mem_singleton.mp hmem)
      exact Or.inr ⟨p.1, p.2, rfl, rfl, (htimely p hp).1⟩
  | removeUser id =>
    simp only [Op.edits] at hmem
    cases hp : Op.grouped w id with
    | none => simp [hp] at hmem
    | some p => simp [hp] at hmem
  | updateUser id old =>
    simp only [Op.edits] at hmem
    cases hp : Op.grouped w id with
    | none => simp [hp] at hmem
    | some p =>
      rw [hp] at hmem
      rcases List.mem_append.mp hmem with hmem | hmem
      · obtain ⟨k, -, heq⟩ := List.mem_map.mp hmem
        exact absurd heq (by simp)
      · obtain ⟨rfl, rfl⟩ := Edit.put.inj (List.mem_singleton.mp hmem)
        exact Or.inr ⟨p.1, p.2, rfl, rfl, (htimely p hp).1⟩
  | flushIpmi id => exact absurd hmem List.not_mem_nil
  | flushAccount =>
    simp only [Op.edits] at hmem
    cases hls : w.flushed.mapM World.withGroup with
    | none => simp [hls] at hmem
    | some ls =>
      rw [hls] at hmem
      rcases List.mem_append.mp hmem with hmem | hmem
      · rcases List.mem_append.mp hmem with hmem | hmem
        · exact Or.inl hmem
        · obtain ⟨p, hp, heq⟩ := List.mem_map.mp hmem
          obtain ⟨rfl, rfl⟩ := Edit.put.inj heq
          have hname : p.1.userName ∈ w.userMap := by
            rw [World.userMap, ← World.map_fst_of_mapM hls, List.map_map]
            exact List.mem_map_of_mem (f := AccountLine.userName ∘ Prod.fst) hp
          exact Or.inr ⟨p.1, p.2, rfl, rfl, htimely.2 _ hname⟩
      · obtain ⟨k, -, heq⟩ := List.mem_map.mp hmem
        exact absurd heq (by simp)

/-- What the edits of an operation do to what is said of the names. -/
theorem runView_edits (hkey : ∀ a g, F.dataKey (entry a g) = a.userName)
    (hsame : ∀ a l g, a.userName = l.userName → a.id = l.id → a.password = l.password →
      part (entry a g) = part (entry l g))
    (hbase : ∀ e ∈ base, foreign (e.named F.dataKey))
    (hstale : ∀ k, (held.get k).isSome = true → k ∉ w.userMap → k ∈ w.stale files)
    (htimely : op.Timely w foreign held) {k : String} (hk : ¬ foreign k) :
  runView F.dataKey part (held.view part entry) (op.edits w files base entry) k
    = Held.view part entry (op.write w held) k
  := by
  cases op with
  | addUser id =>
    simp only [Op.edits, Op.write]
    cases hp : Op.grouped w id with
    | none => rfl
    | some p =>
      rw [Option.elim_some, view_append (grouped_spec hp).2, ← hkey p.1 p.2]
      rfl
  | removeUser id =>
    simp only [Op.edits, Op.write]
    cases hp : Op.grouped w id with
    | none => rfl
    | some p =>
      rw [Option.elim_some, view_delete]
      rfl
  | updateUser id old =>
    simp only [Op.edits, Op.write, Op.oldUsername]
    cases hp : Op.grouped w id with
    | none => rfl
    | some p =>
      rw [Option.elim_some, view_append (grouped_spec hp).2, ← hkey p.1 p.2]
      cases old.filter (· ≠ "") with
      | none => rfl
      | some o =>
        rw [Option.elim_some, view_delete]
        rfl
  | flushIpmi id =>
    simp only [Op.edits, Op.write]
    cases hl : w.accountLine id none with
    | none => rfl
    | some l =>
      obtain ⟨a, hget, hid, hrole, hpassword⟩ := htimely l hl
      have hname : a.userName = l.userName := (Book.get_eq_some.mp hget).2
      rw [Option.elim_some, view_append_of_same hget hrole fun g => hsame a l g hname hid hpassword]
      rfl
  | flushAccount =>
    simp only [Op.edits, Op.write]
    cases hls : w.flushed.mapM World.withGroup with
    | none => rfl
    | some ls =>
      have hnames : (ls.map fun p => F.dataKey (entry p.1 p.2)) = w.userMap := by
        rw [World.userMap, ← World.map_fst_of_mapM hls, List.map_map]
        exact List.map_congr_left fun p _ => hkey p.1 p.2
      have hputs : (ls.map fun p => Edit.put (κ := String) (entry p.1 p.2) true)
          = (ls.map fun p => entry p.1 p.2).map fun d => .put d true := by
        rw [List.map_map]
        rfl
      have hnodup : ((ls.map fun p => entry p.1 p.2).map F.dataKey).Nodup := by
        rw [List.map_map]
        exact hnames ▸ htimely.1
      have hnew : (Book.ofList AccountLine.userName w.flushed).get k
          = w.flushed.find? (·.userName = k) := Book.get_ofList _ _
      rw [runView_append, runView_append, runView_deletes, hputs, Option.elim_some, Held.view, hnew]
      by_cases hmem : k ∈ w.userMap
      · rw [if_neg (World.not_mem_stale hmem)]
        obtain ⟨a, ha, rfl⟩ := World.exists_of_mem_userMap hmem
        obtain ⟨g, hp, hg⟩ := World.exists_pair hls ha
        have hput : runView F.dataKey part (runView F.dataKey part (held.view part entry) base)
            ((ls.map fun p => entry p.1 p.2).map fun d => .put d true) (F.dataKey (entry a g))
            = some (part (entry a g)) :=
          runView_puts _ hnodup
            (List.mem_map_of_mem (f := fun p : AccountLine × RoleGroup => entry p.1 p.2) hp)
        rw [hkey] at hput
        rw [hput, find?_eq_some_of_mem htimely.1 ha, Option.bind_some, hg, Option.map_some]
      · have hnone : w.flushed.find? (·.userName = k) = none := by
          rw [List.find?_eq_none]
          intro a ha heq
          exact hmem (of_decide_eq_true heq ▸ List.mem_map_of_mem ha)
        rw [hnone, Option.bind_none]
        split
        · rfl
        case isFalse hnot =>
          have hheld : held.get k = none := by
            rw [← Option.not_isSome_iff_eq_none]
            exact fun hsome => hnot (hstale k hsome hmem)
          have hputs' : ∀ e ∈ (ls.map fun p => entry p.1 p.2).map fun d => Edit.put (κ := String) d true,
              e.named F.dataKey ≠ k := by
            intro e he
            obtain ⟨d, hd, rfl⟩ := List.mem_map.mp he
            obtain ⟨p, hp, rfl⟩ := List.mem_map.mp hd
            rintro rfl
            exact hmem (hnames ▸ List.mem_map_of_mem (f := fun p : AccountLine × RoleGroup =>
              F.dataKey (entry p.1 p.2)) hp)
          have hbase' : ∀ e ∈ base, e.named F.dataKey ≠ k := by
            rintro e he rfl
            exact hk (hbase e he)
          rw [runView_of_ne _ hputs', runView_of_ne _ hbase', Held.view, hheld, Option.bind_none]

end Tells

/-! ## The file of IPMI users -/

/-- The lines of the accounts in the file of IPMI users. -/
def Held.ipmiLines (held : Held) : List Line :=
  held.entries.map fun a => a.ipmiUser.fields

/-- The entry that is read from the line of an account: the user identifier is a text. -/
def AccountLine.readIpmiUser (a : AccountLine) : IpmiUser :=
  { a.ipmiUser with
    userId := .text (String.ofList (Nat.toDigits 10 a.id))
    password := .nil
    snmpPrivacyPassword := .nil }

theorem read_ipmiUser (a : AccountLine) :
  ipmiUserFile.lineToData (ipmiUserFile.dataToLine a.ipmiUser) = some a.readIpmiUser
  := by
  have hpriv : tonumber ((a.privilegeNum.map Value.num).getD .nil).str
      = (a.privilegeNum.map Value.num).getD .nil := by
    cases a.privilegeNum with
    | none => rfl
    | some n => exact isPlain_num n
  have hnum : ∀ n, tonumber (Value.num n).str = .num n := isPlain_num
  simp only [ipmiUserFile, ipmiLineToData, IpmiUser.fields, AccountLine.ipmiUser,
    AccountLine.readIpmiUser, hnum, hpriv, List.headD_cons, String.ofList_toList]
  rfl

theorem fields_readIpmiUser (a : AccountLine) :
  a.readIpmiUser.fields = a.ipmiUser.fields
  := by
  simp only [IpmiUser.fields, AccountLine.readIpmiUser, Value.str, String.toList_ofList,
    AccountLine.ipmiUser]

/-- What is read from the lines of the accounts. -/
theorem entries_load_ipmiLines (held : Held) :
  (LinuxFile.load ipmiUserFile held.ipmiLines).datas.entries
    = held.entries.map AccountLine.readIpmiUser
  := by
  have hlines : held.ipmiLines.filterMap ipmiUserFile.lineToData
      = held.entries.map AccountLine.readIpmiUser := by
    rw [Held.ipmiLines, List.filterMap_map, ← List.filterMap_eq_map]
    exact List.filterMap_congr fun a _ => read_ipmiUser a
  rw [LinuxFile.load, hlines]
  apply Book.entries_ofList_of_nodup
  rw [List.map_map]
  exact held.nodup

/-- The entries of a file say the same as the lines of the accounts, and none of them agrees with
the entry of an account. -/
structure ReadsIpmi (f : LinuxFile ipmiUserFile) (held : Held) : Prop where
  entries : f.datas.entries = held.entries.map AccountLine.readIpmiUser
  lines : f.datas.isDirty = false → f.lines = held.ipmiLines

namespace ReadsIpmi

variable {f : LinuxFile ipmiUserFile} {held : Held}

theorem load (held : Held) :
  ReadsIpmi (LinuxFile.load ipmiUserFile held.ipmiLines) held
  :=
  ⟨entries_load_ipmiLines held, fun _ => rfl⟩

theorem lines_save (h : ReadsIpmi f held) :
  f.save.lines = held.ipmiLines
  := by
  rw [LinuxFile.lines_save]
  split
  case isTrue =>
    rw [h.entries, Held.ipmiLines, List.map_map]
    exact List.map_congr_left fun a _ => fields_readIpmiUser a
  case isFalse hclean => exact h.lines (by simpa using hclean)

theorem filter_entries (h : ReadsIpmi f held) (k : String) :
  f.datas.entries.filter (ipmiUserFile.dataKey · ≠ k)
    = (held.entries.filter (·.userName ≠ k)).map AccountLine.readIpmiUser
  := by
  rw [h.entries, List.filter_map]
  rfl

theorem isSome_get (h : ReadsIpmi f held) (k : String) :
  (f.datas.get k).isSome = (held.get k).isSome
  := by
  rw [Bool.eq_iff_iff, Book.isSome_get, Book.isSome_get, h.entries, List.map_map]
  exact Iff.rfl

theorem delete (h : ReadsIpmi f held) (k : String) :
  ReadsIpmi (f.deleteDataByKey k) (held.delete k)
  := by
  have hdelete : (f.deleteDataByKey k).datas = f.datas.delete k := rfl
  have hsome := h.isSome_get k
  by_cases hk : (held.get k).isSome = true
  · have hk' : (f.datas.get k).isSome = true := hsome.trans hk
    refine ⟨?_, ?_⟩
    · rw [hdelete, Book.delete, if_pos hk', Book.delete, if_pos hk]
      exact h.filter_entries k
    · rw [hdelete, Book.delete, if_pos hk']
      exact fun hclean => absurd hclean (by simp)
  · have hk' : ¬ (f.datas.get k).isSome = true := fun ht => hk (hsome.symm.trans ht)
    have hsame : f.datas.delete k = f.datas := by
      rw [Book.delete, if_neg hk']
    have hsame' : held.delete k = held := by
      rw [Book.delete, if_neg hk]
    rw [hsame']
    refine ⟨?_, ?_⟩
    · rw [hdelete, hsame]
      exact h.entries
    · rw [hdelete, hsame]
      exact h.lines

/-- The line of an account is written anew, at the end. -/
theorem lines_put (h : ReadsIpmi f held) (a : AccountLine) :
  (f.addItem a.ipmiUser true).save.lines = Held.ipmiLines (held.append a)
  := by
  have hmoves : f.datas.Moves ipmiUserFile.equals a.ipmiUser = true := by
    unfold Book.Moves
    split
    case h_1 => rfl
    case h_2 own hown =>
      have hmem := (Book.get_eq_some.mp hown).1
      rw [h.entries] at hmem
      obtain ⟨a', -, rfl⟩ := List.mem_map.mp hmem
      have hid : a'.readIpmiUser.userId.covers a.ipmiUser.userId = false := rfl
      simp only [ipmiUserFile, hid, Bool.and_false, Bool.false_and, Bool.not_false]
  have hdatas : (f.addItem a.ipmiUser true).datas = f.datas.append a.ipmiUser := by
    rw [show (f.addItem a.ipmiUser true).datas = f.datas.put ipmiUserFile.equals a.ipmiUser true
      from rfl, Book.put_true, if_pos hmoves]
  have hdirty : (f.datas.append a.ipmiUser).isDirty = true := rfl
  have hentries : (f.datas.append a.ipmiUser).entries
      = (held.entries.filter (·.userName ≠ a.userName)).map AccountLine.readIpmiUser
        ++ [a.ipmiUser] := congrArg (· ++ [a.ipmiUser]) (h.filter_entries a.userName)
  rw [LinuxFile.lines_save, hdatas, if_pos hdirty, hentries, Held.ipmiLines, Book.append,
    List.map_append, List.map_append, List.map_map]
  congr 1
  exact List.map_congr_left fun a _ => fields_readIpmiUser a

end ReadsIpmi

/-! ## The file of groups -/

/-- A user belongs to the group of the role that is held. -/
def Held.Belongs (held : Held) (u k : String) : Prop :=
  (held.get u).bind (fun a => (roleGroup a.role).map RoleGroup.name) = some k

instance (held : Held) (u k : String) : Decidable (held.Belongs u k) :=
  inferInstanceAs (Decidable (_ = _))

/-- Every user who is not foreign is once in the group of the role, and in no other group of a
role. -/
structure HoldsGroups (foreign : String → Prop) (held : Held) (f : LinuxFile groupFile) : Prop where
  current : Current f
  count : ∀ g ∈ roleGroupMap, ∀ u, ¬ foreign u →
    (f.users g.name).count u = if held.Belongs u g.name then 1 else 0

theorem belongs_delete {held : Held} {u k n : String} :
  Held.Belongs (held.delete n) u k ↔ u ≠ n ∧ held.Belongs u k
  := by
  unfold Held.Belongs
  rw [get_delete]
  by_cases hu : u = n
  · simp [hu]
  · simp [hu]

theorem belongs_append {held : Held} {a : AccountLine} {g : RoleGroup}
    (hg : roleGroup a.role = some g) {u k : String} :
  Held.Belongs (held.append a) u k
    ↔ (u = a.userName ∧ g.name = k) ∨ (u ≠ a.userName ∧ held.Belongs u k)
  := by
  unfold Held.Belongs
  rw [Book.get_append]
  by_cases hu : u = a.userName
  · simp [hu, hg]
  · simp [hu]

namespace HoldsGroups

variable {foreign : String → Prop} {held held' : Held} {f : LinuxFile groupFile}

theorem congr (h : HoldsGroups foreign held f) (hget : ∀ k, held.get k = held'.get k) :
  HoldsGroups foreign held' f
  := by
  refine ⟨h.current, ?_⟩
  intro g hg u hu
  have hiff : held.Belongs u g.name ↔ held'.Belongs u g.name := by
    unfold Held.Belongs
    rw [hget]
  rw [h.count g hg u hu]
  exact if_congr hiff rfl rfl

theorem save (h : HoldsGroups foreign held f) :
  HoldsGroups foreign held f.save
  := by
  refine ⟨h.current.save, ?_⟩
  intro g hg u hu
  rw [← h.count g hg u hu]
  unfold LinuxFile.users LinuxFile.get Book.get
  rw [LinuxFile.entries_save]

/-- The members after an effect, also of a group that there is not. -/
theorem users_effect {f' : LinuxFile groupFile} {T : String → List String → List String}
    (h : Effect f f' T) (hT : ∀ k, T k [] = []) (k : String) :
  f'.users k = T k (f.users k)
  := by
  cases hget : f.get k with
  | some e => exact h.users_eq (Option.isSome_of_eq_some hget)
  | none =>
    unfold LinuxFile.users
    rw [h.get, hget]
    exact (hT k).symm

/-- A user whose role is known is taken out of the group of the role. -/
theorem removeUser (h : HoldsGroups foreign held f) {u : String} {g : RoleGroup}
    (hrole : ∀ a ∈ held.get u, roleGroup a.role = some g) :
  HoldsGroups foreign (held.delete u) (f.removeUser u g.name)
  := by
  have heffect := f.effect_removeUser u g.name
  refine ⟨h.current.effect heffect, ?_⟩
  intro g' hg' v hv
  have hcount := h.count g' hg' v hv
  rw [users_effect heffect (fun k => by split <;> rfl)]
  by_cases hvu : v = u
  · subst hvu
    have hnot : ¬ Held.Belongs (held.delete v) v g'.name := fun hb => (belongs_delete.mp hb).1 rfl
    rw [if_neg hnot]
    by_cases hname : g'.name = g.name
    · rw [if_pos hname, List.count_erase_self, hcount]
      split <;> rfl
    · have hother : ¬ held.Belongs v g'.name := by
        intro hb
        obtain ⟨a, ha, hgroup⟩ := Option.bind_eq_some_iff.mp hb
        rw [hrole a ha, Option.map_some, Option.some.injEq] at hgroup
        exact hname hgroup.symm
      rw [if_neg hname, hcount, if_neg hother]
  · have hiff : Held.Belongs (held.delete u) v g'.name ↔ held.Belongs v g'.name := by
      rw [belongs_delete, and_iff_right hvu]
    have hsame : (if g'.name = g.name then (f.users g'.name).erase u else f.users g'.name).count v
        = (f.users g'.name).count v := by
      split
      · exact List.count_erase_of_ne hvu
      · rfl
    rw [hsame, hcount]
    exact if_congr hiff.symm rfl rfl

/-- A user is taken out of the groups of all roles. -/
theorem leave (h : HoldsGroups foreign held f) (pairs : Pairs) (u : String) :
  HoldsGroups foreign (held.delete u) (LinuxFile.leave pairs.roleGroups f u)
  := by
  have heffect := f.effect_leave pairs.roleGroups u
  refine ⟨h.current.effect heffect, ?_⟩
  intro g' hg' v hv
  have hcount := h.count g' hg' v hv
  have htimes := one_le_roleTimes hg'
  rw [users_effect heffect (fun k => eraseTimes_of_not_mem _ List.not_mem_nil), times_pairs,
    count_eraseTimes, hcount]
  by_cases hvu : v = u
  · subst hvu
    have hnot : ¬ Held.Belongs (held.delete v) v g'.name := fun hb => (belongs_delete.mp hb).1 rfl
    rw [if_neg hnot, if_pos rfl]
    split <;> omega
  · have hiff : Held.Belongs (held.delete u) v g'.name ↔ held.Belongs v g'.name := by
      rw [belongs_delete, and_iff_right hvu]
    rw [if_neg hvu, Nat.sub_zero]
    exact if_congr hiff.symm rfl rfl

theorem count_join (users : List String) (u v : String) :
  (join users u).count v = if v = u then max (users.count v) 1 else users.count v
  := by
  unfold join
  by_cases hmem : u ∈ users
  · rw [if_pos hmem]
    split
    case isTrue hvu =>
      subst hvu
      exact (Nat.max_eq_left (List.count_pos_iff.mpr hmem)).symm
    case isFalse => rfl
  · rw [if_neg hmem, List.count_append, List.count_singleton]
    by_cases hvu : v = u
    · subst hvu
      simp [List.count_eq_zero_of_not_mem hmem]
    · simp [hvu, Ne.symm hvu]

/-- A user joins the group of the role, if no other role is known. -/
theorem addUser (h : HoldsGroups foreign held f) {a : AccountLine} {g : RoleGroup}
    (hg : roleGroup a.role = some g) (hrole : ∀ b ∈ held.get a.userName, b.role = a.role) :
  HoldsGroups foreign (held.append a)
    (f.addUser a.userName g.gid g.name (baseGroupName g.gid))
  := by
  have hbase := baseGroupName_of_mem (mem_roleGroupMap_of_roleGroup hg)
  have hjoins := f.joins_addUser (u := a.userName) g.gid hbase
  refine ⟨h.current.addUser hbase, ?_⟩
  intro g' hg' v hv
  have hcount := h.count g' hg' v hv
  rw [hjoins.users]
  by_cases hva : v = a.userName
  · subst hva
    by_cases hname : g'.name = g.name
    · have hin : Held.Belongs (held.append a) a.userName g'.name :=
        (belongs_append hg).mpr (Or.inl ⟨rfl, hname.symm⟩)
      rw [if_pos hname, count_join, if_pos rfl, hcount, if_pos hin]
      split <;> rfl
    · have hout : ¬ Held.Belongs (held.append a) a.userName g'.name := by
        rw [belongs_append hg]
        rintro (⟨-, heq⟩ | ⟨hne, -⟩)
        · exact hname heq.symm
        · exact hne rfl
      have hother : ¬ held.Belongs a.userName g'.name := by
        intro hb
        obtain ⟨b, hbget, hgroup⟩ := Option.bind_eq_some_iff.mp hb
        rw [hrole b hbget, hg, Option.map_some, Option.some.injEq] at hgroup
        exact hname hgroup.symm
      rw [if_neg hname, hcount, if_neg hother, if_neg hout]
  · have hiff : Held.Belongs (held.append a) v g'.name ↔ held.Belongs v g'.name := by
      rw [belongs_append hg]
      simp [hva]
    have hsame : (if g'.name = g.name then join (f.users g'.name) a.userName
        else f.users g'.name).count v = (f.users g'.name).count v := by
      split
      · rw [count_join, if_neg hva]
      · rfl
    rw [hsame, hcount]
    exact if_congr hiff.symm rfl rfl

/-- What is read when the file has been saved. -/
theorem load_save (h : HoldsGroups foreign held f) :
  HoldsGroups foreign held (LinuxFile.load groupFile f.save.lines)
  := by
  have hclean : f.save.datas.isDirty = false := f.isDirty_save
  refine ⟨Current.load (h.save.current.clean hclean).2, ?_⟩
  intro g hg u hu
  rw [h.save.current.users_load hclean]
  exact h.save.count g hg u hu

end HoldsGroups

end Linux

end BmcAccount
