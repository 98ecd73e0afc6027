import BmcAccount.Lib.KeyedView
import BmcAccount.Linux.UserFiles
import BmcAccount.Linux.Members

/-!
# What a file says of a name

A file of users says something of each name: the part of its entry that survives when the entry is
written and read again. `Tells` is a file that has at most one line for a name and says what is
expected of it, except for foreign names, of which nothing is said. It stays so under edits
(`Tells.run`), whether these make the file be written or not.

The file of groups is `Current` if reading it again gives the groups that are held in memory.
-/

namespace BmcAccount

namespace Linux

open Keyed

/-! ## Files of users -/

/-- A part of an entry survives if it is the same in the entry that is read from its line, and in an
entry that is not worth replacing. -/
structure Format.Survives {α V : Type} (F : Format Line α) (part : α → V) (good : α → Prop) :
    Prop where
  read : ∀ d, good d → ∃ d', F.lineToData (F.dataToLine d) = some d' ∧ good d' ∧ part d' = part d
  same : ∀ own d, good own → F.equals own d = true → part own = part d

theorem survives_passwdFile :
  passwdFile.Survives id PasswdUser.IsNumbered
  where
  read d h := ⟨d, h.read, h, rfl⟩
  same _ _ h heq := h.eq_of_equals heq

theorem survives_shadowFile :
  shadowFile.Survives ShadowUser.password fun _ => True
  where
  read d _ := ⟨d.reread, d.read, trivial, rfl⟩
  same _ _ _ heq := password_of_equals heq

/-- A file has one line at most for a name that is not foreign, and says of it what the view
tells. -/
structure Tells {α V : Type} (F : Format Line α) (part : α → V) (good : α → Prop)
    (foreign : String → Prop) (lines : List Line) (view : String → Option V) : Prop where
  read : ∀ l ∈ lines, ∃ d, F.lineToData l = some d ∧ good d
  one : ∀ k, ¬ foreign k → lines.countP (·.name = k) ≤ 1
  get : ∀ k, ¬ foreign k → ((LinuxFile.load F lines).get k).map part = view k

namespace Tells

variable {α V : Type} {F : Format Line α} {part : α → V} {good : α → Prop}
  {foreign : String → Prop} {lines : List Line} {view view' : String → Option V}

theorem isSome (h : Tells F part good foreign lines view) :
  ∀ l ∈ lines, (F.lineToData l).isSome = true
  := by
  intro l hl
  obtain ⟨d, hd, -⟩ := h.read l hl
  rw [hd, Option.isSome_some]

theorem congr (h : Tells F part good foreign lines view)
    (hview : ∀ k, ¬ foreign k → view k = view' k) :
  Tells F part good foreign lines view'
  where
  read := h.read
  one := h.one
  get k hk := (h.get k hk).trans (hview k hk)

theorem good_load (h : Tells F part good foreign lines view) :
  ∀ d ∈ (LinuxFile.load F lines).datas.entries, good d
  := by
  intro d hd
  obtain ⟨l, hl, hdata⟩ := List.mem_filterMap.mp (mem_of_mem_firsts hd).1
  obtain ⟨d', hd', hgood⟩ := h.read l hl
  rw [hdata, Option.some.injEq] at hd'
  exact hd' ▸ hgood

/-- The edits of a file: what is put is good, and replaces what is there or is foreign. -/
def Fits (F : Format Line α) (good : α → Prop) (foreign : String → Prop)
    (es : List (Edit α String)) : Prop :=
  ∀ d overwrite, .put d overwrite ∈ es → good d ∧ (overwrite = true ∨ foreign (F.dataKey d))

theorem good_run (h : Tells F part good foreign lines view) {es : List (Edit α String)}
    (hes : Fits F good foreign es) :
  ∀ d ∈ ((LinuxFile.load F lines).run es).datas.entries, good d
  := by
  intro d hd
  rcases Book.mem_entries_run hd with hd | ⟨overwrite, hput⟩
  · exact h.good_load d hd
  · exact (hes d overwrite hput).1

/-- What the entries of a file say once they have been written. -/
theorem map_get_written (hF : F.Named) (hsurvives : F.Survives part good) {b : Book F.dataKey}
    (hgood : ∀ d ∈ b.entries, good d) (k : String) :
  ((LinuxFile.load F (b.entries.map F.dataToLine)).get k).map part = (b.get k).map part
  := by
  have hread : ∀ l ∈ b.entries.map F.dataToLine, (F.lineToData l).isSome = true := by
    intro _ hmem
    obtain ⟨d, hd, rfl⟩ := List.mem_map.mp hmem
    obtain ⟨d', hd', -⟩ := hsurvives.read d (hgood d hd)
    rw [hd', Option.isSome_some]
  rw [LinuxFile.get, get_load hF hread, ← List.head?_filter]
  cases hget : b.get k with
  | none =>
    have hcount := countP_name hF b k
    rw [hget, Option.isSome_none, if_neg Bool.false_ne_true, List.countP_eq_length_filter,
      List.length_eq_zero_iff] at hcount
    rw [hcount]
    rfl
  | some d =>
    obtain ⟨d', hd', -, hpart⟩ := hsurvives.read d (hgood d (Book.get_eq_some.mp hget).1)
    rw [filter_name_map hF hget, List.head?_cons, Option.bind_some, hd', Option.map_some, hpart]
    rfl

/-- A file that has been edited and saved. -/
theorem run (hF : F.Named) (hsurvives : F.Survives part good)
    (h : Tells F part good foreign lines view) {es : List (Edit α String)}
    (hes : Fits F good foreign es) :
  Tells F part good foreign ((LinuxFile.load F lines).run es).save.lines
    (runView F.dataKey part view es)
  := by
  have hview : ∀ k, ¬ foreign k → (((LinuxFile.load F lines).run es).get k).map part
      = runView F.dataKey part view es k := by
    intro k hk
    rw [LinuxFile.get_run, Book.map_get_run hsurvives.same h.good_load hes hk]
    exact runView_congr (h.get k hk) es
  by_cases hd : Rewritten F lines es
  · rw [lines_saved_of_rewritten hd]
    exact {
      read := fun _ hmem => by
        obtain ⟨d, hd, rfl⟩ := List.mem_map.mp hmem
        obtain ⟨d', hd', hgood, -⟩ := hsurvives.read d (h.good_run hes d hd)
        exact ⟨d', hd', hgood⟩
      one := fun k _ => by
        rw [countP_name hF]
        split
        · exact Nat.le_refl 1
        · exact Nat.zero_le 1
      get := fun k hk =>
        (map_get_written hF hsurvives (h.good_run hes) k).trans (hview k hk) }
  · have hsame : ((LinuxFile.load F lines).run es).datas = (LinuxFile.load F lines).datas :=
      Book.run_of_not_touches fun e he ht => hd ⟨e, he, ht⟩
    rw [lines_saved_of_not_rewritten hd]
    refine ⟨h.read, h.one, ?_⟩
    intro k hk
    rw [← hview k hk, LinuxFile.get, LinuxFile.get, hsame]

/-- A name with an entry has one line. -/
theorem countP_eq_one (hF : F.Named) (h : Tells F part good foreign lines view) {k : String}
    (hk : ¬ foreign k) {v : V} (hv : view k = some v) :
  ∃ d, (LinuxFile.load F lines).get k = some d ∧ part d = v
    ∧ lines.countP (·.name = k) = 1
  := by
  obtain ⟨d, hd, hpart⟩ := Option.map_eq_some_iff.mp ((h.get k hk).trans hv)
  obtain ⟨l, hl, hname⟩ := countP_pos_of_get hF h.isSome (Option.isSome_of_eq_some hd)
  have hpos : 0 < lines.countP (·.name = k) :=
    List.countP_pos_iff.mpr ⟨l, hl, by simpa using hname⟩
  exact ⟨d, hd, hpart, Nat.le_antisymm (h.one k hk) hpos⟩

end Tells

/-! ## The file of groups -/

/-- Groups in memory are those that reading the file again would give, unless they are still to be
written, and the file has no group twice. -/
structure Current (f : LinuxFile groupFile) : Prop where
  plain : PlainGroups f
  clean : f.datas.isDirty = false →
    (LinuxFile.load groupFile f.lines).datas.entries = f.datas.entries
      ∧ (f.lines.map GroupLine.groupName).Nodup

namespace Current

variable {f f' : LinuxFile groupFile} {T : String → List String → List String}

theorem load {lines : List GroupLine} (h : (lines.map GroupLine.groupName).Nodup) :
  Current (LinuxFile.load groupFile lines)
  :=
  ⟨plainGroups_load lines, fun _ => ⟨rfl, h⟩⟩

theorem effect (h : Current f) (heffect : Effect f f' T) :
  Current f'
  where
  plain := heffect.plainGroups h.plain
  clean hclean := by
    have hsame := heffect.same hclean
    rw [hsame] at hclean ⊢
    exact h.clean hclean

theorem createGroup (h : Current f) (g : String) (gid : ℕ) :
  Current (f.createGroup g gid)
  where
  plain := plainGroups_createGroup h.plain g gid
  clean hclean := by
    have hnot : ¬ f.datas.Touches groupFile.equals (.put ⟨g, .num gid, []⟩ false) := by
      intro ht
      have hdirty : (f.createGroup g gid).datas.isDirty = true :=
        (Book.edit_isDirty _).mpr (Or.inr ht)
      rw [hclean] at hdirty
      exact Bool.false_ne_true hdirty
    have hsame : f.createGroup g gid = f := by
      unfold LinuxFile.createGroup LinuxFile.addItem LinuxFile.edit
      rw [Book.edit_of_not_touches hnot]
    rw [hsame] at hclean ⊢
    exact h.clean hclean

theorem addUser (h : Current f) {u g : String} {gid : ℕ} {base : Option String}
    (hbase : base.getD g = g) :
  Current (f.addUser u gid g base)
  := by
  rw [f.addUser_eq hbase]
  exact (h.createGroup g gid).effect (LinuxFile.effect_insertUser _ u g)

theorem save (h : Current f) :
  Current f.save
  := by
  by_cases hd : f.datas.isDirty = true
  · refine ⟨?_, fun _ => ⟨?_, ?_⟩⟩
    · intro e he
      rw [LinuxFile.entries_save] at he
      exact h.plain e he
    · rw [entries_load_lines f hd fun e he => read_of_isPlain (h.plain e he),
        LinuxFile.entries_save]
    · rw [LinuxFile.lines_save, if_pos hd, List.map_map]
      exact f.datas.nodup
  · have hsave : f.save = f := by
      rw [LinuxFile.save, if_neg hd]
    rw [hsave]
    exact h

/-- The members of a group in a file that has been saved. -/
theorem users_load (h : Current f) (hclean : f.datas.isDirty = false) (k : String) :
  (LinuxFile.load groupFile f.lines).users k = f.users k
  := by
  unfold LinuxFile.users LinuxFile.get Book.get
  rw [(h.clean hclean).1]

end Current

/-- In a file without a group twice, who is listed in a group is a member of it. -/
theorem listed_iff_of_nodup {files : Files} (h : (files.group.map GroupLine.groupName).Nodup)
    {u k : String} :
  Listed files u k ↔ u ∈ (LinuxFile.load groupFile files.group).users k
  := by
  have hlines : (files.group.filterMap groupFile.lineToData).map groupFile.dataKey
      = files.group.map GroupLine.groupName := by
    rw [List.map_filterMap, ← List.filterMap_eq_map]
    rfl
  have hentries := Book.entries_ofList_of_nodup (hlines ▸ h)
  constructor
  · rintro ⟨l, hl, rfl, hu⟩
    have hmem : GroupEntry.mk l.groupName (tonumber l.groupId) l.users
        ∈ (LinuxFile.load groupFile files.group).datas.entries := by
      rw [LinuxFile.load, hentries]
      exact List.mem_filterMap.mpr ⟨l, hl, rfl⟩
    have hget : (LinuxFile.load groupFile files.group).get l.groupName = some _ :=
      Book.get_eq_some.mpr ⟨hmem, rfl⟩
    rw [LinuxFile.users_of_get _ hget]
    exact hu
  · intro hu
    cases hget : (LinuxFile.load groupFile files.group).get k with
    | none => simp [LinuxFile.users, hget] at hu
    | some e =>
      rw [LinuxFile.users_of_get _ hget] at hu
      obtain ⟨he, rfl⟩ := Book.get_eq_some.mp hget
      rw [LinuxFile.load, hentries] at he
      obtain ⟨l, hl, hdata⟩ := List.mem_filterMap.mp he
      obtain rfl := Option.some.inj hdata
      exact ⟨l, hl, rfl, hu⟩

end Linux

end BmcAccount
