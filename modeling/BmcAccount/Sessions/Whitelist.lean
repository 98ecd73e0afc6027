import BmcAccount.Lib.Raise
import BmcAccount.Lib.Run
import BmcAccount.Lib.Table

/-!
# The whitelist between chassis

The items of a whitelist are kept in memory under the identifiers of their rows in the database,
which are read back when the service starts. Adding an item creates its row, and removing it deletes
the row; but removing all of them at once only forgets those in memory. `run_law_iff` says that this
is the only way in which the two come apart.
-/

namespace BmcAccount

namespace Whitelist

open Raise

/-- `MAX_WHITELIST_COUNT`. -/
def maxWhitelistCount : ℕ := 10

/-- The errors of a whitelist. -/
inductive Err where
  | propertyValueFormatError (item : String)
  | createLimitReachedForResource
deriving DecidableEq

/-- The whitelist in memory, under the identifiers, and the rows of the database, under their types
and identifiers. -/
structure State where
  whitelist : Table ℕ String
  rows : Table (String × ℕ) String

/-- Programs of a whitelist. -/
abbrev WhitelistM (α : Type) : Type := Prog Err State α

/-- The whitelist of a type that `init` reads from the rows. -/
def reload (type : String) (rows : Table (String × ℕ) String) : Table ℕ String :=
  rows.entries.foldl (fun collection row =>
    if row.1.1 = type then collection.insert row.1.2 row.2 else collection) ∅

/-- `init`. -/
def init (type : String) (rows : Table (String × ℕ) String) : State := ⟨reload type rows, rows⟩

/-- `check_id_exist`. -/
def State.checkIdExist (s : State) (input : String) : Option ℕ :=
  (s.whitelist.entries.find? fun item => input = item.2).map (·.1)

/-- `find_unused_id`. -/
def State.findUnusedId (s : State) : Option ℕ :=
  (List.range' 1 maxWhitelistCount).find? fun i => (s.whitelist.lookup i).isNone

/-- What a whitelist is built on: its type, and what becomes of a row that is created a second
time. -/
structure Env where
  type : String
  recreate : String → String → String

/-- The item that the row of an identifier holds after it has been created. -/
def Env.created (env : Env) (s : State) (id : ℕ) (item : String) : String :=
  ((s.rows.lookup (env.type, id)).map fun old => env.recreate old item).getD item

/-- A row is created, and is in the whitelist. -/
def State.create (env : Env) (id : ℕ) (item : String) (s : State) : State where
  whitelist := s.whitelist.insert id (env.created s id item)
  rows := s.rows.insert (env.type, id) (env.created s id item)

/-- A row is deleted, and is not in the whitelist any more. -/
def State.delete (env : Env) (id : ℕ) (s : State) : State where
  whitelist := s.whitelist.erase id
  rows := s.rows.erase (env.type, id)

/-- The end of `add`. -/
def addNew (env : Env) (item : String) : Option ℕ → WhitelistM Unit
  | none => throw .createLimitReachedForResource
  | some id => modify (State.create env id item)

/-- `add`. -/
def add (env : Env) (item : String) : WhitelistM Unit := do
  refuse (item = "" || item = "*") (.propertyValueFormatError item)
  let s ← get
  onlyIf (s.checkIdExist item).isNone (addNew env item s.findUnusedId)

/-- `remove`. -/
def remove (env : Env) (item : String) : WhitelistM Unit := do
  refuse (item = "") (.propertyValueFormatError "")
  if item = "*" then modify fun s => { s with whitelist := ∅ }
  else do
    let s ← get
    match s.checkIdExist item with
    | none => pure ()
    | some id => modify (State.delete env id)

/-- The calls. -/
inductive Call where
  | add (item : String)
  | remove (item : String)

/-- The state after a call, whether it returns or raises. -/
def step (env : Env) (s : State) : Call → State
  | .add item => after (Whitelist.add env item) s
  | .remove item => after (Whitelist.remove env item) s

/-! ## The law -/

/-- No item is in the table twice. -/
def Distinct (t : Table ℕ String) : Prop :=
  ∀ i j item, t.lookup i = some item → t.lookup j = some item → i = j

/-- The whitelist is the one that would be read from the rows, holds no item twice, and no more items
than it may. -/
structure State.Law (type : String) (s : State) : Prop where
  reloaded : ∀ id, s.whitelist.lookup id = (reload type s.rows).lookup id
  distinct : Distinct s.whitelist
  bounded : s.whitelist.keys.length ≤ maxWhitelistCount

/-- All items are removed at once only where there are none; an item is not added to a whitelist that
is full of items with identifiers that are never given. -/
def State.Keeps (s : State) : Call → Prop
  | .add item => item ≠ "" → item ≠ "*" → s.checkIdExist item = none →
    s.findUnusedId.isSome → s.whitelist.keys.length < maxWhitelistCount
  | .remove item => item = "*" → s.whitelist.keys = []

/-! ## Reading the rows -/

theorem lookup_foldl_insert (type : String) (l : List (Sigma fun _ : String × ℕ => String))
    (hl : l.NodupKeys) (acc : Table ℕ String) (id : ℕ) :
  (l.foldl (fun collection row =>
      if row.1.1 = type then collection.insert row.1.2 row.2 else collection) acc).lookup id
    = (l.dlookup (type, id)).or (acc.lookup id)
  := by
  induction l generalizing acc with
  | nil => rfl
  | cons row l ih =>
    obtain ⟨⟨t, i⟩, item⟩ := row
    obtain ⟨hnotin, hrest⟩ := List.nodupKeys_cons.mp hl
    rw [List.foldl_cons, ih hrest]
    by_cases hkey : (type, id) = (t, i)
    · obtain ⟨rfl, rfl⟩ := Prod.mk.inj hkey
      have hnone : l.dlookup (type, id) = none := List.dlookup_eq_none.mpr hnotin
      simp [hnone]
    · rw [List.dlookup_cons_ne _ _ hkey]
      congr 1
      by_cases ht : t = type
      · have hid : id ≠ i := by
          rintro rfl
          exact hkey (by rw [ht])
        rw [if_pos ht, AList.lookup_insert_ne hid]
      · rw [if_neg ht]

@[simp]
theorem lookup_reload (type : String) (rows : Table (String × ℕ) String) (id : ℕ) :
  (reload type rows).lookup id = rows.lookup (type, id)
  := by
  unfold reload
  rw [lookup_foldl_insert type rows.entries rows.nodupKeys]
  exact Option.or_none

section Law

variable {env : Env} {s : State}

theorem checkIdExist_eq_none {item : String} :
  s.checkIdExist item = none ↔ ∀ id, s.whitelist.lookup id ≠ some item
  := by
  unfold State.checkIdExist
  rw [Option.map_eq_none_iff, List.find?_eq_none]
  constructor
  · intro h id hid
    apply h ⟨id, item⟩ (Table.mem_entries_iff.mpr hid)
    simp
  · rintro h ⟨id, item'⟩ he
    have hid := Table.mem_entries_iff.mp he
    rw [decide_eq_true_eq]
    rintro rfl
    exact h id hid

theorem lookup_of_findUnusedId {id : ℕ} (h : s.findUnusedId = some id) :
  s.whitelist.lookup id = none
  := by
  have hnone := List.find?_some h
  exact Option.isNone_iff_eq_none.mp hnone

/-- A new item under a free identifier. -/
theorem State.Law.create_iff (h : s.Law env.type) {id : ℕ} {item : String}
    (hid : s.whitelist.lookup id = none) (hnew : ∀ i, s.whitelist.lookup i ≠ some item) :
  (s.create env id item).Law env.type ↔ s.whitelist.keys.length < maxWhitelistCount
  := by
  have hrow : s.rows.lookup (env.type, id) = none := by
    rw [← lookup_reload, ← h.reloaded, hid]
  have hitem : env.created s id item = item := by
    simp [Env.created, hrow]
  have hlength : (s.create env id item).whitelist.keys.length = s.whitelist.keys.length + 1 := by
    have hnotin : id ∉ s.whitelist.keys := AList.lookup_eq_none.mp hid
    simp [State.create, AList.keys_insert, List.erase_of_not_mem hnotin]
  constructor
  · intro h'
    have hle := h'.bounded
    omega
  · intro hlt
    refine ⟨fun i => ?_, fun i j item' hi hj => ?_, by omega⟩
    · rw [lookup_reload]
      change (s.whitelist.insert id _).lookup i = (s.rows.insert (env.type, id) _).lookup (env.type, i)
      by_cases hi : i = id
      · rw [hi, AList.lookup_insert, AList.lookup_insert]
      · have hkey : (env.type, i) ≠ (env.type, id) := fun heq => hi (Prod.mk.inj heq).2
        rw [AList.lookup_insert_ne hi, AList.lookup_insert_ne hkey, h.reloaded, lookup_reload]
    · have hcreated (k : ℕ) (hk : k ≠ id) :
          (s.create env id item).whitelist.lookup k = s.whitelist.lookup k :=
        AList.lookup_insert_ne hk
      have hself : (s.create env id item).whitelist.lookup id = some item := by
        change (s.whitelist.insert id (env.created s id item)).lookup id = some item
        rw [hitem, AList.lookup_insert]
      by_cases hid₁ : i = id <;> by_cases hid₂ : j = id
      · rw [hid₁, hid₂]
      · rw [hcreated j hid₂] at hj
        rw [hid₁, hself] at hi
        exact absurd (hj.trans hi.symm) (hnew j)
      · rw [hcreated i hid₁] at hi
        rw [hid₂, hself] at hj
        exact absurd (hi.trans hj.symm) (hnew i)
      · rw [hcreated i hid₁] at hi
        rw [hcreated j hid₂] at hj
        exact h.distinct i j item' hi hj

theorem State.Law.delete (h : s.Law env.type) (id : ℕ) :
  (s.delete env id).Law env.type
  where
    reloaded i := by
      rw [lookup_reload]
      change (s.whitelist.erase id).lookup i = (s.rows.erase (env.type, id)).lookup (env.type, i)
      by_cases hi : i = id
      · rw [hi, AList.lookup_erase, AList.lookup_erase]
      · have hkey : (env.type, i) ≠ (env.type, id) := fun heq => hi (Prod.mk.inj heq).2
        rw [AList.lookup_erase_ne hi, AList.lookup_erase_ne hkey, h.reloaded, lookup_reload]
    distinct i j item hi hj := by
      have hkept (k : ℕ) (hk : (s.whitelist.erase id).lookup k = some item) :
          s.whitelist.lookup k = some item := by
        by_cases hid : k = id
        · rw [hid, AList.lookup_erase] at hk
          cases hk
        · rwa [AList.lookup_erase_ne hid] at hk
      exact h.distinct i j item (hkept i hi) (hkept j hj)
    bounded := by
      change (s.whitelist.erase id).keys.length ≤ _
      rw [AList.keys_erase]
      exact List.length_erase_le.trans h.bounded

/-- All items are forgotten. -/
theorem State.Law.clear_iff (h : s.Law env.type) :
  State.Law env.type { s with whitelist := ∅ } ↔ s.whitelist.keys = []
  := by
  rw [Table.keys_eq_nil_iff]
  constructor
  · intro h' id
    rw [h.reloaded, ← h'.reloaded id]
    exact AList.lookup_empty id
  · intro hnil
    refine ⟨fun id => ?_, fun i j item hi => ?_, ?_⟩
    · rw [← h.reloaded, hnil]
      exact AList.lookup_empty id
    · change (∅ : Table ℕ String).lookup i = some item at hi
      rw [AList.lookup_empty] at hi
      cases hi
    · exact Nat.zero_le _

/-- A call keeps the law just if it removes all items at once only where there are none. -/
theorem step_law (h : s.Law env.type) (c : Call) :
  (step env s c).Law env.type ↔ s.Keeps c
  := by
  cases c with
  | add item =>
    change (after (add env item) s).Law env.type ↔ _
    unfold add after
    by_cases hitem : item = "" ∨ item = "*"
    · have hguard : (item = "" || item = "*") = true := by simpa using hitem
      rw [hguard, exec_bind_error (exec_refuse_true _ s)]
      refine ⟨fun _ hempty hall => ?_, fun _ => h⟩
      exact (hitem.elim hempty hall).elim
    · have hguard : (item = "" || item = "*") = false := by simpa using hitem
      rw [hguard, exec_bind_ok (exec_refuse_false _ s), exec_bind_ok (exec_get s)]
      rw [not_or] at hitem
      unfold State.Keeps
      simp only [ne_eq, hitem, not_false_eq_true, true_implies]
      cases hexists : s.checkIdExist item with
      | some id => simpa using h
      | none =>
        have hnew := checkIdExist_eq_none.mp hexists
        change (after (addNew env item s.findUnusedId) s).Law env.type ↔ _
        cases hid : s.findUnusedId with
        | none =>
          change s.Law env.type ↔ _
          simpa using h
        | some id =>
          simp only [Option.isSome_some, true_implies]
          exact h.create_iff (lookup_of_findUnusedId hid) hnew
  | remove item =>
    change (after (remove env item) s).Law env.type ↔ _
    unfold remove after
    by_cases hempty : item = ""
    · rw [decide_eq_true hempty, exec_bind_error (exec_refuse_true _ s)]
      refine ⟨fun _ hall => ?_, fun _ => h⟩
      rw [hempty] at hall
      exact absurd hall (by decide)
    · rw [decide_eq_false hempty, exec_bind_ok (exec_refuse_false _ s)]
      by_cases hall : item = "*"
      · rw [if_pos hall]
        exact h.clear_iff.trans ⟨fun hnil _ => hnil, fun hkeeps => hkeeps hall⟩
      · rw [if_neg hall, exec_bind_ok (exec_get s)]
        refine ⟨fun _ h' => absurd h' hall, fun _ => ?_⟩
        cases s.checkIdExist item with
        | none => exact h
        | some id => exact h.delete id

end Law

/-- From what `init` reads from a table with distinct items, and no more than there may be, the
whitelist stays the one that would be read from the rows in exactly the runs in which all items are
removed at once only where there are none. -/
theorem run_law_iff (env : Env) {rows : Table (String × ℕ) String}
    (hdistinct : Distinct (reload env.type rows))
    (hbounded : (reload env.type rows).keys.length ≤ maxWhitelistCount) (l : List Call) :
  (∀ s' ∈ Run.states (step env) (init env.type rows) l, s'.Law env.type)
    ↔ Run.Along (step env) State.Keeps (init env.type rows) l
  := by
  have hs : (init env.type rows).Law env.type := ⟨fun _ => rfl, hdistinct, hbounded⟩
  exact Run.invariant_iff (fun s c h => step_law h c) hs

/-! ### All items removed at once -/

/-- The whitelist of addresses; a row that is created a second time is replaced. -/
def ipEnv : Env := ⟨"IP", fun _ item => item⟩

/-- The rows of two addresses, and of an item of another type. -/
def twoRows : Table (String × ℕ) String :=
  AList.insert ("IP", 1) "192.168.1.2" <|
    AList.insert ("IP", 3) "192.168.1.4" <| AList.insert ("MAC", 1) "00:11:22:33:44:55" ∅

/-- An address takes the place of another one, and one that is not there is removed. -/
def replaceOne : List Call :=
  [.remove "192.168.1.2", .add "192.168.1.9", .remove "192.168.1.7"]

theorem run_law_iff_clear :
  Distinct (reload "IP" twoRows) ∧ (reload "IP" twoRows).keys.length ≤ maxWhitelistCount ∧
    ∀ s' ∈ Run.states (step ipEnv) (init "IP" twoRows) replaceOne, s'.Law "IP"
  := by
  have hmem {i : ℕ} {item : String} (hi : (reload "IP" twoRows).lookup i = some item) :
      i = 1 ∧ item = "192.168.1.2" ∨ i = 3 ∧ item = "192.168.1.4" := by
    rw [lookup_reload] at hi
    have he : (⟨("IP", i), item⟩ : Sigma fun _ : String × ℕ => String) ∈ twoRows.entries :=
      Table.mem_entries_iff.mpr hi
    simpa [twoRows] using he
  have hdistinct : Distinct (reload "IP" twoRows) := by
    intro i j item hi hj
    rcases hmem hi with ⟨rfl, rfl⟩ | ⟨rfl, rfl⟩
    · simpa [eq_comm] using hmem hj
    · simpa [eq_comm] using hmem hj
  have hbounded : (reload "IP" twoRows).keys.length ≤ maxWhitelistCount := by
    decide +kernel
  have hkeeps : Run.Along (step ipEnv) State.Keeps (init "IP" twoRows) replaceOne := by
    refine ⟨fun h => absurd h (by decide), fun _ _ _ _ => ?_, fun h => absurd h (by decide),
      trivial⟩
    decide +kernel
  exact ⟨hdistinct, hbounded, (run_law_iff ipEnv hdistinct hbounded replaceOne).mpr hkeeps⟩

/-- An address is added, and all are removed. -/
def addAndClear : List Call := [.add "192.168.1.2", .remove "*"]

/-- The address comes back when the service starts again. -/
theorem addAndClear_not_law :
  ¬ ∀ s' ∈ Run.states (step ipEnv) (init "IP" ∅) addAndClear, s'.Law "IP"
  := by
  intro h
  have hlast := (h _ (List.getLast_mem (by simp [addAndClear, Run.states]))).reloaded 1
  revert hlast
  decide +kernel

end Whitelist

end BmcAccount
