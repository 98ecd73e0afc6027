import Mathlib

/-!
# Tables

A table is a finite map with an order in which it is listed. `Table.map` changes every
value in place, `Table.modify` the value of one key, and `Table.count` counts the entries
that satisfy a predicate. A lookup determines each of them: what `map` and `modify` do to
a key, and when a count is at most one.
-/

/-- Finite maps from `K` to `V`, listed in some order. -/
abbrev Table (K V : Type) : Type := AList fun _ : K => V

namespace Table

variable {K V : Type}

/-- The table with every value changed by `f`, which also sees the key. -/
def map (f : K → V → V) (t : Table K V) : Table K V where
  entries := t.entries.map fun e => ⟨e.1, f e.1 e.2⟩
  nodupKeys := by
    have h : (t.entries.map fun e => (⟨e.1, f e.1 e.2⟩ : Sigma fun _ : K => V)).keys
        = t.entries.keys := by
      simp [List.keys, Function.comp_def]
    unfold List.NodupKeys
    rw [h]
    exact t.nodupKeys

@[simp]
theorem keys_map (f : K → V → V) (t : Table K V) :
  (t.map f).keys = t.keys
  := by
  simp [AList.keys, map, List.keys, Function.comp_def]

variable [DecidableEq K]

/-- The table with the value of `k`, if there is one, changed by `f`. -/
def modify (k : K) (f : V → V) (t : Table K V) : Table K V :=
  t.map fun k' v => if k' = k then f v else v

/-- The number of entries of the table that satisfy `p`. -/
def count (p : K → V → Bool) (t : Table K V) : ℕ :=
  (t.entries.filter fun e => p e.1 e.2).length

@[simp]
theorem keys_modify (k : K) (f : V → V) (t : Table K V) :
  (t.modify k f).keys = t.keys
  := keys_map _ t

@[simp]
theorem mem_modify (k k' : K) (f : V → V) (t : Table K V) :
  k' ∈ t.modify k f ↔ k' ∈ t
  := by
  rw [AList.mem_keys, AList.mem_keys, keys_modify]

@[simp]
theorem lookup_map (f : K → V → V) (t : Table K V) (k : K) :
  (t.map f).lookup k = (t.lookup k).map (f k)
  := by
  obtain ⟨l, hl⟩ := t
  simp only [AList.lookup, map]
  clear hl
  induction l with
  | nil => rfl
  | cons e l ih =>
    obtain ⟨k', v⟩ := e
    by_cases h : k = k'
    · subst h
      simp
    · simp [List.dlookup_cons_ne, h, ih]

@[simp]
theorem lookup_modify_self (k : K) (f : V → V) (t : Table K V) :
  (t.modify k f).lookup k = (t.lookup k).map f
  := by
  simp [modify]

theorem lookup_modify_ne {k k' : K} (h : k' ≠ k) (f : V → V) (t : Table K V) :
  (t.modify k f).lookup k' = t.lookup k'
  := by
  simp [modify, h]

theorem mem_entries_iff {t : Table K V} {k : K} {v : V} :
  (⟨k, v⟩ : Sigma fun _ : K => V) ∈ t.entries ↔ t.lookup k = some v
  := AList.mem_lookup_iff.symm

theorem modify_modify (k : K) (f g : V → V) (t : Table K V) :
  (t.modify k f).modify k g = t.modify k (g ∘ f)
  := by
  apply AList.ext
  simp only [modify, map, List.map_map]
  apply List.map_congr_left
  rintro ⟨k', v⟩ -
  by_cases hk : k' = k
  · simp [hk]
  · simp [hk]

/-- What `modify` does to a table depends only on the value of the key. -/
theorem modify_congr {t : Table K V} {k : K} {v : V} {f g : V → V} (h : t.lookup k = some v)
    (hfg : f v = g v) :
  t.modify k f = t.modify k g
  := by
  apply AList.ext
  simp only [modify, map]
  apply List.map_congr_left
  rintro ⟨k', v'⟩ he
  by_cases hk : k' = k
  · subst hk
    rw [mem_entries_iff.mp he] at h
    simp [Option.some_inj.mp h, hfg]
  · simp [hk]

/-- Giving a key the value that it has changes nothing. -/
theorem modify_const {t : Table K V} {k : K} {v : V} (h : t.lookup k = some v) :
  (t.modify k fun _ => v) = t
  := by
  rw [modify_congr (f := fun _ => v) (g := id) h rfl]
  apply AList.ext
  simp [modify, map]

/-- Changing the values of keys one after the other leaves every other key alone. -/
theorem lookup_foldl_modify_of_notMem {A : Type} (key : A → K) (f : A → V → V) (l : List A)
    (t : Table K V) {k : K} (hk : k ∉ l.map key) :
  (l.foldl (fun t a => t.modify (key a) (f a)) t).lookup k = t.lookup k
  := by
  induction l generalizing t with
  | nil => rfl
  | cons a l ih =>
    rw [List.map_cons, List.mem_cons, not_or] at hk
    rw [List.foldl_cons, ih _ hk.2, lookup_modify_ne hk.1]

/-- Changing the values of different keys one after the other changes each of them once. -/
theorem lookup_foldl_modify_of_mem {A : Type} (key : A → K) (f : A → V → V) {l : List A}
    (hl : (l.map key).Nodup) (t : Table K V) {a : A} (ha : a ∈ l) :
  (l.foldl (fun t a => t.modify (key a) (f a)) t).lookup (key a)
    = (t.lookup (key a)).map (f a)
  := by
  induction l generalizing t with
  | nil => simp at ha
  | cons b l ih =>
    rw [List.map_cons, List.nodup_cons] at hl
    rw [List.foldl_cons]
    rcases List.mem_cons.mp ha with rfl | ha
    · rw [lookup_foldl_modify_of_notMem key f l _ hl.1, lookup_modify_self]
    · have hne : key a ≠ key b := by
        intro h
        apply hl.1
        rw [← h]
        apply List.mem_map_of_mem ha
      rw [ih hl.2 _ ha, lookup_modify_ne hne]

theorem erase_of_lookup_eq_none {t : Table K V} {k : K} (h : t.lookup k = none) :
  t.erase k = t
  := by
  apply AList.ext
  exact List.kerase_of_notMem_keys (AList.lookup_eq_none.mp h)

/-- A change of the value of a key is lost when the key is erased. -/
theorem erase_modify (k : K) (f : V → V) (t : Table K V) :
  (t.modify k f).erase k = t.erase k
  := by
  obtain ⟨l, hl⟩ := t
  apply AList.ext
  simp only [AList.erase, modify, map]
  induction l with
  | nil => rfl
  | cons e l ih =>
    obtain ⟨hnotin, hl⟩ := List.nodupKeys_cons.mp hl
    rw [List.map_cons]
    by_cases he : k = e.1
    · rw [List.kerase_cons_eq (s := e) he, List.kerase_cons_eq (by exact he)]
      conv_rhs => rw [← List.map_id l]
      apply List.map_congr_left
      intro e' he'
      have hne : ¬ e'.1 = k := by
        intro hsame
        apply hnotin
        rw [← he, ← hsame]
        exact List.mem_keys_of_mem he'
      simp [hne]
    · rw [List.kerase_cons_ne (s := e) he, List.kerase_cons_ne (by exact he), ih hl,
        if_neg (Ne.symm he)]

/-- The table with `k` given a value, or without `k` when there is none: an assignment in a
language where absent keys read as a null value. -/
def assign (k : K) (v : Option V) (t : Table K V) : Table K V :=
  match v with
  | none => t.erase k
  | some v => t.insert k v

theorem lookup_assign (k k' : K) (v : Option V) (t : Table K V) :
  (t.assign k v).lookup k' = if k' = k then v else t.lookup k'
  := by
  by_cases h : k' = k
  · subst h
    cases v with
    | none => simp [assign, AList.lookup_erase]
    | some v => simp [assign]
  · cases v with
    | none => simp [assign, h, AList.lookup_erase_ne h]
    | some v => simp [assign, h, AList.lookup_insert_ne h]

theorem keys_eq_nil_iff {t : Table K V} :
  t.keys = [] ↔ ∀ k, t.lookup k = none
  := by
  constructor
  · intro h k
    rw [AList.lookup_eq_none, AList.mem_keys, h]
    exact List.not_mem_nil
  · intro h
    rw [List.eq_nil_iff_forall_not_mem]
    intro k hk
    exact (AList.lookup_eq_none.mp (h k)) (AList.mem_keys.mpr hk)

theorem count_pos {p : K → V → Bool} {t : Table K V} {k : K} {v : V}
    (hk : t.lookup k = some v) (hp : p k v = true) :
  0 < t.count p
  := List.length_pos_of_mem (List.mem_filter.mpr ⟨mem_entries_iff.mpr hk, hp⟩)

/-- An entry that satisfies `p` is the only one exactly when at most one entry does. -/
theorem count_le_one_iff {p : K → V → Bool} {t : Table K V} {k : K} {v : V}
    (hk : t.lookup k = some v) (hp : p k v = true) :
  t.count p ≤ 1 ↔ ∀ k' v', t.lookup k' = some v' → p k' v' = true → k' = k
  := by
  have hmem : (⟨k, v⟩ : Sigma fun _ : K => V) ∈ t.entries.filter fun e => p e.1 e.2 :=
    List.mem_filter.mpr ⟨mem_entries_iff.mpr hk, hp⟩
  constructor
  · intro h k' v' hk' hp'
    have hmem' : (⟨k', v'⟩ : Sigma fun _ : K => V) ∈ t.entries.filter fun e => p e.1 e.2 :=
      List.mem_filter.mpr ⟨mem_entries_iff.mpr hk', hp'⟩
    have heq := List.length_eq_one_iff.mp
      (le_antisymm h (List.length_pos_of_mem hmem))
    obtain ⟨e, he⟩ := heq
    rw [he, List.mem_singleton] at hmem hmem'
    have := hmem'.trans hmem.symm
    exact congrArg Sigma.fst this
  · intro h
    have hnodup : (t.entries.filter fun e => p e.1 e.2).Nodup :=
      (List.NodupKeys.nodup t.nodupKeys).filter _
    have hall : ∀ e ∈ t.entries.filter fun e => p e.1 e.2, e = ⟨k, v⟩ := by
      rintro ⟨k', v'⟩ he
      obtain ⟨he, hp'⟩ := List.mem_filter.mp he
      have hk' := mem_entries_iff.mp he
      obtain rfl := h k' v' hk' hp'
      rw [hk] at hk'
      rw [Option.some_inj.mp hk']
    have hsub : (t.entries.filter fun e => p e.1 e.2) ⊆ [⟨k, v⟩] := by
      intro e he
      rw [hall e he]
      exact List.mem_singleton_self _
    exact (List.subperm_of_subset hnodup hsub).length_le

end Table
