import Mathlib

/-!
# Records under keys

A book is a list of records with pairwise distinct keys. It is read from a list of records,
edited, and written back if an edit has changed it. An edit puts a record at the end, in place
of the one that has its key, or deletes the record of a key. `same` decides whether a record is
not worth putting because the one that is there says the same.

* `Book.run_isDirty` says that a sequence of edits changes a book if and only if one of them
  changes the book that the sequence starts from.
* `Book.run_filter` says that records with keys that no edit names are left alone.
* `Book.run_puts` and `Book.run_deletes` say what is there after putting or deleting many
  records.
-/

namespace Keyed

variable {α κ : Type} [DecidableEq κ] {key : α → κ}

/-! ## Lists with distinct keys -/

/-- The records of a list whose key has not been seen before. -/
def firsts (key : α → κ) : List κ → List α → List α
  | _, [] => []
  | seen, d :: ds =>
    if key d ∈ seen then firsts key seen ds else d :: firsts key (key d :: seen) ds

theorem mem_of_mem_firsts {seen : List κ} {ds : List α} {d : α} (h : d ∈ firsts key seen ds) :
  d ∈ ds ∧ key d ∉ seen
  := by
  induction ds generalizing seen with
  | nil => exact absurd h List.not_mem_nil
  | cons e ds ih =>
    rw [firsts] at h
    split at h
    case isTrue =>
      obtain ⟨hmem, hseen⟩ := ih h
      exact ⟨List.mem_cons_of_mem _ hmem, hseen⟩
    case isFalse he =>
      rcases List.mem_cons.mp h with rfl | h
      · exact ⟨List.mem_cons_self, he⟩
      · obtain ⟨hmem, hseen⟩ := ih h
        exact ⟨List.mem_cons_of_mem _ hmem, fun hd => hseen (List.mem_cons_of_mem _ hd)⟩

theorem nodup_firsts (key : α → κ) (seen : List κ) (ds : List α) :
  ((firsts key seen ds).map key).Nodup
  := by
  induction ds generalizing seen with
  | nil => exact List.nodup_nil
  | cons d ds ih =>
    rw [firsts]
    split
    · exact ih seen
    · rw [List.map_cons, List.nodup_cons]
      refine ⟨?_, ih _⟩
      intro hmem
      obtain ⟨e, he, hkey⟩ := List.mem_map.mp hmem
      exact (mem_of_mem_firsts he).2 (hkey ▸ List.mem_cons_self)

/-- The record of a key is the first that has it. -/
theorem find?_firsts {seen : List κ} {k : κ} (hk : k ∉ seen) (ds : List α) :
  (firsts key seen ds).find? (key · = k) = ds.find? (key · = k)
  := by
  induction ds generalizing seen with
  | nil => rfl
  | cons d ds ih =>
    rw [firsts]
    split
    case isTrue hd =>
      have hne : key d ≠ k := by
        rintro rfl
        exact hk hd
      rw [ih hk, List.find?_cons_of_neg (by simpa using hne)]
    case isFalse =>
      by_cases hd : key d = k
      · rw [List.find?_cons_of_pos (by simpa using hd), List.find?_cons_of_pos (by simpa using hd)]
      · rw [List.find?_cons_of_neg (by simpa using hd), List.find?_cons_of_neg (by simpa using hd)]
        apply ih
        rw [List.mem_cons]
        rintro (rfl | h)
        · exact hd rfl
        · exact hk h

theorem firsts_of_nodup {seen : List κ} {ds : List α} (hnodup : (ds.map key).Nodup)
    (hseen : ∀ d ∈ ds, key d ∉ seen) :
  firsts key seen ds = ds
  := by
  induction ds generalizing seen with
  | nil => rfl
  | cons d ds ih =>
    rw [List.map_cons, List.nodup_cons] at hnodup
    rw [firsts, if_neg (hseen d List.mem_cons_self), ih hnodup.2]
    intro e he hmem
    rcases List.mem_cons.mp hmem with hkey | hmem
    · exact hnodup.1 (hkey ▸ List.mem_map_of_mem he)
    · exact hseen e (List.mem_cons_of_mem _ he) hmem

/-- A record is the one of its key. -/
theorem find?_eq_some_of_mem {ds : List α} (hnodup : (ds.map key).Nodup) {d : α} (hd : d ∈ ds) :
  ds.find? (key · = key d) = some d
  := by
  induction ds with
  | nil => exact absurd hd List.not_mem_nil
  | cons e ds ih =>
    rw [List.map_cons, List.nodup_cons] at hnodup
    rcases List.mem_cons.mp hd with rfl | hd
    · exact List.find?_cons_of_pos (by simp)
    · have hne : key e ≠ key d := by
        intro hkey
        exact hnodup.1 (hkey ▸ List.mem_map_of_mem hd)
      rw [List.find?_cons_of_neg (by simpa using hne), ih hnodup.2 hd]

/-- The records of a list under their keys; a later record takes the place of an earlier one. -/
def index (key : α → κ) (ds : List α) (k : κ) : Option α :=
  ds.foldl (fun f d => Function.update f (key d) (some d)) (fun _ => none) k

theorem foldl_update_eq_some {ds : List α} (hnodup : (ds.map key).Nodup) (f : κ → Option α)
    {k : κ} {d : α} :
  ds.foldl (fun f d => Function.update f (key d) (some d)) f k = some d ↔
    (d ∈ ds ∧ key d = k) ∨ (k ∉ ds.map key ∧ f k = some d)
  := by
  induction ds generalizing f with
  | nil => simp
  | cons e ds ih =>
    rw [List.map_cons, List.nodup_cons] at hnodup
    rw [List.foldl_cons, ih hnodup.2]
    by_cases hk : key e = k
    · subst hk
      simp only [Function.update_self, List.mem_cons, List.map_cons, true_or, not_true,
        false_and, or_false, Option.some_inj]
      constructor
      · rintro (⟨hd, hkey⟩ | ⟨-, rfl⟩)
        · exact ⟨.inr hd, hkey⟩
        · exact ⟨.inl rfl, rfl⟩
      · rintro ⟨rfl | hd, hkey⟩
        · exact .inr ⟨hnodup.1, rfl⟩
        · exact .inl ⟨hd, hkey⟩
    · rw [Function.update_of_ne (Ne.symm hk)]
      have hne : d = e → key d ≠ k := fun h => h ▸ hk
      simp only [List.mem_cons, List.map_cons, not_or, Ne.symm hk, not_false_eq_true, true_and]
      tauto

/-- A record of a list with distinct keys is found under its key, and nothing else is. -/
theorem index_eq_some {ds : List α} (hnodup : (ds.map key).Nodup) {k : κ} {d : α} :
  index key ds k = some d ↔ d ∈ ds ∧ key d = k
  := by
  unfold index
  rw [foldl_update_eq_some hnodup]
  simp

/-- What is found under a key is a record with the key. -/
theorem mem_of_index {ds : List α} {k : κ} {d : α} (h : index key ds k = some d) :
  d ∈ ds ∧ key d = k
  := by
  unfold index at h
  induction ds using List.reverseRecOn with
  | nil => cases h
  | append_singleton ds e ih =>
    rw [List.foldl_append, List.foldl_cons, List.foldl_nil] at h
    by_cases hk : key e = k
    · subst hk
      rw [Function.update_self] at h
      obtain rfl := Option.some_inj.mp h
      exact ⟨List.mem_append_right _ (List.mem_singleton_self e), rfl⟩
    · rw [Function.update_of_ne (Ne.symm hk)] at h
      exact ⟨List.mem_append_left _ (ih h).1, (ih h).2⟩

/-- The fold that enters the records under their keys and counts them. -/
theorem foldl_count (key : α → κ) (ds : List α) (f : κ → Option α) (n : ℕ) :
  ds.foldl (fun acc d => (Function.update acc.1 (key d) (some d), acc.2 + 1)) (f, n)
    = (ds.foldl (fun f d => Function.update f (key d) (some d)) f, n + ds.length)
  := by
  induction ds generalizing f n with
  | nil => rfl
  | cons d ds ih =>
    rw [List.foldl_cons, ih, List.foldl_cons, List.length_cons]
    congr 1
    omega

/-! ## Books -/

/-- Records with pairwise distinct keys, and whether they have been changed. -/
@[ext]
structure Book (key : α → κ) where
  entries : List α
  isDirty : Bool
  nodup : (entries.map key).Nodup

namespace Book

/-- The book that is read from a list of records. -/
def ofList (key : α → κ) (ds : List α) : Book key :=
  ⟨firsts key [] ds, false, nodup_firsts key [] ds⟩

/-- The record of a key. -/
def get (b : Book key) (k : κ) : Option α :=
  b.entries.find? (key · = k)

/-- The book without the record of a key. -/
def delete (b : Book key) (k : κ) : Book key :=
  if (b.get k).isSome then
    ⟨b.entries.filter (key · ≠ k), true,
      b.nodup.sublist (List.filter_sublist.map key)⟩
  else b

/-- The book with a record at the end, in place of the one that has its key. -/
def append (b : Book key) (d : α) : Book key :=
  ⟨b.entries.filter (key · ≠ key d) ++ [d], true, by
    rw [List.map_append, List.map_cons, List.map_nil, List.nodup_append]
    refine ⟨b.nodup.sublist (List.filter_sublist.map key), by simp, ?_⟩
    intro k hk k' hk'
    obtain ⟨e, he, rfl⟩ := List.mem_map.mp hk
    rw [List.mem_singleton.mp hk']
    simpa using (List.mem_filter.mp he).2⟩

/-- The book with a record, unless there is one that says the same, or any if these are not
to be overwritten. -/
def put (same : α → α → Bool) (b : Book key) (d : α) (overwrite : Bool) : Book key :=
  match b.get (key d) with
  | none => b.append d
  | some own =>
    if overwrite = false then b
    else if same own d then b
    else b.append d

/-- The book with the record of a key replaced in its place. -/
def modify (b : Book key) (k : κ) (f : α → α) (hf : ∀ d, key (f d) = key d) : Book key :=
  ⟨b.entries.map fun d => if key d = k then f d else d, true, by
    have hkeys : (b.entries.map fun d => if key d = k then f d else d).map key
        = b.entries.map key := by
      rw [List.map_map]
      apply List.map_congr_left
      intro d _
      simp only [Function.comp_apply]
      split
      · exact hf d
      · rfl
    rw [hkeys]
    exact b.nodup⟩

@[simp]
theorem get_ofList (ds : List α) (k : κ) :
  (ofList key ds).get k = ds.find? (key · = k)
  :=
  find?_firsts List.not_mem_nil ds

theorem entries_ofList_of_nodup {ds : List α} (h : (ds.map key).Nodup) :
  (ofList key ds).entries = ds
  :=
  firsts_of_nodup h fun _ _ => List.not_mem_nil

theorem get_eq_some {b : Book key} {k : κ} {d : α} :
  b.get k = some d ↔ d ∈ b.entries ∧ key d = k
  := by
  constructor
  · intro h
    exact ⟨List.mem_of_find?_eq_some h, by simpa using List.find?_some h⟩
  · rintro ⟨hmem, rfl⟩
    exact find?_eq_some_of_mem b.nodup hmem

theorem get_eq_none {b : Book key} {k : κ} :
  b.get k = none ↔ k ∉ b.entries.map key
  := by
  simp [get]

theorem isSome_get {b : Book key} {k : κ} :
  (b.get k).isSome = true ↔ k ∈ b.entries.map key
  := by
  rw [← not_iff_not, Bool.not_eq_true, Option.isSome_eq_false_iff, Option.isNone_iff_eq_none,
    get_eq_none]

end Book

/-! ## Edits -/

/-- A change of a book. -/
inductive Edit (α κ : Type) where
  | put (d : α) (overwrite : Bool)
  | delete (k : κ)

/-- The key that an edit names. -/
def Edit.named (key : α → κ) : Edit α κ → κ
  | .put d _ => key d
  | .delete k => k

namespace Book

variable {same : α → α → Bool} {b : Book key}

/-- The book after an edit. -/
def edit (same : α → α → Bool) (b : Book key) : Edit α κ → Book key
  | .put d overwrite => b.put same d overwrite
  | .delete k => b.delete k

/-- An edit changes a book. -/
def Touches (same : α → α → Bool) (b : Book key) : Edit α κ → Prop
  | .put d overwrite =>
    match b.get (key d) with
    | none => True
    | some own => overwrite = true ∧ same own d = false
  | .delete k => (b.get k).isSome = true

/-- The book after a sequence of edits. -/
def run (same : α → α → Bool) (b : Book key) (es : List (Edit α κ)) : Book key :=
  es.foldl (edit same) b

@[simp]
theorem run_nil :
  b.run same [] = b
  := rfl

@[simp]
theorem run_cons (e : Edit α κ) (es : List (Edit α κ)) :
  b.run same (e :: es) = (b.edit same e).run same es
  := rfl

theorem run_append (es es' : List (Edit α κ)) :
  b.run same (es ++ es') = (b.run same es).run same es'
  :=
  List.foldl_append

/-- What an edit does: nothing, or the record is put at the end, or the record of the key is
dropped. -/
theorem edit_cases (same : α → α → Bool) (b : Book key) (e : Edit α κ) :
  (¬ b.Touches same e ∧ b.edit same e = b)
    ∨ b.Touches same e ∧ (b.edit same e).isDirty = true
      ∧ (∃ ds, (∀ d ∈ ds, key d = e.named key)
        ∧ (b.edit same e).entries = b.entries.filter (key · ≠ e.named key) ++ ds)
  := by
  cases e with
  | put d overwrite =>
    simp only [edit, put, Touches, Edit.named]
    split
    case h_1 h => exact Or.inr ⟨trivial, rfl, [d], by simp, rfl⟩
    case h_2 own h =>
      split
      case isTrue ho => exact Or.inl ⟨by simp [ho], rfl⟩
      case isFalse ho =>
        split
        case isTrue hs => exact Or.inl ⟨by simp [hs], rfl⟩
        case isFalse hs =>
          exact Or.inr ⟨⟨by simpa using ho, by simpa using hs⟩, rfl, [d], by simp, rfl⟩
  | delete k =>
    simp only [edit, delete, Touches, Edit.named]
    split
    case isTrue h => exact Or.inr ⟨h, rfl, [], by simp, (List.append_nil _).symm⟩
    case isFalse h => exact Or.inl ⟨h, rfl⟩

/-- Whether an edit changes a book does not depend on what has been changed before. -/
theorem touches_congr {b' : Book key} (h : b.entries = b'.entries) (e : Edit α κ) :
  b.Touches same e ↔ b'.Touches same e
  := by
  cases e <;> simp only [Touches, get, h]

theorem entries_edit_congr {b' : Book key} (h : b.entries = b'.entries) (e : Edit α κ) :
  (b.edit same e).entries = (b'.edit same e).entries
  := by
  have hget : ∀ k, b.get k = b'.get k := by
    intro k
    rw [get, get, h]
  cases e with
  | put d overwrite =>
    simp only [edit, put, hget]
    split
    · simp [append, h]
    · split
      · exact h
      · split
        · exact h
        · simp [append, h]
  | delete k =>
    simp only [edit, delete]
    by_cases hk : (b'.get k).isSome = true
    · rw [if_pos hk, if_pos (hget k ▸ hk)]
      simp only [h]
    · rw [if_neg hk, if_neg (hget k ▸ hk), h]

theorem edit_of_not_touches {e : Edit α κ} (h : ¬ b.Touches same e) :
  b.edit same e = b
  := by
  rcases edit_cases same b e with ⟨-, heq⟩ | ⟨ht, -⟩
  · exact heq
  · exact absurd ht h

theorem edit_isDirty (e : Edit α κ) :
  (b.edit same e).isDirty = true ↔ b.isDirty = true ∨ b.Touches same e
  := by
  rcases edit_cases same b e with ⟨ht, heq⟩ | ⟨ht, hd, -⟩
  · rw [heq]
    simp [ht]
  · simp [ht, hd]

theorem isDirty_run_of_isDirty (es : List (Edit α κ)) (h : b.isDirty = true) :
  (b.run same es).isDirty = true
  := by
  induction es generalizing b with
  | nil => exact h
  | cons e es ih =>
    rw [run_cons]
    apply ih
    exact (edit_isDirty e).mpr (Or.inl h)

/-- A sequence of edits changes a book if and only if one of them does at the start. -/
theorem run_isDirty (es : List (Edit α κ)) :
  (b.run same es).isDirty = true ↔ b.isDirty = true ∨ ∃ e ∈ es, b.Touches same e
  := by
  induction es generalizing b with
  | nil => simp
  | cons e es ih =>
    rw [run_cons]
    by_cases ht : b.Touches same e
    · have hd : (b.edit same e).isDirty = true := (edit_isDirty e).mpr (Or.inr ht)
      simp [isDirty_run_of_isDirty es hd, ht]
    · rw [edit_of_not_touches ht, ih]
      simp [ht]

/-- Edits that change nothing. -/
theorem run_of_not_touches {es : List (Edit α κ)} (h : ∀ e ∈ es, ¬ b.Touches same e) :
  b.run same es = b
  := by
  induction es with
  | nil => rfl
  | cons e es ih =>
    rw [run_cons, edit_of_not_touches (h e List.mem_cons_self)]
    exact ih fun e he => h e (List.mem_cons_of_mem _ he)

/-- Records that an edit does not name are left alone. -/
theorem edit_filter (p : κ → Bool) {e : Edit α κ} (h : p (e.named key) = false) :
  (b.edit same e).entries.filter (p ∘ key) = b.entries.filter (p ∘ key)
  := by
  rcases edit_cases same b e with ⟨-, heq⟩ | ⟨-, -, ds, hds, heq⟩
  · rw [heq]
  · have hnil : ds.filter (p ∘ key) = [] := by
      rw [List.filter_eq_nil_iff]
      intro d hd
      simp [hds d hd, h]
    rw [heq, List.filter_append, hnil, List.append_nil, List.filter_filter]
    apply List.filter_congr
    intro d _
    by_cases hd : key d = e.named key
    · simp [hd, h]
    · simp [hd]

theorem run_filter (p : κ → Bool) {es : List (Edit α κ)} (h : ∀ e ∈ es, p (e.named key) = false) :
  (b.run same es).entries.filter (p ∘ key) = b.entries.filter (p ∘ key)
  := by
  induction es generalizing b with
  | nil => rfl
  | cons e es ih =>
    rw [run_cons, ih fun e he => h e (List.mem_cons_of_mem _ he),
      edit_filter p (h e List.mem_cons_self)]

/-- The record of a key that no edit names. -/
theorem get_run {es : List (Edit α κ)} {k : κ} (h : ∀ e ∈ es, e.named key ≠ k) :
  (b.run same es).get k = b.get k
  := by
  have hfilter : (b.run same es).entries.filter ((fun k' => decide (k' = k)) ∘ key)
      = b.entries.filter ((fun k' => decide (k' = k)) ∘ key) :=
    run_filter _ (by simpa using h)
  have hfind : ∀ l : List α,
      l.find? (key · = k) = (l.filter ((fun k' => decide (k' = k)) ∘ key)).head? := by
    intro l
    rw [List.head?_filter]
    rfl
  unfold get
  rw [hfind, hfind, hfilter]

/-- The records after some edits are those before and those that have been put. -/
theorem mem_entries_run {es : List (Edit α κ)} {d : α} (h : d ∈ (b.run same es).entries) :
  d ∈ b.entries ∨ ∃ overwrite, .put d overwrite ∈ es
  := by
  induction es generalizing b with
  | nil => exact Or.inl h
  | cons e es ih =>
    rw [run_cons] at h
    rcases ih h with h | ⟨overwrite, hput⟩
    · cases e with
      | put d' overwrite =>
        simp only [edit, put] at h
        split at h
        case h_1 =>
          rcases List.mem_append.mp h with h | h
          · exact Or.inl (List.mem_of_mem_filter h)
          · rw [List.mem_singleton.mp h]
            exact Or.inr ⟨overwrite, List.mem_cons_self⟩
        case h_2 =>
          split at h
          · exact Or.inl h
          · split at h
            · exact Or.inl h
            · rcases List.mem_append.mp h with h | h
              · exact Or.inl (List.mem_of_mem_filter h)
              · rw [List.mem_singleton.mp h]
                exact Or.inr ⟨overwrite, List.mem_cons_self⟩
      | delete k =>
        simp only [edit, delete] at h
        split at h
        · exact Or.inl (List.mem_of_mem_filter h)
        · exact Or.inl h
    · exact Or.inr ⟨overwrite, List.mem_cons_of_mem _ hput⟩

/-- The record of a key stays if the edits that name the key do not overwrite. -/
theorem get_run_of_not_overwrite {es : List (Edit α κ)} {k : κ} {d : α} (hk : b.get k = some d)
    (h : ∀ e ∈ es, e.named key = k → ∃ d', e = .put d' false) :
  (b.run same es).get k = some d
  := by
  induction es generalizing b with
  | nil => exact hk
  | cons e es ih =>
    rw [run_cons]
    apply ih
    · by_cases he : e.named key = k
      · obtain ⟨d', rfl⟩ := h e List.mem_cons_self he
        have hget : b.get (key d') = some d := by
          rw [show key d' = k from he, hk]
        simp only [edit, put, hget, if_true, hk]
      · rw [← hk]
        have hrun : (b.run same [e]).get k = b.get k := get_run (by simpa using he)
        exact hrun
    · intro e he
      exact h e (List.mem_cons_of_mem _ he)

theorem get_append (d : α) (k : κ) :
  (b.append d).get k = if k = key d then some d else b.get k
  := by
  split
  case isTrue hk =>
    rw [get_eq_some]
    exact ⟨List.mem_append_right _ List.mem_cons_self, hk.symm⟩
  case isFalse hk =>
    unfold get append
    have hlast : [d].find? (key · = k) = none := by
      simpa [eq_comm] using hk
    rw [List.find?_append, hlast, Option.or_none, List.find?_filter]
    congr 1
    funext e
    by_cases he : key e = k
    · simp [he, hk]
    · simp [he]

/-- Deleting many records. -/
theorem entries_run_deletes (ks : List κ) :
  (b.run same (ks.map .delete)).entries = b.entries.filter (key · ∉ ks)
  := by
  induction ks generalizing b with
  | nil => simp
  | cons k ks ih =>
    have hdelete : (b.delete k).entries = b.entries.filter (key · ≠ k) := by
      unfold delete
      split
      case isTrue => rfl
      case isFalse h =>
        rw [isSome_get] at h
        symm
        rw [List.filter_eq_self]
        intro d hd
        rw [decide_eq_true_eq]
        rintro rfl
        exact h (List.mem_map_of_mem hd)
    rw [List.map_cons, run_cons, ih, edit, hdelete, List.filter_filter]
    apply List.filter_congr
    intro d _
    by_cases hd : key d = k
    · simp [hd]
    · simp [hd]

theorem get_run_deletes (ks : List κ) (k : κ) :
  (b.run same (ks.map .delete)).get k = if k ∈ ks then none else b.get k
  := by
  split
  case isTrue hk =>
    rw [get_eq_none, entries_run_deletes]
    intro hmem
    obtain ⟨d, hd, rfl⟩ := List.mem_map.mp hmem
    have hd := (List.mem_filter.mp hd).2
    simp [hk] at hd
  case isFalse hk =>
    apply get_run
    intro e he
    obtain ⟨k', hk', rfl⟩ := List.mem_map.mp he
    rintro rfl
    exact hk hk'

/-- The order of deletions does not matter, nor do keys that are not there. -/
theorem run_deletes_congr {ks ks' : List κ}
    (h : ∀ k ∈ b.entries.map key, k ∈ ks ↔ k ∈ ks') :
  b.run same (ks.map .delete) = b.run same (ks'.map .delete)
  := by
  apply Book.ext
  · rw [entries_run_deletes, entries_run_deletes]
    apply List.filter_congr
    intro d hd
    simp [h _ (List.mem_map_of_mem hd)]
  · rw [Bool.eq_iff_iff, run_isDirty, run_isDirty]
    apply or_congr_right
    simp only [List.mem_map, exists_exists_and_eq_and, Touches, isSome_get]
    constructor
    · rintro ⟨k, hk, hb⟩
      exact ⟨k, (h k (List.mem_map.mpr hb)).mp hk, hb⟩
    · rintro ⟨k, hk, hb⟩
      exact ⟨k, (h k (List.mem_map.mpr hb)).mpr hk, hb⟩

/-! ## Putting many records -/

/-- A record is put only if it is new or says something else. -/
def Moves (same : α → α → Bool) (b : Book key) (d : α) : Bool :=
  match b.get (key d) with
  | none => true
  | some own => !same own d

theorem put_true (d : α) :
  b.put same d true = if b.Moves same d then b.append d else b
  := by
  unfold put Moves
  cases b.get (key d) with
  | none => simp
  | some own => cases hs : same own d <;> simp [hs]

theorem moves_iff_touches (d : α) :
  b.Moves same d = true ↔ b.Touches same (.put d true)
  := by
  cases hget : b.get (key d) with
  | none => simp [Moves, Touches, hget]
  | some own => simp [Moves, Touches, hget]

theorem moves_edit_of_ne {d d' : α} (h : key d ≠ key d') :
  (b.put same d true).Moves same d' = b.Moves same d'
  := by
  have hget : (b.run same [.put d true]).get (key d') = b.get (key d') :=
    get_run (by simpa [Edit.named] using h)
  unfold Moves
  rw [show (b.put same d true).get (key d') = b.get (key d') from hget]

/-- Records with distinct keys are put one after the other: those that move are at the end, and
the others stay where they are. -/
theorem entries_run_puts {ds : List α} (hnodup : (ds.map key).Nodup) :
  (b.run same (ds.map fun d => .put d true)).entries
    = b.entries.filter (key · ∉ (ds.filter (b.Moves same)).map key) ++ ds.filter (b.Moves same)
  := by
  induction ds generalizing b with
  | nil => simp
  | cons d ds ih =>
    rw [List.map_cons, List.nodup_cons] at hnodup
    have hmoves : ds.filter ((b.put same d true).Moves same) = ds.filter (b.Moves same) := by
      apply List.filter_congr
      intro d' hd'
      apply moves_edit_of_ne
      intro hkey
      exact hnodup.1 (hkey ▸ List.mem_map_of_mem hd')
    rw [List.map_cons, run_cons, edit, ih hnodup.2, hmoves, put_true]
    by_cases hd : b.Moves same d = true
    case neg => rw [if_neg hd, List.filter_cons_of_neg hd]
    case pos =>
      have hnot : key d ∉ (ds.filter (b.Moves same)).map key := by
        intro hmem
        obtain ⟨d', hd', hkey⟩ := List.mem_map.mp hmem
        exact hnodup.1 (hkey ▸ List.mem_map_of_mem (List.mem_of_mem_filter hd'))
      rw [if_pos hd, List.filter_cons_of_pos hd, append, List.filter_append, List.filter_filter]
      have hlast : [d].filter (key · ∉ (ds.filter (b.Moves same)).map key) = [d] := by
        simpa using hnot
      rw [hlast, List.append_assoc, List.singleton_append]
      congr 1
      apply List.filter_congr
      intro e _
      rw [List.map_cons, Bool.eq_iff_iff]
      simp only [Bool.and_eq_true, decide_eq_true_eq, List.mem_cons, not_or]
      exact and_comm

/-- The record of a key after putting many: the one that has been put, or the one that was there
and says the same. -/
theorem get_run_puts {ds : List α} (hnodup : (ds.map key).Nodup) {d : α} (hd : d ∈ ds) :
  (b.run same (ds.map fun d => .put d true)).get (key d)
    = if b.Moves same d then some d else b.get (key d)
  := by
  split
  case isTrue hmoves =>
    rw [get_eq_some, entries_run_puts hnodup]
    exact ⟨List.mem_append_right _ (List.mem_filter.mpr ⟨hd, hmoves⟩), rfl⟩
  case isFalse hmoves =>
    cases hget : b.get (key d) with
    | none => simp [Moves, hget] at hmoves
    | some own =>
      obtain ⟨hmem, hkey⟩ := get_eq_some.mp hget
      rw [get_eq_some, entries_run_puts hnodup]
      refine ⟨List.mem_append_left _ (List.mem_filter.mpr ⟨hmem, ?_⟩), hkey⟩
      rw [decide_eq_true_eq, hkey]
      intro hin
      obtain ⟨d', hd', hkey'⟩ := List.mem_map.mp hin
      obtain ⟨hmem', hmoves'⟩ := List.mem_filter.mp hd'
      rw [List.inj_on_of_nodup_map hnodup hmem' hd hkey'] at hmoves'
      exact hmoves hmoves'

/-! ### Putting and deleting -/

section Reconcile

variable (same b) (ds : List α) (ks : List κ)

/-- Records are put, and then keys are deleted that none of them has. -/
theorem entries_run_puts_deletes (hnodup : (ds.map key).Nodup) (hks : ∀ d ∈ ds, key d ∉ ks) :
  (b.run same ((ds.map fun d => .put d true) ++ ks.map .delete)).entries
    = (b.entries.filter (key · ∉ (ds.filter (b.Moves same)).map key)).filter (key · ∉ ks)
      ++ ds.filter (b.Moves same)
  := by
  have hkept : (ds.filter (b.Moves same)).filter (key · ∉ ks) = ds.filter (b.Moves same) := by
    rw [List.filter_eq_self]
    intro d hd
    rw [decide_eq_true_eq]
    exact hks d (List.mem_of_mem_filter hd)
  rw [run_append, entries_run_deletes, entries_run_puts hnodup, List.filter_append, hkept]

theorem get_run_puts_deletes (hnodup : (ds.map key).Nodup) (hks : ∀ d ∈ ds, key d ∉ ks) {d : α}
    (hd : d ∈ ds) :
  (b.run same ((ds.map fun d => .put d true) ++ ks.map .delete)).get (key d)
    = if b.Moves same d then some d else b.get (key d)
  := by
  rw [run_append, get_run_deletes, if_neg (hks d hd), get_run_puts hnodup hd]

end Reconcile

/-- The record of a key that has been put, and that no edit deletes. -/
theorem isSome_get_run {es : List (Edit α κ)} {k : κ} (hdelete : ∀ e ∈ es, e ≠ .delete k)
    (h : (b.get k).isSome = true ∨ ∃ d overwrite, .put d overwrite ∈ es ∧ key d = k) :
  ((b.run same es).get k).isSome = true
  := by
  induction es generalizing b with
  | nil =>
    rcases h with h | ⟨d, overwrite, hmem, -⟩
    · exact h
    · exact absurd hmem List.not_mem_nil
  | cons e es ih =>
    rw [run_cons]
    apply ih fun e he => hdelete e (List.mem_cons_of_mem _ he)
    by_cases he : e.named key = k
    · cases e with
      | delete k' => exact absurd (congrArg Edit.delete he) (hdelete _ List.mem_cons_self)
      | put d overwrite =>
        obtain rfl : key d = k := he
        apply Or.inl
        simp only [edit, put]
        split
        case h_1 => rw [get_append, if_pos rfl, Option.isSome_some]
        case h_2 own hown =>
          split
          · rw [hown, Option.isSome_some]
          · split
            · rw [hown, Option.isSome_some]
            · rw [get_append, if_pos rfl, Option.isSome_some]
    · have hsame : (b.run same [e]).get k = b.get k := get_run (by simpa using he)
      rcases h with h | ⟨d, overwrite, hmem, hk⟩
      · exact Or.inl ((congrArg Option.isSome hsame).trans h)
      · rcases List.mem_cons.mp hmem with rfl | hmem
        · exact absurd hk he
        · exact Or.inr ⟨d, overwrite, hmem, hk⟩

/-- Books with the same keys in the same order and the same records. -/
theorem entries_eq_of_get {b' : Book key} (hkeys : b.entries.map key = b'.entries.map key)
    (hget : ∀ k, b.get k = b'.get k) :
  b.entries = b'.entries
  := by
  have hentries : ∀ c : Book key, c.entries = (c.entries.map key).filterMap c.get := by
    intro c
    rw [List.filterMap_map]
    have hsome : ∀ d ∈ c.entries, (c.get ∘ key) d = some d := fun d hd =>
      get_eq_some.mpr ⟨hd, rfl⟩
    rw [List.filterMap_congr hsome, List.filterMap_some]
  have hfun : b.get = b'.get := funext hget
  rw [hentries b, hentries b', hkeys, hfun]

/-! ## Replacing in place -/

theorem get_modify (b : Book key) (k k' : κ) (f : α → α) (hf : ∀ d, key (f d) = key d) :
  (b.modify k f hf).get k' = (b.get k').map fun d => if key d = k then f d else d
  := by
  unfold get modify
  rw [List.find?_map]
  have hpred : ((fun d => decide (key d = k')) ∘ fun d => if key d = k then f d else d)
      = fun d => decide (key d = k') := by
    funext d
    simp only [Function.comp_apply]
    split
    · rw [hf]
    · rfl
  rw [hpred]

theorem keys_modify (b : Book key) (k : κ) (f : α → α) (hf : ∀ d, key (f d) = key d) :
  (b.modify k f hf).entries.map key = b.entries.map key
  := by
  unfold modify
  rw [List.map_map]
  apply List.map_congr_left
  intro d _
  simp only [Function.comp_apply]
  split
  · exact hf d
  · rfl

end Book

end Keyed
