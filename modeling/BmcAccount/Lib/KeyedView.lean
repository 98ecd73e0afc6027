import BmcAccount.Lib.Keyed

/-!
# Parts of records under keys

Of a book only a part of each record may be of interest. A view tells it for each key, and an edit
changes the view at the key that it names. `Book.map_get_run` says that a view follows the edits
of its book as long as records that are not worth replacing have the same part.

Some keys may be left out of this: nothing is said of them, so they may be edited in any way.
-/

namespace Keyed

variable {α κ V : Type} [DecidableEq κ] {key : α → κ}

/-- A view after an edit. -/
def Edit.onView (key : α → κ) (part : α → V) (view : κ → Option V) : Edit α κ → κ → Option V
  | .put d _ => Function.update view (key d) (some (part d))
  | .delete k => Function.update view k none

/-- A view after a sequence of edits. -/
def runView (key : α → κ) (part : α → V) (view : κ → Option V) (es : List (Edit α κ)) :
    κ → Option V :=
  es.foldl (Edit.onView key part) view

variable {part : α → V}

theorem onView_of_ne (view : κ → Option V) {e : Edit α κ} {k : κ} (h : e.named key ≠ k) :
  e.onView key part view k = view k
  := by
  cases e with
  | put d overwrite => exact Function.update_of_ne (Ne.symm h) _ _
  | delete k' => exact Function.update_of_ne (Ne.symm h) _ _

theorem onView_congr {view view' : κ → Option V} {k : κ} (h : view k = view' k) (e : Edit α κ) :
  e.onView key part view k = e.onView key part view' k
  := by
  by_cases hk : e.named key = k
  · subst hk
    cases e with
    | put d overwrite => simp only [Edit.onView, Edit.named, Function.update_self]
    | delete k => simp only [Edit.onView, Edit.named, Function.update_self]
  · rw [onView_of_ne view hk, onView_of_ne view' hk, h]

theorem runView_append (view : κ → Option V) (es es' : List (Edit α κ)) :
  runView key part view (es ++ es') = runView key part (runView key part view es) es'
  :=
  List.foldl_append

theorem runView_congr {view view' : κ → Option V} {k : κ} (h : view k = view' k)
    (es : List (Edit α κ)) :
  runView key part view es k = runView key part view' es k
  := by
  induction es generalizing view view' with
  | nil => exact h
  | cons e es ih => exact ih (onView_congr h e)

/-- Keys that no edit names. -/
theorem runView_of_ne (view : κ → Option V) {es : List (Edit α κ)} {k : κ}
    (h : ∀ e ∈ es, e.named key ≠ k) :
  runView key part view es k = view k
  := by
  induction es generalizing view with
  | nil => rfl
  | cons e es ih =>
    have hrest := ih (e.onView key part view) fun e he => h e (List.mem_cons_of_mem _ he)
    exact hrest.trans (onView_of_ne view (h e List.mem_cons_self))

theorem runView_deletes (view : κ → Option V) (ks : List κ) (k : κ) :
  runView key part view (ks.map .delete) k = if k ∈ ks then none else view k
  := by
  induction ks generalizing view with
  | nil => rfl
  | cons k' ks ih =>
    rw [List.map_cons, show runView key part view (.delete k' :: ks.map .delete) k
      = runView key part (Function.update view k' none) (ks.map .delete) k from rfl, ih]
    by_cases hk : k = k'
    · subst hk
      simp
    · by_cases hmem : k ∈ ks
      · rw [if_pos hmem, if_pos (List.mem_cons_of_mem _ hmem)]
      · have hnot : k ∉ k' :: ks := by
          rw [List.mem_cons, not_or]
          exact ⟨hk, hmem⟩
        rw [if_neg hmem, if_neg hnot, Function.update_of_ne hk]

/-- Records with distinct keys that are put one after the other. -/
theorem runView_puts (view : κ → Option V) {ds : List α} (hnodup : (ds.map key).Nodup) {d : α}
    (hd : d ∈ ds) :
  runView key part view (ds.map fun d => .put d true) (key d) = some (part d)
  := by
  induction ds generalizing view with
  | nil => exact absurd hd List.not_mem_nil
  | cons d' ds ih =>
    rw [List.map_cons, List.nodup_cons] at hnodup
    rcases List.mem_cons.mp hd with rfl | hd
    · have hrest : ∀ e ∈ ds.map fun d => Edit.put (κ := κ) d true, e.named key ≠ key d := by
        intro e he
        obtain ⟨d', hd', rfl⟩ := List.mem_map.mp he
        intro hkey
        exact hnodup.1 (hkey ▸ List.mem_map_of_mem hd')
      exact (runView_of_ne _ hrest).trans (Function.update_self ..)
    · exact ih _ hnodup.2 hd

namespace Book

variable {same : α → α → Bool} {b : Book key} {good : α → Prop} {out : κ → Prop}

/-- A view of a book follows an edit. -/
theorem map_get_edit (hsame : ∀ own d, good own → same own d = true → part own = part d)
    (hgood : ∀ d ∈ b.entries, good d) {e : Edit α κ}
    (he : ∀ d overwrite, e = .put d overwrite → overwrite = true ∨ out (key d)) {k : κ}
    (hk : ¬ out k) :
  ((b.edit same e).get k).map part = e.onView key part (fun k => (b.get k).map part) k
  := by
  by_cases hne : e.named key = k
  · subst hne
    cases e with
    | put d overwrite =>
      obtain rfl : overwrite = true := (he d overwrite rfl).resolve_right hk
      simp only [edit, Edit.onView, Edit.named, Function.update_self, put_true]
      by_cases hmoves : b.Moves same d = true
      · rw [if_pos hmoves, get_append, if_pos rfl, Option.map_some]
      · rw [if_neg hmoves]
        unfold Moves at hmoves
        split at hmoves
        case h_1 => exact absurd rfl hmoves
        case h_2 own hown =>
          have heq : same own d = true := by simpa using hmoves
          rw [hown, Option.map_some,
            hsame own d (hgood own (get_eq_some.mp hown).1) heq]
    | delete k =>
      have hdelete : (b.run same ([k].map .delete)).get k = none := by
        rw [get_run_deletes, if_pos List.mem_cons_self]
      have hget : (b.edit same (.delete k)).get k = none := hdelete
      simp only [Edit.named, Edit.onView, hget, Function.update_self, Option.map_none]
  · have hget : (b.run same [e]).get k = b.get k := get_run (by simpa using hne)
    rw [onView_of_ne _ hne, show (b.edit same e).get k = b.get k from hget]

/-- A view of a book follows a sequence of edits. -/
theorem map_get_run (hsame : ∀ own d, good own → same own d = true → part own = part d)
    (hgood : ∀ d ∈ b.entries, good d) {es : List (Edit α κ)}
    (hes : ∀ d overwrite, .put d overwrite ∈ es → good d ∧ (overwrite = true ∨ out (key d)))
    {k : κ} (hk : ¬ out k) :
  ((b.run same es).get k).map part = runView key part (fun k => (b.get k).map part) es k
  := by
  induction es generalizing b with
  | nil => rfl
  | cons e es ih =>
    have hgood' : ∀ d ∈ (b.edit same e).entries, good d := by
      intro d hd
      have hd : d ∈ (b.run same [e]).entries := hd
      rcases mem_entries_run hd with hd | ⟨overwrite, hput⟩
      · exact hgood d hd
      · rw [List.mem_singleton] at hput
        exact (hes d overwrite (hput ▸ List.mem_cons_self)).1
    rw [run_cons, ih hgood' fun d overwrite h => hes d overwrite (List.mem_cons_of_mem _ h)]
    apply runView_congr
    apply map_get_edit hsame hgood _ hk
    intro d overwrite heq
    exact (hes d overwrite (heq ▸ List.mem_cons_self)).2

end Book

end Keyed
