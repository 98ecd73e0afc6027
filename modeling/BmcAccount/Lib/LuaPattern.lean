import Mathlib

/-!
# Patterns of Lua

A pattern is a list of items: captures of one or more characters of a class, and characters
that stand for themselves. A capture takes as many characters as it can and gives back one at
a time until the rest of the pattern matches.

What a pattern captures is found item by item: `matchAt_plus` when the longest run is right,
and `matchAt_plus_backtrack` when the last character of the run belongs to the next item.
-/

namespace LuaPattern

/-- The items of a pattern. -/
inductive Item where
  /-- The capture of one or more characters of a class. -/
  | plus (p : Char → Bool)
  /-- A character that stands for itself. -/
  | lit (c : Char)

/-- The captures, if the rest of the pattern matches after one of the first `n` characters,
tried from the longest run on. -/
def expand (rest : List Char → Option (List (List Char))) (s : List Char) :
    ℕ → Option (List (List Char))
  | 0 => none
  | n + 1 =>
    match rest (s.drop (n + 1)) with
    | some cs => some (s.take (n + 1) :: cs)
    | none => expand rest s n

/-- The captures of a pattern that matches at the beginning of the text. -/
def matchAt : List Item → List Char → Option (List (List Char))
  | [], _ => some []
  | .lit _ :: _, [] => none
  | .lit c :: items, d :: s => if d = c then matchAt items s else none
  | .plus p :: items, s => expand (matchAt items) s (s.takeWhile p).length

/-- `string.match`: the captures at the first place where the pattern matches. -/
def captures (items : List Item) : List Char → Option (List (List Char))
  | [] => matchAt items []
  | c :: s =>
    match matchAt items (c :: s) with
    | some cs => some cs
    | none => captures items s

variable {items : List Item} {p : Char → Bool}

theorem captures_of_matchAt {s : List Char} {cs : List (List Char)}
    (h : matchAt items s = some cs) :
  captures items s = some cs
  := by
  cases s with
  | nil => exact h
  | cons c s => simp only [captures, h]

/-- A character that stands for itself is passed. -/
@[simp]
theorem matchAt_lit (c : Char) (s : List Char) :
  matchAt (.lit c :: items) (c :: s) = matchAt items s
  := by
  simp [matchAt]

/-- The longest run of a class ends where its complement begins. -/
theorem length_takeWhile_append {w v : List Char} (hw : ∀ c ∈ w, p c = true)
    (hv : ∀ c ∈ v.head?, p c = false) :
  ((w ++ v).takeWhile p).length = w.length
  := by
  rw [List.takeWhile_append_of_pos hw]
  cases v with
  | nil => simp
  | cons c v => simp [hv c rfl]

/-- A capture needs a character of its class. -/
theorem matchAt_plus_none {v : List Char} (hv : ∀ c ∈ v.head?, p c = false) :
  matchAt (.plus p :: items) v = none
  := by
  have h := length_takeWhile_append (w := []) (by simp) hv
  rw [List.nil_append, List.length_nil] at h
  rw [matchAt, h, expand]

/-- The rest of the pattern matches after the longest run that is tried. -/
theorem expand_length {rest : List Char → Option (List (List Char))} {w v : List Char}
    {cs : List (List Char)} (hne : w ≠ []) (h : rest v = some cs) :
  expand rest (w ++ v) w.length = some (w :: cs)
  := by
  obtain ⟨n, hn⟩ : ∃ n, w.length = n + 1 :=
    Nat.exists_eq_add_one.mpr (List.length_pos_of_ne_nil hne)
  have hdrop : (w ++ v).drop (n + 1) = v := hn ▸ List.drop_left
  have htake : (w ++ v).take (n + 1) = w := hn ▸ List.take_left
  rw [hn, expand, hdrop, h, htake]

/-- The rest of the pattern matches after the longest run. -/
theorem matchAt_plus {w v : List Char} {cs : List (List Char)} (hne : w ≠ [])
    (hw : ∀ c ∈ w, p c = true) (hv : ∀ c ∈ v.head?, p c = false)
    (h : matchAt items v = some cs) :
  matchAt (.plus p :: items) (w ++ v) = some (w :: cs)
  := by
  rw [matchAt, length_takeWhile_append hw hv]
  exact expand_length hne h

/-- The rest of the pattern does not match after the longest run, and matches when the run
gives back its last character. -/
theorem matchAt_plus_backtrack {w v : List Char} {c : Char} {cs : List (List Char)}
    (hne : w ≠ []) (hw : ∀ d ∈ w ++ [c], p d = true) (hv : ∀ d ∈ v.head?, p d = false)
    (hlong : matchAt items v = none) (h : matchAt items (c :: v) = some cs) :
  matchAt (.plus p :: items) (w ++ c :: v) = some (w :: cs)
  := by
  have hrun : ((w ++ c :: v).takeWhile p).length = w.length + 1 := by
    have h := length_takeWhile_append hw hv
    rwa [List.append_assoc, List.singleton_append, List.length_append,
      List.length_singleton] at h
  have hlast : (w ++ c :: v).drop (w.length + 1) = v := by
    rw [← List.drop_drop, List.drop_left, List.drop_one, List.tail_cons]
  rw [matchAt, hrun, expand, hlast, hlong]
  exact expand_length hne h

/-! ## The runs of a class -/

/-- `string.gmatch` with one or more characters of a class: the runs, which are as long as they can
be. -/
def runs (p : Char → Bool) (s : List Char) : List (List Char) :=
  (s.splitOnP fun c => !p c).filter (· ≠ [])

theorem runs_nil (p : Char → Bool) :
  runs p [] = []
  := by
  simp [runs]

/-- A run ends before a character of another kind. -/
theorem runs_append_cons (w s : List Char) {c : Char} (hc : p c = false) :
  runs p (w ++ c :: s) = runs p w ++ runs p s
  := by
  have hsep : (!p c) = true := by rw [hc]; rfl
  unfold runs
  rw [List.splitOnP_append_cons (p := fun c => !p c) w s hsep, List.filter_append]

/-- A text of the class is one run. -/
theorem runs_of_all {w : List Char} (hne : w ≠ []) (hw : ∀ c ∈ w, p c = true) :
  runs p w = [w]
  := by
  have hsplit : (w.splitOnP fun c => !p c) = [w] :=
    List.splitOnP_eq_singleton fun c hc => by rw [hw c hc]; rfl
  rw [runs, hsplit]
  simp [hne]

/-- A character of the class belongs to the run that the text begins with. -/
theorem runs_cons {c d : Char} (s : List Char) (hc : p c = true) (hd : p d = true) :
  runs p (c :: d :: s) = (runs p (d :: s)).modifyHead (c :: ·)
  := by
  have hcons : ∀ {e : Char} (r : List Char), p e = true →
      (e :: r).splitOnP (fun c => !p c) = (r.splitOnP fun c => !p c).modifyHead (e :: ·) := by
    intro e r he
    rw [List.splitOnP_cons_eq_if_modifyHead, if_neg (by rw [he]; decide)]
  obtain ⟨w, ws, hw⟩ := List.exists_cons_of_ne_nil (List.splitOnP_ne_nil (fun c => !p c) s)
  unfold runs
  rw [hcons (d :: s) hc, hcons s hd, hw]
  simp

/-- The runs of texts with a separator between them. -/
theorem runs_intercalate {c : Char} (hc : p c = false) (ws : List (List Char)) :
  runs p ([c].intercalate ws) = ws.flatMap (runs p)
  := by
  induction ws with
  | nil => exact runs_nil p
  | cons w ws ih =>
    cases ws with
    | nil => simp
    | cons v ws =>
      rw [List.intercalate_cons_cons, List.append_assoc, List.singleton_append,
        runs_append_cons w _ hc, ih, ← List.flatMap_cons]

end LuaPattern
