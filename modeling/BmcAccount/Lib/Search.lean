import Mathlib

/-!
# Depth-first search with a table of visited nodes

`visit` searches a graph from a node for a goal. It enters a node once, keeps the nodes it
has entered in a table that outlives the search, and stops at the first goal. It gives up
on a node at a bound on the depth, and on every node once the table is full.

When the depth does not matter and the table does not fill up, a search succeeds exactly if
a path to a goal avoids what was in the table before (`visit_iff_leads`). A bound on the
size of the table makes a difference only when the search without the bound enters more
nodes than fit (`visit_bounded`).
-/

namespace Search

/-- The successors of a node, in the order in which they are tried, and the goals. -/
structure Graph (α : Type) where
  next : α → List α
  goal : α → Bool

variable {α : Type}

/-- Run a search on one node after the other, up to the first success. -/
def firstOf (f : List α → α → Bool × List α) : List α → List α → Bool × List α
  | seen, [] => (false, seen)
  | seen, x :: xs =>
    if (f seen x).1 then f seen x else firstOf f (f seen x).2 xs

variable [DecidableEq α]

/-- The search from a node: `full` says of a table that nothing more is entered, `n` bounds
the depth. -/
def visit (G : Graph α) (full : List α → Bool) : ℕ → List α → α → Bool × List α
  | 0, seen, _ => (false, seen)
  | n + 1, seen, x =>
    if full seen ∨ x ∈ seen then (false, seen)
    else if G.goal x then (true, x :: seen)
    else firstOf (visit G full n) (x :: seen) (G.next x)

/-- A table without a bound. -/
def unbounded : List α → Bool :=
  fun _ => false

/-- A table with room for `cap` nodes. -/
def bounded (cap : ℕ) : List α → Bool :=
  fun seen => decide (cap ≤ seen.length)

/-- A path from a node to a goal that avoids a list of nodes. -/
inductive Leads (G : Graph α) (seen : List α) : α → Prop
  | goal {x : α} : x ∉ seen → G.goal x = true → Leads G seen x
  | step {x y : α} : x ∉ seen → y ∈ G.next x → Leads G seen y → Leads G seen x

omit [DecidableEq α] in
theorem Leads.anti {G : Graph α} {seen seen' : List α} (h : ∀ y ∈ seen, y ∈ seen') {x : α}
    (hx : Leads G seen' x) :
  Leads G seen x
  := by
  induction hx with
  | goal hmem hgoal => exact .goal (fun hm => hmem (h _ hm)) hgoal
  | step hmem hy _ ih => exact .step (fun hm => hmem (h _ hm)) hy ih

variable {G : Graph α} {full : List α → Bool}

/-! ## What any search does -/

omit [DecidableEq α] in
/-- A property of tables that each single search keeps is kept by the run over a list. -/
theorem firstOf_keeps {P : List α → Prop} {f : List α → α → Bool × List α} {xs : List α}
    (hf : ∀ seen, ∀ x ∈ xs, P seen → P (f seen x).2) {seen : List α} (h : P seen) :
  P (firstOf f seen xs).2
  := by
  induction xs generalizing seen with
  | nil => exact h
  | cons x xs ih =>
    have hx := hf seen x List.mem_cons_self h
    unfold firstOf
    split_ifs
    · exact hx
    · exact ih (fun seen y hy => hf seen y (List.mem_cons_of_mem _ hy)) hx

/-- The induction over the nodes that a search enters. -/
theorem visit_keeps {P : List α → Prop} {Q : α → Prop}
    (hcons : ∀ seen x, Q x → x ∉ seen → full seen = false → P seen → P (x :: seen))
    (hnext : ∀ x, Q x → ∀ y ∈ G.next x, Q y)
    {n : ℕ} {seen : List α} {x : α} (hQ : Q x) (h : P seen) :
  P (visit G full n seen x).2
  := by
  induction n generalizing seen x with
  | zero => exact h
  | succ n ih =>
    unfold visit
    split_ifs with hstop hgoal
    · exact h
    · simp only [not_or, Bool.not_eq_true] at hstop
      exact hcons seen x hQ hstop.2 hstop.1 h
    · simp only [not_or, Bool.not_eq_true] at hstop
      apply firstOf_keeps
      · intro seen' y hy h'
        exact ih (hnext x hQ y hy) h'
      · exact hcons seen x hQ hstop.2 hstop.1 h

variable (G full) in
/-- A search only adds to the table. -/
theorem suffix_visit (n : ℕ) (seen : List α) (x : α) :
  seen <:+ (visit G full n seen x).2
  :=
  visit_keeps (P := fun s => seen <:+ s) (Q := fun _ => True)
    (fun _ _ _ _ _ h => h.trans (List.suffix_cons _ _)) (fun _ _ _ _ => trivial) trivial
    (List.suffix_refl seen)

variable (G full) in
theorem suffix_firstOf_visit (n : ℕ) (seen xs : List α) :
  seen <:+ (firstOf (visit G full n) seen xs).2
  :=
  firstOf_keeps (P := fun s => seen <:+ s) (fun s x _ h => h.trans (suffix_visit G full n s x))
    (List.suffix_refl seen)

theorem mem_visit_self {n : ℕ} {seen : List α} {x : α} (h : (visit G full n seen x).1 = true) :
  x ∈ (visit G full n seen x).2
  := by
  cases n with
  | zero => simp [visit] at h
  | succ n =>
    unfold visit at h ⊢
    split_ifs at h ⊢
    · exact List.mem_cons_self
    · exact (suffix_firstOf_visit G full n (x :: seen) (G.next x)).subset List.mem_cons_self

theorem nodup_visit {n : ℕ} {seen : List α} {x : α} (h : seen.Nodup) :
  (visit G full n seen x).2.Nodup
  :=
  visit_keeps (P := List.Nodup) (Q := fun _ => True)
    (fun _ _ _ hmem _ h => List.nodup_cons.mpr ⟨hmem, h⟩) (fun _ _ _ _ => trivial) trivial h

/-- What a search enters has every property that its start has and that successors keep. -/
theorem mem_visit {Q : α → Prop} (hnext : ∀ x, Q x → ∀ y ∈ G.next x, Q y)
    {n : ℕ} {seen : List α} {x : α} (hQ : Q x) :
  ∀ y ∈ (visit G full n seen x).2, y ∈ seen ∨ Q y
  := by
  refine visit_keeps (P := fun s => ∀ y ∈ s, y ∈ seen ∨ Q y) ?_ hnext hQ ?_
  · intro s x hx _ _ hs y hy
    rcases List.mem_cons.mp hy with rfl | hy
    · exact Or.inr hx
    · exact hs y hy
  · exact fun y hy => Or.inl hy

theorem leads_of_firstOf {n : ℕ} {seen xs : List α}
    (hv : ∀ seen x, (visit G full n seen x).1 = true → Leads G seen x)
    (h : (firstOf (visit G full n) seen xs).1 = true) :
  ∃ x ∈ xs, Leads G seen x
  := by
  induction xs generalizing seen with
  | nil => simp [firstOf] at h
  | cons x xs ih =>
    unfold firstOf at h
    split_ifs at h with hx
    · exact ⟨x, List.mem_cons_self, hv seen x hx⟩
    · obtain ⟨y, hy, hl⟩ := ih h
      refine ⟨y, List.mem_cons_of_mem _ hy, hl.anti fun z hz => ?_⟩
      exact (suffix_visit G full n seen x).subset hz

/-- A search that succeeds has found a path that avoids the table. -/
theorem leads_of_visit {n : ℕ} {seen : List α} {x : α} (h : (visit G full n seen x).1 = true) :
  Leads G seen x
  := by
  induction n generalizing seen x with
  | zero => simp [visit] at h
  | succ n ih =>
    unfold visit at h
    split_ifs at h with hstop hgoal
    · simp only [not_or] at hstop
      exact .goal hstop.2 hgoal
    · simp only [not_or] at hstop
      obtain ⟨y, hy, hl⟩ := leads_of_firstOf (fun _ _ => ih) h
      exact .step hstop.2 hy (hl.anti fun z hz => List.mem_cons_of_mem _ hz)

/-! ## A search that fails has looked everywhere -/

/-- The nodes of `seen'` that are not in `seen` are no goals, and their successors are in
`seen'`. -/
def Done (G : Graph α) (seen seen' : List α) : Prop :=
  ∀ y ∈ seen', y ∉ seen → G.goal y = false ∧ ∀ z ∈ G.next y, z ∈ seen'

omit [DecidableEq α] in
theorem Done.refl (seen : List α) :
  Done G seen seen
  :=
  fun _ hy hn => absurd hy hn

theorem Done.trans {s₁ s₂ s₃ : List α} (h₁ : Done G s₁ s₂) (h₂ : Done G s₂ s₃)
    (hsub : ∀ y ∈ s₂, y ∈ s₃) :
  Done G s₁ s₃
  := by
  intro y hy hn
  by_cases hmem : y ∈ s₂
  · exact ⟨(h₁ y hmem hn).1, fun z hz => hsub z ((h₁ y hmem hn).2 z hz)⟩
  · exact h₂ y hy hmem

omit [DecidableEq α] in
/-- No path avoids the table once the search is done. -/
theorem Done.not_leads {seen seen' : List α} (h : Done G seen seen') {x : α}
    (hl : Leads G seen x) :
  x ∉ seen'
  := by
  induction hl with
  | goal hmem hgoal =>
    intro hx
    rw [(h _ hx hmem).1] at hgoal
    exact absurd hgoal (by decide)
  | step hmem hy _ ih =>
    intro hx
    exact ih ((h _ hx hmem).2 _ hy)

/-- The depth suffices: `inner` are the nodes that have successors. -/
def Deep (inner : Finset α) (n : ℕ) (seen : List α) : Prop :=
  (inner.filter (· ∉ seen)).card < n

theorem Deep.mono {inner : Finset α} {n : ℕ} {seen seen' : List α} (h : Deep inner n seen)
    (hsub : ∀ y ∈ seen, y ∈ seen') :
  Deep inner n seen'
  := by
  refine lt_of_le_of_lt (Finset.card_le_card ?_) h
  intro y hy
  rw [Finset.mem_filter] at hy ⊢
  exact ⟨hy.1, fun hm => hy.2 (hsub y hm)⟩

/-- Entering an inner node takes one level, and one node off those that are left. -/
theorem Deep.cons {inner : Finset α} {n : ℕ} {seen : List α} {x : α}
    (h : Deep inner (n + 1) seen) (hx : x ∈ inner) (hmem : x ∉ seen) :
  Deep inner n (x :: seen)
  := by
  have hlt : (inner.filter (· ∉ x :: seen)).card < (inner.filter (· ∉ seen)).card := by
    apply Finset.card_lt_card
    refine ⟨?_, ?_⟩
    · intro y hy
      rw [Finset.mem_filter] at hy ⊢
      exact ⟨hy.1, fun hm => hy.2 (List.mem_cons_of_mem _ hm)⟩
    · intro hsub
      have := hsub (Finset.mem_filter.mpr ⟨hx, hmem⟩)
      rw [Finset.mem_filter] at this
      exact this.2 List.mem_cons_self
  exact lt_of_lt_of_le hlt (Nat.lt_succ_iff.mp h)

theorem done_of_firstOf {inner : Finset α} {n : ℕ}
    (hv : ∀ seen x, Deep inner n seen → (visit G unbounded n seen x).1 = false →
      x ∈ (visit G unbounded n seen x).2 ∧ Done G seen (visit G unbounded n seen x).2)
    {seen xs : List α} (hdeep : Deep inner n seen)
    (h : (firstOf (visit G unbounded n) seen xs).1 = false) :
  (∀ x ∈ xs, x ∈ (firstOf (visit G unbounded n) seen xs).2)
    ∧ Done G seen (firstOf (visit G unbounded n) seen xs).2
  := by
  induction xs generalizing seen with
  | nil => exact ⟨by simp, Done.refl seen⟩
  | cons x xs ih =>
    unfold firstOf at h ⊢
    split_ifs at h ⊢ with hx
    · rw [hx] at h
      exact absurd h (by decide)
    · obtain ⟨hmem, hdone⟩ := hv seen x hdeep (by simpa using hx)
      have hsub := (suffix_visit G unbounded n seen x).subset
      obtain ⟨hxs, hdone'⟩ := ih (hdeep.mono fun _ hy => hsub hy) h
      have hsub' := (suffix_firstOf_visit G unbounded n
        (visit G unbounded n seen x).2 xs).subset
      refine ⟨?_, hdone.trans hdone' fun _ hy => hsub' hy⟩
      intro y hy
      rcases List.mem_cons.mp hy with rfl | hy
      · exact hsub' hmem
      · exact hxs y hy

theorem done_of_visit {inner : Finset α} (hinner : ∀ x, G.next x ≠ [] → x ∈ inner) {n : ℕ}
    {seen : List α} {x : α} (hdeep : Deep inner n seen)
    (h : (visit G unbounded n seen x).1 = false) :
  x ∈ (visit G unbounded n seen x).2 ∧ Done G seen (visit G unbounded n seen x).2
  := by
  induction n generalizing seen x with
  | zero => exact absurd hdeep (Nat.not_lt_zero _)
  | succ n ih =>
    unfold visit at h ⊢
    split_ifs at h ⊢ with hstop hgoal
    · simp only [unbounded, Bool.false_eq_true, false_or] at hstop
      exact ⟨hstop, Done.refl seen⟩
    · simp only [unbounded, Bool.false_eq_true, false_or] at hstop
      have hsub := (suffix_firstOf_visit G unbounded n (x :: seen)
        (G.next x)).subset
      have hnext : (∀ y ∈ G.next x, y ∈ (firstOf (visit G unbounded n) (x :: seen)
            (G.next x)).2)
          ∧ Done G (x :: seen) (firstOf (visit G unbounded n) (x :: seen) (G.next x)).2 := by
        by_cases hnil : G.next x = []
        · rw [hnil]
          exact ⟨by simp, Done.refl _⟩
        · exact done_of_firstOf (fun _ _ => ih) (hdeep.cons (hinner x hnil) hstop) h
      refine ⟨hsub List.mem_cons_self, ?_⟩
      intro y hy hn
      by_cases hyx : y = x
      · subst hyx
        exact ⟨by simpa using hgoal, hnext.1⟩
      · exact hnext.2 y hy (by simp [hyx, hn])

/-- A search that is not cut short succeeds exactly if a path avoids the table. -/
theorem visit_iff_leads {inner : Finset α} (hinner : ∀ x, G.next x ≠ [] → x ∈ inner) {n : ℕ}
    {seen : List α} {x : α} (hdeep : Deep inner n seen) :
  (visit G unbounded n seen x).1 = true ↔ Leads G seen x
  := by
  refine ⟨leads_of_visit, fun hl => ?_⟩
  by_contra hfalse
  obtain ⟨hmem, hdone⟩ := done_of_visit hinner hdeep (by simpa using hfalse)
  exact hdone.not_leads hl hmem

/-! ## Tables with a bound -/

/-- What a bound on the table changes: nothing while everything fits, and otherwise the
search fails with the table full. -/
def Bounds (cap : ℕ) (r b : Bool × List α) : Prop :=
  (r.2.length ≤ cap → b = r) ∧ (cap < r.2.length → b.1 = false ∧ b.2.length = cap)

theorem visit_of_full {n cap : ℕ} {seen : List α} (h : seen.length = cap) (x : α) :
  visit G (bounded cap) n seen x = (false, seen)
  := by
  cases n with
  | zero => rfl
  | succ n => simp [visit, bounded, h]

theorem firstOf_of_full {n cap : ℕ} {seen : List α} (h : seen.length = cap) (xs : List α) :
  firstOf (visit G (bounded cap) n) seen xs = (false, seen)
  := by
  induction xs with
  | nil => rfl
  | cons x xs ih => simp [firstOf, visit_of_full h, ih]

theorem firstOf_bounded {n cap : ℕ}
    (hv : ∀ (seen : List α) (x : α), seen.length ≤ cap →
      Bounds cap (visit G unbounded n seen x) (visit G (bounded cap) n seen x))
    {seen : List α} (xs : List α) (hlen : seen.length ≤ cap) :
  Bounds cap (firstOf (visit G unbounded n) seen xs)
    (firstOf (visit G (bounded cap) n) seen xs)
  := by
  induction xs generalizing seen with
  | nil => exact ⟨fun _ => rfl, fun h => absurd h (by simpa [firstOf] using hlen)⟩
  | cons x xs ih =>
    obtain ⟨hfits, hover⟩ := hv seen x hlen
    by_cases hx : (visit G unbounded n seen x).2.length ≤ cap
    · unfold firstOf
      rw [hfits hx]
      split_ifs
      · exact ⟨fun _ => rfl, fun h => absurd h (by omega)⟩
      · exact ih hx
    · obtain ⟨hb, hcap⟩ := hover (by omega)
      have hlen' : cap < (firstOf (visit G unbounded n) seen (x :: xs)).2.length := by
        unfold firstOf
        split_ifs
        · omega
        · have := (suffix_firstOf_visit G unbounded n
            (visit G unbounded n seen x).2 xs).length_le
          omega
      have hb' : firstOf (visit G (bounded cap) n) seen (x :: xs)
          = (false, (visit G (bounded cap) n seen x).2) := by
        unfold firstOf
        rw [if_neg (by simp [hb]), firstOf_of_full hcap]
      refine ⟨fun h => absurd h (by omega), fun _ => ?_⟩
      rw [hb']
      exact ⟨rfl, hcap⟩

theorem visit_bounded {cap : ℕ} (n : ℕ) {seen : List α} (x : α) (hlen : seen.length ≤ cap) :
  Bounds cap (visit G unbounded n seen x) (visit G (bounded cap) n seen x)
  := by
  induction n generalizing seen x with
  | zero => exact ⟨fun _ => rfl, fun h => absurd h (by simpa [visit] using hlen)⟩
  | succ n ih =>
    by_cases hmem : x ∈ seen
    · have hu : visit G unbounded (n + 1) seen x = (false, seen) := by simp [visit, hmem]
      have hb : visit G (bounded cap) (n + 1) seen x = (false, seen) := by simp [visit, hmem]
      rw [hu, hb]
      exact ⟨fun _ => rfl, fun h => absurd h (by simpa using hlen)⟩
    · rcases hlen.lt_or_eq with hlt | heq
      · have hroom : bounded cap seen = false := by simpa [bounded] using hlt
        have hu : visit G unbounded (n + 1) seen x
            = if G.goal x then (true, x :: seen)
              else firstOf (visit G unbounded n) (x :: seen) (G.next x) := by
          rw [visit, if_neg (by simp [unbounded, hmem])]
        have hb : visit G (bounded cap) (n + 1) seen x
            = if G.goal x then (true, x :: seen)
              else firstOf (visit G (bounded cap) n) (x :: seen) (G.next x) := by
          rw [visit, if_neg (by simp [hroom, hmem])]
        rw [hu, hb]
        split_ifs
        · exact ⟨fun _ => rfl, fun h => absurd h (by simp only [List.length_cons]; omega)⟩
        · exact firstOf_bounded (fun _ x h => ih x h) (G.next x) hlt
      · have hover : cap < (visit G unbounded (n + 1) seen x).2.length := by
          have hcons : (x :: seen) <:+ (visit G unbounded (n + 1) seen x).2 := by
            unfold visit
            rw [if_neg (by simp [unbounded, hmem])]
            split_ifs
            · exact List.suffix_refl _
            · exact suffix_firstOf_visit G unbounded n _ _
          have := hcons.length_le
          simp only [List.length_cons] at this
          omega
        refine ⟨fun h => absurd h (by omega), fun _ => ?_⟩
        rw [visit_of_full heq]
        exact ⟨rfl, heq⟩

end Search
