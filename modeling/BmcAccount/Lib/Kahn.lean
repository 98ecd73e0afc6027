import Mathlib

/-!
# Sorting by prerequisites

Each of finitely many keys has a list of prerequisites, of which some may not be keys. Kahn's
algorithm moves keys from a queue to its result, and counts for each key the prerequisites that
are not in the result yet; a key enters the queue when this number comes to be zero.

`Progress` is the invariant of the algorithm, whatever data it works with. It is kept when a key is
taken from the queue, and when the queue is empty it tells which graphs have been sorted:
`Progress.sorted_iff`. A prerequisite that is not a key blocks its key just as a cycle does.
-/

namespace Kahn

variable {α : Type} {keys : List α} {pre : α → List α}

/-- Both are keys, and the first is a prerequisite of the second. -/
def Precedes (keys : List α) (pre : α → List α) (p c : α) : Prop :=
  p ∈ keys ∧ c ∈ keys ∧ p ∈ pre c

/-- The graph on the keys has no cycle. -/
def Acyclic (keys : List α) (pre : α → List α) : Prop :=
  ∀ k, ¬ Relation.TransGen (Precedes keys pre) k k

/-- The list has every key once, and each after its prerequisites that are keys. -/
structure IsTopologicalSort (keys : List α) (pre : α → List α) (l : List α) : Prop where
  nodup : l.Nodup
  mem_iff : ∀ k, k ∈ l ↔ k ∈ keys
  mem_of_precedes : ∀ l₁ c l₂, l = l₁ ++ c :: l₂ → ∀ p, Precedes keys pre p c → p ∈ l₁

/-- Each member of the list comes after all of its prerequisites. -/
def Ordered (pre : α → List α) (l : List α) : Prop :=
  ∀ l₁ c l₂, l = l₁ ++ c :: l₂ → ∀ p ∈ pre c, p ∈ l₁

theorem Ordered.append_singleton {l : List α} (h : Ordered pre l) {c : α}
    (hc : ∀ p ∈ pre c, p ∈ l) :
  Ordered pre (l ++ [c])
  := by
  intro l₁ d l₂ hl
  rcases List.eq_nil_or_concat l₂ with rfl | ⟨l₂, e, rfl⟩
  · obtain ⟨rfl, hd⟩ := List.append_inj' hl rfl
    rw [List.cons.injEq] at hd
    exact hd.1 ▸ hc
  · rw [List.concat_eq_append, ← List.cons_append, ← List.append_assoc] at hl
    exact h l₁ d l₂ (List.append_inj' hl rfl).1

theorem Acyclic.wellFounded (h : Acyclic keys pre) :
  WellFounded fun a b : { k // k ∈ keys } => Relation.TransGen (Precedes keys pre) a b
  := by
  have : Finite { k // k ∈ keys } := keys.finite_toSet
  have : IsTrans { k // k ∈ keys } fun a b => Relation.TransGen (Precedes keys pre) a b :=
    ⟨fun _ _ _ => Relation.TransGen.trans⟩
  have : Std.Irrefl fun a b : { k // k ∈ keys } => Relation.TransGen (Precedes keys pre) a b :=
    ⟨fun a => h a⟩
  apply Finite.wellFounded_of_trans_of_irrefl

/-- Where there is no cycle, what is inherited from the prerequisites holds of all keys. -/
theorem Acyclic.induction (h : Acyclic keys pre) {P : α → Prop}
    (hP : ∀ c ∈ keys, (∀ p, Precedes keys pre p c → P p) → P c) {c : α} (hc : c ∈ keys) :
  P c
  := by
  have hall : ∀ k : { k // k ∈ keys }, P k := by
    intro k
    induction k using h.wellFounded.induction with
    | _ k ih =>
      apply hP k k.property
      intro p hp
      exact ih ⟨p, hp.1⟩ (.single hp)
  exact hall ⟨c, hc⟩

variable [DecidableEq α]

/-- The members that are not in a list are those that are not in a longer one and those by which
it is longer. -/
theorem countP_notMem_eq {result : List α} {node : α} (hnode : node ∉ result) (l : List α) :
  l.countP (· ∉ result) = l.countP (· ∉ result ++ [node]) + l.count node
  := by
  induction l with
  | nil => rfl
  | cons a l ih =>
    have hhead : (if decide (a ∉ result) = true then 1 else 0)
        = (if decide (a ∉ result ++ [node]) = true then 1 else 0)
          + if (a == node) = true then 1 else 0 := by
      by_cases ha : a = node
      · simp [ha, hnode]
      · simp [ha]
    rw [List.countP_cons, List.countP_cons, List.count_cons, ih, hhead]
    omega

/-- The invariant of the algorithm. -/
structure Progress (keys : List α) (pre : α → List α) (result queue : List α) (degree : α → ℤ) :
    Prop where
  nodup : (result ++ queue).Nodup
  mem_iff : ∀ c, c ∈ result ++ queue ↔ c ∈ keys ∧ degree c = 0
  degree_eq : ∀ c ∈ keys, degree c = (pre c).countP (· ∉ result)
  ordered : Ordered pre result

namespace Progress

variable {result queue : List α} {degree : α → ℤ}

/-- At first the queue has the keys without prerequisites. -/
theorem start (hnodup : queue.Nodup) (hqueue : ∀ c, c ∈ queue ↔ c ∈ keys ∧ degree c = 0)
    (hdegree : ∀ c ∈ keys, degree c = (pre c).length) :
  Progress keys pre [] queue degree
  where
  nodup := by rwa [List.nil_append]
  mem_iff := by simpa using hqueue
  degree_eq := by simpa using hdegree
  ordered l₁ c l₂ h := by simp at h

/-- There are at most as many keys in the result and the queue as there are keys. -/
theorem length_le (h : Progress keys pre result queue degree) :
  result.length + queue.length ≤ keys.length
  := by
  rw [← List.length_append]
  exact (h.nodup.subperm fun c hc => ((h.mem_iff c).mp hc).1).length_le

/-- A key that is ready has all of its prerequisites in the result. -/
theorem mem_of_degree_eq_zero (h : Progress keys pre result queue degree) {c : α} (hc : c ∈ keys)
    (hzero : degree c = 0) :
  ∀ p ∈ pre c, p ∈ result
  := by
  rw [h.degree_eq c hc, Int.natCast_eq_zero, List.countP_eq_zero] at hzero
  simpa using hzero

/-- A key is moved from the queue to the result, and the keys that have become ready enter the
queue. -/
theorem move {node : α} {degree' : α → ℤ} {new : List α}
    (h : Progress keys pre result (node :: queue) degree)
    (hdegree : ∀ c ∈ keys, degree' c = degree c - (pre c).count node)
    (hnodup : new.Nodup)
    (hnew : ∀ c, c ∈ new ↔ c ∈ keys ∧ 0 < degree c ∧ degree c ≤ (pre c).count node) :
  Progress keys pre (result ++ [node]) (queue ++ new) degree'
  := by
  have hnode : node ∉ result := by
    intro hmem
    exact List.disjoint_of_nodup_append h.nodup hmem List.mem_cons_self
  have hdegree_eq (c : α) (hc : c ∈ keys) :
      degree' c = (pre c).countP (· ∉ result ++ [node]) := by
    rw [hdegree c hc, h.degree_eq c hc, countP_notMem_eq hnode, Nat.cast_add, add_sub_cancel_right]
  have hsplit : result ++ [node] ++ (queue ++ new) = (result ++ node :: queue) ++ new := by
    simp
  have hready (c : α) (hc : c ∈ keys) :
      degree' c = 0 ↔ degree c = 0 ∨ 0 < degree c ∧ degree c ≤ (pre c).count node := by
    have hle : 0 ≤ degree' c := hdegree_eq c hc ▸ Int.natCast_nonneg _
    rw [hdegree c hc] at hle ⊢
    omega
  constructor
  · rw [hsplit]
    apply h.nodup.append hnodup
    intro c hold hc
    exact ((hnew c).mp hc).2.1.ne' ((h.mem_iff c).mp hold).2
  · intro c
    rw [hsplit, List.mem_append, h.mem_iff, hnew, ← and_or_left]
    exact and_congr_right fun hc => (hready c hc).symm
  · exact hdegree_eq
  · obtain ⟨hc, hzero⟩ := (h.mem_iff node).mp (List.mem_append_right _ List.mem_cons_self)
    exact h.ordered.append_singleton (h.mem_of_degree_eq_zero hc hzero)

/-- When the queue is empty, the keys have been sorted if there is no cycle and no prerequisite
that is not a key, and only then. -/
theorem sorted_iff (h : Progress keys pre result [] degree) :
  (Acyclic keys pre ∧ IsTopologicalSort keys pre result) ↔
    Acyclic keys pre ∧ ∀ c ∈ keys, ∀ p ∈ pre c, p ∈ keys
  := by
  have hmem (c : α) : c ∈ result ↔ c ∈ keys ∧ degree c = 0 := by
    simpa using h.mem_iff c
  have hsubset {c : α} (hc : c ∈ result) : c ∈ keys := ((hmem c).mp hc).1
  apply and_congr_right
  intro hacyclic
  constructor
  · intro hsort c hc p hp
    obtain ⟨-, hzero⟩ := (hmem c).mp ((hsort.mem_iff c).mpr hc)
    exact hsubset (h.mem_of_degree_eq_zero hc hzero p hp)
  · intro hclosed
    have hall {c : α} (hc : c ∈ keys) : c ∈ result := by
      apply hacyclic.induction _ hc
      intro c hc ih
      rw [hmem]
      refine ⟨hc, ?_⟩
      rw [h.degree_eq c hc, Int.natCast_eq_zero, List.countP_eq_zero]
      intro p hp
      simpa using ih p ⟨hclosed c hc p hp, hc, hp⟩
    constructor
    · simpa using h.nodup
    · exact fun c => ⟨hsubset, hall⟩
    · intro l₁ c l₂ hl p hp
      exact h.ordered l₁ c l₂ hl p hp.2.2

end Progress

end Kahn
