import Mathlib

/-!
# Edges of a value that is sampled

A value is sampled again and again, and each time it has changed since the last sample this is an
edge: it rises or it falls. The edges alternate, and the last one tells the value
(`isChain_edges`, `getLast_edges`).

A machine that keeps the last sample and writes down the edges of the samples that it is given has
written down the edges of the whole run (`log_foldl`).
-/

namespace Edges

/-- A change of the value. -/
inductive Edge where
  | rise
  | fall
deriving DecidableEq

/-- The edge between two samples. -/
def edge : Bool → Bool → Option Edge
  | false, true => some .rise
  | true, false => some .fall
  | _, _ => none

/-- The edges of a list of samples, after a first one. -/
def edges (b : Bool) : List Bool → List Edge
  | [] => []
  | c :: cs => (edge b c).toList ++ edges c cs

/-- The edge that leads to a value. -/
def toward : Bool → Edge
  | true => .rise
  | false => .fall

theorem edge_of_ne {b c : Bool} (h : b ≠ c) :
  edge b c = some (toward c)
  := by
  cases b <;> cases c <;> first | rfl | exact absurd rfl h

@[simp]
theorem edge_self (b : Bool) :
  edge b b = none
  := by
  cases b <;> rfl

theorem edges_cons_of_ne {b c : Bool} (h : b ≠ c) (cs : List Bool) :
  edges b (c :: cs) = toward c :: edges c cs
  := by
  rw [edges, edge_of_ne h]
  rfl

theorem edges_cons_self (b : Bool) (cs : List Bool) :
  edges b (b :: cs) = edges b cs
  := by
  rw [edges, edge_self]
  rfl

/-- The first edge leads away from the first sample. -/
theorem ne_of_mem_head_edges {b : Bool} {cs : List Bool} {e : Edge} (h : e ∈ (edges b cs).head?) :
  e ≠ toward b
  := by
  induction cs generalizing b with
  | nil => simp [edges] at h
  | cons c cs ih =>
    by_cases hc : b = c
    · subst hc
      rw [edges_cons_self] at h
      exact ih h
    · rw [edges_cons_of_ne hc] at h
      obtain rfl : toward c = e := by simpa using h
      cases b <;> cases c <;> simp_all [toward]

/-- Edges alternate. -/
theorem isChain_edges (b : Bool) (cs : List Bool) :
  (edges b cs).IsChain (· ≠ ·)
  := by
  induction cs generalizing b with
  | nil => exact List.isChain_nil
  | cons c cs ih =>
    by_cases hc : b = c
    · subst hc
      rw [edges_cons_self]
      exact ih b
    · rw [edges_cons_of_ne hc]
      apply List.isChain_cons.mpr
      exact ⟨fun e he => (ne_of_mem_head_edges he).symm, ih c⟩

/-- The last edge leads to the last sample. -/
theorem getLast_edges (b : Bool) (cs : List Bool) :
  toward (cs.getLastD b) = (edges b cs).getLastD (toward b)
  := by
  induction cs generalizing b with
  | nil => rfl
  | cons c cs ih =>
    rw [List.getLastD_cons]
    by_cases hc : b = c
    · subst hc
      rw [edges_cons_self]
      exact ih b
    · rw [edges_cons_of_ne hc, List.getLastD_cons]
      exact ih c

/-- The last edge rises if and only if the value is there. -/
theorem getLast_eq_rise_iff (cs : List Bool) :
  (edges false cs).getLast? = some .rise ↔ cs.getLastD false = true
  := by
  have hlast : toward (cs.getLastD false) = (edges false cs).getLast?.getD .fall := by
    rw [getLast_edges, List.getLastD_eq_getLast?]
    rfl
  constructor
  · intro hrise
    rw [hrise] at hlast
    cases hvalue : cs.getLastD false with
    | true => rfl
    | false =>
      rw [hvalue] at hlast
      cases hlast
  · intro hvalue
    rw [hvalue] at hlast
    cases hget : (edges false cs).getLast? with
    | none =>
      rw [hget] at hlast
      cases hlast
    | some e =>
      rw [hget] at hlast
      exact congrArg some hlast.symm

/-- A machine that keeps the last sample in `value` and writes the edges to `log`. -/
theorem log_foldl {σ α : Type} {step : σ → α → σ} {value : σ → Bool} {log : σ → List Edge}
    {sample : α → Bool} {I : σ → Prop} (hI : ∀ s a, I s → I (step s a))
    (hvalue : ∀ s a, I s → value (step s a) = sample a)
    (hlog : ∀ s a, I s → log (step s a) = log s ++ (edge (value s) (sample a)).toList)
    {s : σ} (hs : I s) (as : List α) :
  log (as.foldl step s) = log s ++ edges (value s) (as.map sample)
    ∧ value (as.foldl step s) = (as.map sample).getLastD (value s)
  := by
  induction as generalizing s with
  | nil => simp [edges]
  | cons a as ih =>
    obtain ⟨ihlog, ihvalue⟩ := ih (hI s a hs)
    rw [hvalue s a hs] at ihlog ihvalue
    constructor
    · rw [List.foldl_cons, ihlog, hlog s a hs, List.append_assoc]
      rfl
    · rw [List.foldl_cons, ihvalue, List.map_cons, List.getLastD_cons]

end Edges
