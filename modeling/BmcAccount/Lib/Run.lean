import Mathlib

/-!
# Runs

A run applies a list of operations one after the other, by a step function
`step : σ → α → σ`. `states step s l` lists the states of the run of `l` from `s`, the
first one included, and `Along step ok s l` says that every operation of the run meets
the condition `ok` in the state in which it is applied.
-/

namespace Run

variable {σ α : Type}

/-- The states of the run of `l` from `s`, the first one included. -/
def states (step : σ → α → σ) (s : σ) : List α → List σ
  | [] => [s]
  | a :: l => s :: states step (step s a) l

/-- A run reaches its end. -/
theorem foldl_mem_states (step : σ → α → σ) (s : σ) (l : List α) :
  l.foldl step s ∈ states step s l
  := by
  induction l generalizing s with
  | nil => exact List.mem_singleton_self s
  | cons a l ih => exact List.mem_cons_of_mem s (ih (step s a))

/-- Every operation of the run of `l` from `s` meets `ok` where it is applied. -/
def Along (step : σ → α → σ) (ok : σ → α → Prop) (s : σ) : List α → Prop
  | [] => True
  | a :: l => ok s a ∧ Along step ok (step s a) l

instance Along.decidable {step : σ → α → σ} {ok : σ → α → Prop} [∀ s a, Decidable (ok s a)] :
    (s : σ) → (l : List α) → Decidable (Along step ok s l)
  | _, [] => inferInstanceAs (Decidable True)
  | s, a :: l =>
    have : Decidable (Along step ok (step s a) l) := Along.decidable (step s a) l
    inferInstanceAs (Decidable (ok s a ∧ Along step ok (step s a) l))

/-- A condition on the operations alone. -/
theorem along_of_forall {step : σ → α → σ} {ok : α → Prop} {s : σ} {l : List α}
    (h : ∀ a ∈ l, ok a) :
  Along step (fun _ => ok) s l
  := by
  induction l generalizing s with
  | nil => trivial
  | cons a l ih =>
    refine ⟨h a List.mem_cons_self, ih fun b hb => h b (List.mem_cons_of_mem a hb)⟩

theorem Along.and {step : σ → α → σ} {ok ok' : σ → α → Prop} {s : σ} {l : List α}
    (h : Along step ok s l) (h' : Along step ok' s l) :
  Along step (fun s a => ok s a ∧ ok' s a) s l
  := by
  induction l generalizing s with
  | nil => trivial
  | cons a l ih => exact ⟨⟨h.1, h'.1⟩, ih h.2 h'.2⟩

/-- The invariant rule: what an operation that meets `ok` preserves holds in every state
of a run all of whose operations meet `ok`. -/
theorem invariant {step : σ → α → σ} {ok : σ → α → Prop} {I : σ → Prop}
    (hstep : ∀ s a, I s → ok s a → I (step s a)) {s : σ} {l : List α}
    (hs : I s) (hl : Along step ok s l) :
  ∀ s' ∈ states step s l, I s'
  := by
  induction l generalizing s with
  | nil =>
    intro s' h
    obtain rfl := List.mem_singleton.mp h
    exact hs
  | cons a l ih =>
    intro s' h
    obtain rfl | h := List.mem_cons.mp h
    · exact hs
    · exact ih (hstep s a hs hl.1) hl.2 s' h

/-- Where `ok` says exactly when an operation preserves the invariant, it says exactly when
the invariant holds in every state of a run. -/
theorem invariant_iff {step : σ → α → σ} {ok : σ → α → Prop} {I : σ → Prop}
    (hstep : ∀ s a, I s → (I (step s a) ↔ ok s a)) {s : σ} {l : List α} (hs : I s) :
  (∀ s' ∈ states step s l, I s') ↔ Along step ok s l
  := by
  constructor
  · intro h
    induction l generalizing s with
    | nil => trivial
    | cons a l ih =>
      have hnext : I (step s a) := by
        apply h
        cases l <;> exact List.mem_cons_of_mem _ List.mem_cons_self
      exact ⟨(hstep s a hs).mp hnext, ih hnext fun s' h' => h s' (List.mem_cons_of_mem s h')⟩
  · exact fun h => invariant (fun s a hs ha => (hstep s a hs).mpr ha) hs h

/-- The same where another property is kept as long as the invariant holds, in a run of
operations that meet a condition. -/
theorem invariant_iff_along {step : σ → α → σ} {good ok : σ → α → Prop} {I J : σ → Prop}
    (hstep : ∀ s a, J s → I s → good s a → J (step s a) ∧ (I (step s a) ↔ ok s a))
    {s : σ} {l : List α} (hJ : J s) (hs : I s) (hl : Along step good s l) :
  (∀ s' ∈ states step s l, I s') ↔ Along step ok s l
  := by
  induction l generalizing s with
  | nil =>
    constructor
    · exact fun _ => trivial
    · intro _ s' h
      obtain rfl := List.mem_singleton.mp h
      exact hs
  | cons a l ih =>
    obtain ⟨ha, hl⟩ := hl
    have hnext := hstep s a hJ hs ha
    constructor
    · intro h
      have hI : I (step s a) := by
        apply h
        cases l <;> exact List.mem_cons_of_mem _ List.mem_cons_self
      refine ⟨hnext.2.mp hI, (ih hnext.1 hI hl).mp fun s' h' => h s' ?_⟩
      exact List.mem_cons_of_mem s h'
    · rintro ⟨hok, hoks⟩ s' h'
      obtain rfl | h' := List.mem_cons.mp h'
      · exact hs
      · exact (ih hnext.1 (hnext.2.mpr hok) hl).mpr hoks s' h'

/-- The same in every run. -/
theorem invariant_iff_of_kept {step : σ → α → σ} {ok : σ → α → Prop} {I J : σ → Prop}
    (hstep : ∀ s a, J s → I s → J (step s a) ∧ (I (step s a) ↔ ok s a)) {s : σ} {l : List α}
    (hJ : J s) (hs : I s) :
  (∀ s' ∈ states step s l, I s') ↔ Along step ok s l
  :=
  invariant_iff_along (fun s a hJ hI (_ : True) => hstep s a hJ hI) hJ hs
    (along_of_forall fun _ _ => trivial)

/-- Two conditions that agree where an invariant holds agree along a run that keeps it. -/
theorem along_iff {step : σ → α → σ} {I : σ → Prop} {ok p q : σ → α → Prop}
    (hstep : ∀ s a, I s → ok s a → I (step s a)) (hpq : ∀ s a, I s → ok s a → (p s a ↔ q s a))
    {s : σ} {l : List α} (hs : I s) (hl : Along step ok s l) :
  Along step p s l ↔ Along step q s l
  := by
  induction l generalizing s with
  | nil => exact Iff.rfl
  | cons a l ih => exact and_congr (hpq s a hs hl.1) (ih (hstep s a hs hl.1) hl.2)

/-- What follows from an invariant and from the condition under which it is kept holds at every
operation of a run. -/
theorem along_of_invariant {step : σ → α → σ} {I : σ → Prop} {ok p : σ → α → Prop}
    (hstep : ∀ s a, I s → ok s a → I (step s a)) (hp : ∀ s a, I s → ok s a → p s a)
    {s : σ} {l : List α} (hs : I s) (hl : Along step ok s l) :
  Along step p s l
  := by
  induction l generalizing s with
  | nil => trivial
  | cons a l ih => exact ⟨hp s a hs hl.1, ih (hstep s a hs hl.1) hl.2⟩

/-- The invariant holds, and the condition is met, where an operation in the middle of a run is
applied. -/
theorem invariant_before {step : σ → α → σ} {ok : σ → α → Prop} {I : σ → Prop}
    (hstep : ∀ s a, I s → ok s a → I (step s a)) {s : σ} {l l' : List α} {a : α}
    (hs : I s) (hl : Along step ok s (l ++ a :: l')) :
  I (l.foldl step s) ∧ ok (l.foldl step s) a
  := by
  induction l generalizing s with
  | nil => exact ⟨hs, hl.1⟩
  | cons b l ih => exact ih (hstep s b hs hl.1) hl.2

end Run
