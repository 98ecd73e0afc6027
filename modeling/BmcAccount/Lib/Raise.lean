import Mathlib

/-!
# Programs that raise

A program of type `Prog ε σ α` runs on a state of type `σ` and either returns a value of
type `α` or raises an error of type `ε`. Raising does not roll the state back: in both
cases the state reached so far is kept, and `protect` catches an error in the state in
which it was raised.

`Spec P m Q E` is the triple with two postconditions: from a state satisfying `P`, if `m`
returns `a` then `Q a` holds of the final state, and if it raises then `E` holds of the
final state. `Keeps I m` says that `m` preserves `I` however it ends. The rules of the
triple follow the structure of programs.
-/

namespace Raise

/-- A program on states `σ` that returns an `α` or raises an `ε`. -/
abbrev Prog (ε σ α : Type) : Type := ExceptT ε (StateM σ) α

variable {ε σ α β : Type}

/-- The result of running `m` from `s`: what it returns or raises, and the final state. -/
def exec (m : Prog ε σ α) (s : σ) : Except ε α × σ := StateT.run (ExceptT.run m) s

/-- The final state of `m` from `s`, whether `m` returns or raises. -/
def after (m : Prog ε σ α) (s : σ) : σ := (exec m s).2

/-- Raise `e` when `b` holds. -/
def refuse (b : Bool) (e : ε) : Prog ε σ Unit := if b then throw e else pure ()

/-- Run `m` when `b` holds. -/
def onlyIf (b : Bool) (m : Prog ε σ Unit) : Prog ε σ Unit := if b then m else pure ()

/-- Run `m`, and if it raises run `h` on the error in the state reached. -/
def protect (m : Prog ε σ α) (h : ε → Prog ε σ α) : Prog ε σ α := tryCatch m h

/-- Return or raise what has been computed. -/
def outcome (x : Except ε α) : Prog ε σ α :=
  match x with
  | .ok a => pure a
  | .error e => throw e

@[simp]
theorem exec_pure (a : α) (s : σ) :
  exec (pure a : Prog ε σ α) s = (.ok a, s)
  := rfl

@[simp]
theorem exec_throw (e : ε) (s : σ) :
  exec (throw e : Prog ε σ α) s = (.error e, s)
  := rfl

@[simp]
theorem exec_get (s : σ) :
  exec (get : Prog ε σ σ) s = (.ok s, s)
  := rfl

@[simp]
theorem exec_modify (f : σ → σ) (s : σ) :
  exec (modify f : Prog ε σ Unit) s = (.ok (), f s)
  := rfl

theorem exec_bind (m : Prog ε σ α) (f : α → Prog ε σ β) (s : σ) :
  exec (m >>= f) s =
    match exec m s with
    | (.ok a, s') => exec (f a) s'
    | (.error e, s') => (.error e, s')
  := by
  unfold exec
  rw [ExceptT.run_bind]
  change (match StateT.run (ExceptT.run m) s with
    | (x, s') => StateT.run (match x with
      | .ok a => ExceptT.run (f a)
      | .error e => pure (.error e)) s') = _
  rcases StateT.run (ExceptT.run m) s with ⟨_ | _, _⟩ <;> rfl

theorem exec_bind_ok {m : Prog ε σ α} {f : α → Prog ε σ β} {s s' : σ} {a : α}
    (h : exec m s = (.ok a, s')) :
  exec (m >>= f) s = exec (f a) s'
  := by
  rw [exec_bind, h]

theorem exec_bind_error {m : Prog ε σ α} {f : α → Prog ε σ β} {s s' : σ} {e : ε}
    (h : exec m s = (.error e, s')) :
  exec (m >>= f) s = (.error e, s')
  := by
  rw [exec_bind, h]

/-- A program that returns has returned at each of its steps. -/
theorem exec_bind_eq_ok {m : Prog ε σ α} {f : α → Prog ε σ β} {s s' : σ} {b : β}
    (h : exec (m >>= f) s = (.ok b, s')) :
  ∃ a s₁, exec m s = (.ok a, s₁) ∧ exec (f a) s₁ = (.ok b, s')
  := by
  rw [exec_bind] at h
  rcases hm : exec m s with ⟨e | a, s₁⟩
  · simp [hm] at h
  · simp only [hm] at h
    exact ⟨a, s₁, rfl, h⟩

theorem exec_eq_ok_after {m : Prog ε σ α} {s : σ} {a : α} (h : (exec m s).1 = .ok a) :
  exec m s = (.ok a, after m s)
  := Prod.ext h rfl

theorem exec_protect (m : Prog ε σ α) (h : ε → Prog ε σ α) (s : σ) :
  exec (protect m h) s =
    match exec m s with
    | (.ok a, s') => (.ok a, s')
    | (.error e, s') => exec (h e) s'
  := by
  unfold exec
  change (match StateT.run (ExceptT.run m) s with
    | (x, s') => StateT.run (match x with
      | .ok a => (pure (Except.ok a) : StateM σ (Except ε α))
      | .error e => ExceptT.run (h e)) s') = _
  rcases StateT.run (ExceptT.run m) s with ⟨_ | _, _⟩ <;> rfl

@[simp]
theorem exec_outcome (x : Except ε α) (s : σ) :
  exec (outcome x : Prog ε σ α) s = (x, s)
  := by
  cases x <;> rfl

theorem exec_refuse (b : Bool) (e : ε) (s : σ) :
  exec (refuse b e : Prog ε σ Unit) s = (if b then .error e else .ok (), s)
  := by
  cases b <;> rfl

@[simp]
theorem exec_refuse_false (e : ε) (s : σ) :
  exec (refuse false e : Prog ε σ Unit) s = (.ok (), s)
  := rfl

@[simp]
theorem exec_refuse_true (e : ε) (s : σ) :
  exec (refuse true e : Prog ε σ Unit) s = (.error e, s)
  := rfl

@[simp]
theorem exec_onlyIf_false (m : Prog ε σ Unit) (s : σ) :
  exec (onlyIf false m) s = (.ok (), s)
  := rfl

theorem exec_refuse_eq_ok {b : Bool} {e : ε} {s s' : σ}
    (h : exec (refuse b e : Prog ε σ Unit) s = (.ok (), s')) :
  b = false ∧ s = s'
  := by
  cases b with
  | false => exact ⟨rfl, congrArg Prod.snd h⟩
  | true => simp at h

theorem exec_forM_cons (a : α) (l : List α) (f : α → Prog ε σ PUnit) (s : σ) :
  exec ((a :: l).forM f) s = exec (f a >>= fun _ => l.forM f) s
  := rfl

theorem exec_forM_append (l l' : List α) (f : α → Prog ε σ PUnit) (s : σ) :
  exec ((l ++ l').forM f) s = exec (l.forM f >>= fun _ => l'.forM f) s
  := by
  simp only [List.forM_eq_forM, List.forM_append]

/-! ## Triples -/

/-- From a state satisfying `P`, the program `m` returns `a` in a state satisfying `Q a`,
or raises in a state satisfying `E`. -/
def Spec (P : σ → Prop) (m : Prog ε σ α) (Q : α → σ → Prop) (E : σ → Prop) : Prop :=
  ∀ s, P s →
    match exec m s with
    | (.ok a, s') => Q a s'
    | (.error _, s') => E s'

/-- The program `m` preserves `I`, whether it returns or raises. -/
def Keeps (I : σ → Prop) (m : Prog ε σ α) : Prop := Spec I m (fun _ => I) I

theorem Keeps.after {I : σ → Prop} {m : Prog ε σ α} (h : Keeps I m) {s : σ} (hs : I s) :
  I (after m s)
  := by
  have hm := h s hs
  unfold Raise.after
  rcases hx : exec m s with ⟨_ | _, s'⟩ <;> simpa [hx] using hm

/-- What holds after the first program and is kept by the second holds after both. -/
theorem after_bind {I : σ → Prop} {m : Prog ε σ α} {f : α → Prog ε σ β} {s : σ}
    (hm : I (Raise.after m s)) (hf : ∀ a, Keeps I (f a)) :
  I (Raise.after (m >>= f) s)
  := by
  unfold Raise.after at hm ⊢
  rw [exec_bind]
  rcases hx : exec m s with ⟨_ | a, s'⟩
  · rwa [hx] at hm
  · rw [hx] at hm
    exact (hf a).after hm

theorem Spec.after {P : σ → Prop} {m : Prog ε σ α} {Q : σ → Prop}
    (h : Spec P m (fun _ => Q) Q) {s : σ} (hs : P s) :
  Q (Raise.after m s)
  := by
  have hm := h s hs
  unfold Raise.after
  rcases hx : exec m s with ⟨_ | _, s'⟩ <;> simpa [hx] using hm

/-- A program that cannot raise returns. -/
theorem Spec.returns {P : σ → Prop} {m : Prog ε σ α} {Q : α → σ → Prop}
    (h : Spec P m Q fun _ => False) {s : σ} (hs : P s) :
  ∃ a s', exec m s = (.ok a, s') ∧ Q a s'
  := by
  have hm := h s hs
  rcases hx : exec m s with ⟨e | a, s'⟩
  · simp [hx] at hm
  · simp only [hx] at hm
    exact ⟨a, s', rfl, hm⟩

section Rules

variable {P P' E E' : σ → Prop} {Q Q' : α → σ → Prop} {R : β → σ → Prop}

theorem Spec.weaken {m : Prog ε σ α} (h : Spec P m Q E)
    (hP : ∀ s, P' s → P s) (hQ : ∀ a s, Q a s → Q' a s) (hE : ∀ s, E s → E' s) :
  Spec P' m Q' E'
  := by
  intro s hs
  have hm := h s (hP s hs)
  rcases hx : exec m s with ⟨_ | a, s'⟩
  · simp only [hx] at hm ⊢
    exact hE s' hm
  · simp only [hx] at hm ⊢
    exact hQ a s' hm

/-- A fact that does not depend on the state may be used in the proof of a triple. -/
theorem Spec.assume_right {m : Prog ε σ α} {φ : Prop} (h : φ → Spec P m Q E) :
  Spec (fun s => P s ∧ φ) m Q E
  := by
  intro s hs
  exact h hs.2 s hs.1

theorem Spec.pure {a : α} (h : ∀ s, P s → Q a s) :
  Spec P (Pure.pure a : Prog ε σ α) Q E
  := by
  intro s hs
  exact h s hs

theorem Spec.throw {e : ε} (h : ∀ s, P s → E s) :
  Spec P (throw e : Prog ε σ α) Q E
  := by
  intro s hs
  exact h s hs

theorem Spec.get :
  Spec P (get : Prog ε σ σ) (fun a s => a = s ∧ P s) E
  := by
  intro s hs
  exact ⟨rfl, hs⟩

theorem Spec.modify {f : σ → σ} {S : σ → Prop} (h : ∀ s, P s → S (f s)) :
  Spec P (modify f : Prog ε σ Unit) (fun _ => S) E
  := by
  intro s hs
  exact h s hs

theorem Spec.refuse {b : Bool} {e : ε} {S : σ → Prop}
    (hE : ∀ s, P s → E s) (hS : ∀ s, P s → b = false → S s) :
  Spec P (refuse b e : Prog ε σ Unit) (fun _ => S) E
  := by
  intro s hs
  cases b
  · exact hS s hs rfl
  · exact hE s hs

theorem Spec.bind {m : Prog ε σ α} {f : α → Prog ε σ β}
    (hm : Spec P m Q E) (hf : ∀ a, Spec (Q a) (f a) R E) :
  Spec P (m >>= f) R E
  := by
  intro s hs
  have h := hm s hs
  rw [exec_bind]
  rcases hx : exec m s with ⟨_ | a, s'⟩
  · simpa only [hx] using h
  · simp only [hx] at h
    exact hf a s' h

/-- A step that keeps what is known. -/
theorem Spec.keeps_bind {m : Prog ε σ α} {f : α → Prog ε σ β}
    (hm : Spec P m (fun _ => P) P) (hE : ∀ s, P s → E s) (hf : ∀ a, Spec P (f a) R E) :
  Spec P (m >>= f) R E
  := Spec.bind (hm.weaken (fun _ h => h) (fun _ _ h => h) hE) hf

theorem Spec.protect {F : σ → Prop} {m : Prog ε σ α} {h : ε → Prog ε σ α}
    (hm : Spec P m Q F) (hh : ∀ e, Spec F (h e) Q E) :
  Spec P (protect m h) Q E
  := by
  intro s hs
  have hr := hm s hs
  rw [exec_protect]
  rcases hx : exec m s with ⟨e | a, s'⟩
  · simp only [hx] at hr
    exact hh e s' hr
  · simpa only [hx] using hr

/-- Where the state is known, so is what is read. -/
theorem Spec.get_bind {s₀ : σ} {f : σ → Prog ε σ β} (hf : Spec (· = s₀) (f s₀) R E) :
  Spec (· = s₀) (MonadState.get >>= f) R E
  := by
  rintro s rfl
  exact hf s rfl

/-- What has not been refused is not to be refused. -/
theorem Spec.refuse_bind {b : Bool} {e : ε} {f : Unit → Prog ε σ β} (hE : ∀ s, P s → E s)
    (hf : b = false → Spec P (f ()) R E) :
  Spec P (Raise.refuse b e >>= f) R E
  := by
  intro s hs
  cases b with
  | true => exact hE s hs
  | false => exact hf rfl s hs

theorem Spec.outcome_bind {x : Except ε α} {f : α → Prog ε σ β} (hE : ∀ s, P s → E s)
    (hf : ∀ a, x = .ok a → Spec P (f a) R E) :
  Spec P (outcome x >>= f) R E
  := by
  intro s hs
  cases x with
  | error e => exact hE s hs
  | ok a => exact hf a rfl s hs

theorem Spec.ite {c : Prop} [Decidable c] {m m' : Prog ε σ α}
    (ht : c → Spec P m Q E) (hf : ¬ c → Spec P m' Q E) :
  Spec P (if c then m else m') Q E
  := by
  split_ifs with h
  · exact ht h
  · exact hf h

theorem Spec.onlyIf {c : Bool} {m : Prog ε σ Unit} {S : σ → Prop}
    (ht : c = true → Spec P m (fun _ => S) E) (hf : c = false → ∀ s, P s → S s) :
  Spec P (onlyIf c m) (fun _ => S) E
  := Spec.ite ht fun h => Spec.pure (hf (eq_false_of_ne_true h))

end Rules

/-! ## Invariants of programs -/

section Invariants

variable {I : σ → Prop}

theorem Keeps.pure {a : α} :
  Keeps I (Pure.pure a : Prog ε σ α)
  := Spec.pure fun _ h => h

theorem Keeps.throw {e : ε} :
  Keeps I (throw e : Prog ε σ α)
  := Spec.throw fun _ h => h

theorem Keeps.outcome {x : Except ε α} :
  Keeps I (outcome x)
  := by
  cases x with
  | error e => exact Keeps.throw
  | ok a => exact Keeps.pure

theorem Keeps.get :
  Keeps I (get : Prog ε σ σ)
  := fun _ h => h

theorem Keeps.modify {f : σ → σ} (h : ∀ s, I s → I (f s)) :
  Keeps I (modify f : Prog ε σ Unit)
  := Spec.modify h

theorem Keeps.refuse {b : Bool} {e : ε} :
  Keeps I (refuse b e : Prog ε σ Unit)
  := Spec.refuse (fun _ h => h) (fun _ h _ => h)

theorem Keeps.bind {m : Prog ε σ α} {f : α → Prog ε σ β}
    (hm : Keeps I m) (hf : ∀ a, Keeps I (f a)) :
  Keeps I (m >>= f)
  := Spec.bind hm hf

theorem Keeps.protect {m : Prog ε σ α} {h : ε → Prog ε σ α}
    (hm : Keeps I m) (hh : ∀ e, Keeps I (h e)) :
  Keeps I (protect m h)
  := Spec.protect hm hh

theorem Keeps.ite {c : Prop} [Decidable c] {m m' : Prog ε σ α} (ht : Keeps I m)
    (hf : Keeps I m') :
  Keeps I (if c then m else m')
  := Spec.ite (fun _ => ht) (fun _ => hf)

theorem Keeps.onlyIf {c : Bool} {m : Prog ε σ Unit} (h : Keeps I m) :
  Keeps I (onlyIf c m)
  := Keeps.ite h Keeps.pure

/-- A loop preserves what its body preserves. -/
theorem Keeps.forM {f : α → Prog ε σ PUnit} {l : List α} (h : ∀ a ∈ l, Keeps I (f a)) :
  Keeps I (l.forM f)
  := by
  induction l with
  | nil => exact Keeps.pure
  | cons a l ih =>
    change Keeps I (f a >>= fun _ => l.forM f)
    apply Keeps.bind
    · exact h a List.mem_cons_self
    · intro _
      exact ih fun b hb => h b (List.mem_cons_of_mem a hb)

end Invariants

/-! ## What a program raises -/

/-- Whatever `m` raises from `s` satisfies `φ`. -/
def Raises (φ : ε → Prop) (m : Prog ε σ α) (s : σ) : Prop :=
  ∀ e s', exec m s = (.error e, s') → φ e

section Raises

variable {φ : ε → Prop} {s : σ}

theorem Raises.pure {a : α} :
  Raises φ (Pure.pure a : Prog ε σ α) s
  := by
  intro e s' h
  cases h

theorem Raises.throw {e : ε} (h : φ e) :
  Raises φ (throw e : Prog ε σ α) s
  := by
  intro e' s' h'
  cases h'
  exact h

theorem Raises.modify {f : σ → σ} :
  Raises φ (modify f : Prog ε σ Unit) s
  := by
  intro e s' h
  cases h

theorem Raises.bind {m : Prog ε σ α} {f : α → Prog ε σ β} (hm : Raises φ m s)
    (hf : ∀ a s', exec m s = (.ok a, s') → Raises φ (f a) s') :
  Raises φ (m >>= f) s
  := by
  intro e s' h
  rw [exec_bind] at h
  rcases hx : exec m s with ⟨e' | a, s₁⟩
  · rw [hx] at h
    have he : e' = e := Except.error.inj (congrArg Prod.fst h)
    exact hm e s₁ (he ▸ hx)
  · rw [hx] at h
    exact hf a s₁ hx e s' h

theorem Raises.get_bind {f : σ → Prog ε σ β} (hf : Raises φ (f s) s) :
  Raises φ (MonadState.get >>= f) s
  := by
  apply Raises.bind
  · intro e s' h
    cases h
  · intro a s' h
    cases h
    exact hf

/-- After a guard that does not refuse, the state is the same. -/
theorem Raises.refuse_bind {b : Bool} {e : ε} {f : Unit → Prog ε σ β} (he : b = true → φ e)
    (hf : b = false → Raises φ (f ()) s) :
  Raises φ (refuse b e >>= f) s
  := by
  cases b with
  | true => exact (Raises.throw (he rfl)).bind fun _ _ h => nomatch h
  | false =>
    apply Raises.bind
    · exact Raises.pure
    · intro a s' h
      cases h
      exact hf rfl

end Raises

/-! ## Programs that return -/

/-- A program returns a value. -/
def Returns (m : Prog ε σ α) (s : σ) : Prop :=
  ∃ a, (exec m s).1 = .ok a

section Returns

variable {s : σ}

theorem returns_pure (a : α) :
  Returns (Pure.pure a : Prog ε σ α) s
  :=
  ⟨a, rfl⟩

theorem returns_refuse_iff {b : Bool} {e : ε} :
  Returns (refuse b e : Prog ε σ Unit) s ↔ b = false
  := by
  unfold Returns
  rw [exec_refuse]
  cases b <;> simp

theorem returns_refuse_bind_iff {b : Bool} {e : ε} {f : Unit → Prog ε σ β} :
  Returns (refuse b e >>= f) s ↔ b = false ∧ Returns (f ()) s
  := by
  unfold Returns
  rw [exec_bind, exec_refuse]
  cases b <;> simp

theorem returns_get_bind_iff {f : σ → Prog ε σ β} :
  Returns (get >>= f) s ↔ Returns (f s) s
  :=
  Iff.rfl

/-- A first part that only checks. -/
theorem returns_bind_iff_of_keeps {m : Prog ε σ Unit} {f : Unit → Prog ε σ β}
    (hm : Keeps (· = s) m) :
  Returns (m >>= f) s ↔ Returns m s ∧ Returns (f ()) s
  := by
  have hafter : after m s = s := hm.after rfl
  unfold Returns
  rw [exec_bind]
  unfold after at hafter
  cases hexec : exec m s with
  | mk r s' =>
    rw [hexec] at hafter
    obtain rfl : s' = s := hafter
    cases r <;> simp

end Returns

end Raise
