import BmcAccount.Lib.Raise

/-!
# Loops that delete from the list that they walk

A loop goes through a list from its end, tests each element, and deletes those that are meant.
What is deleted is not the element at the place of the loop but the first one with its key. Where
all elements are meant, none is left, whatever their keys are (`exec_sweep_all`). Whatever is
preserved when an element is deleted is preserved by the loop (`keeps_sweep`).

The list is a part of the state. `P l s` says that it is `l` in the state `s`, and all that is
known of the rest of `s` besides.
-/

namespace Sweep

open Raise

variable {ε σ α κ : Type}

/-! ## The loop -/

section Loop

variable (read : σ → List α) (missing : ε) (meant : α → Except ε Bool) (delete : α → Prog ε σ Unit)

/-- The element at a place is tested, and is deleted if it is meant. -/
def visit (i : ℕ) : Prog ε σ Unit := do
  let s ← get
  let x ← outcome ((read s)[i]?.elim (.error missing) .ok)
  let b ← outcome (meant x)
  onlyIf b (delete x)

/-- The places are visited from the last one down to the first. -/
def sweep : Prog ε σ Unit := do
  let s ← get
  (List.range (read s).length).reverse.forM (visit read missing meant delete)

end Loop

variable {read : σ → List α} {missing : ε} {meant : α → Except ε Bool}
  {delete : α → Prog ε σ Unit} {s : σ}

theorem exec_visit {i : ℕ} {x : α} {b : Bool} (hx : (read s)[i]? = some x) (hb : meant x = .ok b) :
  exec (visit read missing meant delete i) s = exec (onlyIf b (delete x)) s
  := by
  unfold visit
  rw [exec_bind_ok (exec_get s), hx, Option.elim_some, exec_bind_ok (exec_outcome _ s), hb,
    exec_bind_ok (exec_outcome _ s)]

theorem exec_sweep_eq {n : ℕ} (hn : (read s).length = n) :
  exec (sweep read missing meant delete) s
    = exec ((List.range n).reverse.forM (visit read missing meant delete)) s
  := by
  unfold sweep
  rw [exec_bind_ok (exec_get s), hn]

theorem range_succ_reverse (n : ℕ) :
  (List.range (n + 1)).reverse = n :: (List.range n).reverse
  := by
  rw [List.range_succ, List.reverse_append]
  rfl

/-- The loop ends where the last element cannot be tested. -/
theorem exec_sweep_error {pre : List α} {x : α} {e : ε} (hread : read s = pre ++ [x])
    (he : meant x = .error e) :
  exec (sweep read missing meant delete) s = (.error e, s)
  := by
  have hvisit : exec (visit read missing meant delete pre.length) s = (.error e, s) := by
    unfold visit
    rw [exec_bind_ok (exec_get s), hread, List.getElem?_concat_length, Option.elim_some,
      exec_bind_ok (exec_outcome _ s), he, exec_bind_error (exec_outcome _ s)]
  rw [exec_sweep_eq (n := pre.length + 1) (by rw [hread]; simp), range_succ_reverse,
    exec_forM_cons, exec_bind_error hvisit]

/-! ## What is left -/

section Keys

variable [DecidableEq κ] (key : α → κ) (P : List α → σ → Prop)

/-- A loop in which all elements are meant leaves none. -/
theorem exec_sweep_all (hread : ∀ l s, P l s → read s = l) (hmeant : ∀ x, meant x = .ok true)
    (hdelete : ∀ l s x, P l s → x ∈ l →
      ∃ s', exec (delete x) s = (.ok (), s') ∧ P (l.eraseP fun y => key x = key y) s')
    {l : List α} (hs : P l s) :
  ∃ s', exec (sweep read missing meant delete) s = (.ok (), s') ∧ P [] s'
  := by
  have hvisits : ∀ (n : ℕ) (l : List α) (s : σ), l.length = n → P l s →
      ∃ s', exec ((List.range n).reverse.forM (visit read missing meant delete)) s = (.ok (), s')
        ∧ P [] s' := by
    intro n
    induction n with
    | zero =>
      intro l s hlen hs
      rw [List.length_eq_zero_iff.mp hlen] at hs
      exact ⟨s, rfl, hs⟩
    | succ n ih =>
      intro l s hlen hs
      obtain ⟨x, hx⟩ : ∃ x, l[n]? = some x :=
        Option.isSome_iff_exists.mp (by simp [hlen])
      have hmem := List.mem_of_getElem? hx
      obtain ⟨s₁, hexec₁, hs₁⟩ := hdelete l s x hs hmem
      have hvisit : exec (visit read missing meant delete n) s = (.ok (), s₁) := by
        rw [exec_visit (by rwa [hread l s hs]) (hmeant x)]
        exact hexec₁
      have hone : (l.eraseP fun y => key x = key y).length = n := by
        rw [List.length_eraseP_of_mem hmem (by simp), hlen]
        rfl
      obtain ⟨s', hexec, hs'⟩ := ih _ s₁ hone hs₁
      refine ⟨s', ?_, hs'⟩
      rw [range_succ_reverse, exec_forM_cons, exec_bind_ok hvisit, hexec]
  rw [exec_sweep_eq (congrArg List.length (hread l s hs))]
  exact hvisits l.length l s rfl hs

end Keys

/-- A loop in which no element is meant changes nothing. -/
theorem exec_sweep_none (hnone : ∀ x ∈ read s, meant x = .ok false) :
  exec (sweep read missing meant delete) s = (.ok (), s)
  := by
  have hvisits : ∀ n ≤ (read s).length,
      exec ((List.range n).reverse.forM (visit read missing meant delete)) s = (.ok (), s) := by
    intro n hn
    induction n with
    | zero => rfl
    | succ n ih =>
      obtain ⟨x, hx⟩ : ∃ x, (read s)[n]? = some x :=
        Option.isSome_iff_exists.mp (by simp; omega)
      have hvisit : exec (visit read missing meant delete n) s = (.ok (), s) := by
        rw [exec_visit hx (hnone x (List.mem_of_getElem? hx))]
        rfl
      rw [range_succ_reverse, exec_forM_cons, exec_bind_ok hvisit, ih (by omega)]
  rw [exec_sweep_eq rfl]
  exact hvisits _ le_rfl

/-- A loop preserves what is preserved when an element that is there and is meant is deleted. -/
theorem keeps_sweep {I : σ → Prop}
    (hdelete : ∀ x, meant x = .ok true →
      Spec (fun s => I s ∧ x ∈ read s) (delete x) (fun _ => I) I) :
  Keeps I (sweep read missing meant delete)
  := by
  unfold sweep
  apply Keeps.bind Keeps.get
  intro _
  apply Keeps.forM
  intro i _ s hs
  unfold visit
  rw [exec_bind_ok (exec_get s)]
  cases hx : (read s)[i]? with
  | none =>
    rw [Option.elim_none, exec_bind_error (exec_outcome _ s)]
    exact hs
  | some x =>
    rw [Option.elim_some, exec_bind_ok (exec_outcome _ s)]
    cases hb : meant x with
    | error e =>
      rw [exec_bind_error (exec_outcome _ s)]
      exact hs
    | ok b =>
      rw [exec_bind_ok (exec_outcome _ s)]
      cases b with
      | false => exact hs
      | true => exact hdelete x hb s ⟨hs, List.mem_of_getElem? hx⟩

end Sweep
