import Mathlib

/-!
# Reconciling by keys

A list is to become a list of what is wanted. What has a key that is not wanted is dropped, and
what is wanted under a key that the list does not have is made, one after the other as long as it
can be made. Neither looks at what is under a key that both have. So the result is what is wanted
just if there is nothing else under such a key, and all that is missing can be made (`perm_iff`).
-/

namespace Reconcile

variable {α β κ ν : Type}

/-- Entries with distinct keys are distinct. -/
theorem nodup_of_keys {f : α → κ × ν} {l : List α} (h : (l.map fun x => (f x).1).Nodup) :
  (l.map f).Nodup
  := by
  apply List.Nodup.of_map Prod.fst
  rwa [List.map_map]

theorem eq_of_key_eq {g : β → κ × ν} {l : List β} (h : (l.map fun o => (g o).1).Nodup) {o o' : β}
    (ho : o ∈ l) (ho' : o' ∈ l) (hkey : (g o).1 = (g o').1) :
  o = o'
  := List.inj_on_of_nodup_map h ho ho' hkey

variable [DecidableEq κ]

/-- What the list keeps. -/
def kept (f : α → κ × ν) (g : β → κ × ν) (old : List α) (wanted : List β) : List α :=
  old.filter fun x => (f x).1 ∈ wanted.map fun o => (g o).1

/-- What the list is missing. -/
def missing (f : α → κ × ν) (g : β → κ × ν) (old : List α) (wanted : List β) : List β :=
  wanted.filter fun o => (g o).1 ∉ old.map fun x => (f x).1

/-- What the list has in the end, if only what is good can be made. -/
def result (f : α → κ × ν) (g : β → κ × ν) (good : β → Bool) (old : List α) (wanted : List β) :
    List (κ × ν) :=
  (kept f g old wanted).map f ++ ((missing f g old wanted).takeWhile good).map g

variable {f : α → κ × ν} {g : β → κ × ν} {good : β → Bool} {old : List α} {wanted : List β}

theorem mem_kept {x : α} :
  x ∈ kept f g old wanted ↔ x ∈ old ∧ ∃ o ∈ wanted, (g o).1 = (f x).1
  := by
  unfold kept
  rw [List.mem_filter, decide_eq_true_iff, List.mem_map]

theorem mem_missing {o : β} :
  o ∈ missing f g old wanted ↔ o ∈ wanted ∧ ∀ x ∈ old, (f x).1 ≠ (g o).1
  := by
  unfold missing
  rw [List.mem_filter, decide_eq_true_iff, List.mem_map]
  simp only [not_exists, not_and, ne_eq]

/-- No key comes twice in the result. -/
theorem nodup_result (hold : (old.map fun x => (f x).1).Nodup)
    (hwanted : (wanted.map fun o => (g o).1).Nodup) :
  (result f g good old wanted).Nodup
  := by
  have hmade : ((missing f g old wanted).takeWhile good).Sublist wanted :=
    (List.takeWhile_sublist _).trans List.filter_sublist
  apply List.Nodup.of_map Prod.fst
  unfold result
  rw [List.map_append, List.map_map, List.map_map, List.nodup_append']
  refine ⟨hold.sublist (List.filter_sublist.map _), hwanted.sublist (hmade.map _), ?_⟩
  intro k hk hk'
  obtain ⟨x, hx, rfl⟩ := List.mem_map.mp hk
  obtain ⟨o, ho, hkey⟩ := List.mem_map.mp hk'
  have hmissing := mem_missing.mp ((List.takeWhile_sublist _).subset ho)
  exact hmissing.2 x (mem_kept.mp hx).1 hkey.symm

/-- If only what is wanted is left, then it is the same under a common key. -/
theorem same_of_mem_result (hwanted : (wanted.map fun o => (g o).1).Nodup)
    (h : ∀ a ∈ result f g good old wanted, a ∈ wanted.map g) {x : α} (hx : x ∈ old) {o : β}
    (ho : o ∈ wanted) (hkey : (f x).1 = (g o).1) :
  f x = g o
  := by
  have hmem : f x ∈ result f g good old wanted := by
    apply List.mem_append_left
    exact List.mem_map_of_mem (mem_kept.mpr ⟨hx, o, ho, hkey.symm⟩)
  obtain ⟨o', ho', hsame⟩ := List.mem_map.mp (h _ hmem)
  have hkey' : (g o').1 = (g o).1 := by rw [hsame, hkey]
  rw [← hsame, eq_of_key_eq hwanted ho' ho hkey']

/-- What is in the result, but under no key of the list, has been made. -/
theorem good_of_mem_result (hwanted : (wanted.map fun o => (g o).1).Nodup) {o : β}
    (ho : o ∈ wanted) (hmem : g o ∈ result f g good old wanted)
    (hno : ∀ x ∈ old, (f x).1 ≠ (g o).1) :
  good o = true
  := by
  rcases List.mem_append.mp hmem with hmem | hmem
  · obtain ⟨x, hx, hsame⟩ := List.mem_map.mp hmem
    exact absurd (congrArg Prod.fst hsame) (hno x (mem_kept.mp hx).1)
  · obtain ⟨o', ho', hsame⟩ := List.mem_map.mp hmem
    have hwant := mem_missing.mp ((List.takeWhile_sublist _).subset ho')
    obtain rfl := eq_of_key_eq hwanted hwant.1 ho (congrArg Prod.fst hsame)
    exact List.mem_takeWhile_imp ho'

theorem mem_result_iff
    (hsame : ∀ x ∈ old, ∀ o ∈ wanted, (f x).1 = (g o).1 → f x = g o)
    (hgood : ∀ o ∈ wanted, (∀ x ∈ old, (f x).1 ≠ (g o).1) → good o = true) (a : κ × ν) :
  a ∈ result f g good old wanted ↔ a ∈ wanted.map g
  := by
  have hall : (missing f g old wanted).takeWhile good = missing f g old wanted := by
    rw [List.takeWhile_eq_self_iff]
    intro o ho
    have hmissing := mem_missing.mp ho
    exact hgood o hmissing.1 hmissing.2
  unfold result
  rw [hall, List.mem_append]
  constructor
  · rintro (ha | ha)
    · obtain ⟨x, hx, rfl⟩ := List.mem_map.mp ha
      obtain ⟨hx, o, ho, hkey⟩ := mem_kept.mp hx
      rw [hsame x hx o ho hkey.symm]
      exact List.mem_map_of_mem ho
    · obtain ⟨o, ho, rfl⟩ := List.mem_map.mp ha
      exact List.mem_map_of_mem (mem_missing.mp ho).1
  · intro ha
    obtain ⟨o, ho, rfl⟩ := List.mem_map.mp ha
    by_cases hold : ∃ x ∈ old, (f x).1 = (g o).1
    · obtain ⟨x, hx, hkey⟩ := hold
      left
      rw [← hsame x hx o ho hkey]
      exact List.mem_map_of_mem (mem_kept.mpr ⟨hx, o, ho, hkey.symm⟩)
    · right
      push Not at hold
      exact List.mem_map_of_mem (mem_missing.mpr ⟨ho, hold⟩)

/-- The result is what is wanted just if what is under a common key is the same, and what is
missing is good. -/
theorem perm_iff (hold : (old.map fun x => (f x).1).Nodup)
    (hwanted : (wanted.map fun o => (g o).1).Nodup) :
  (result f g good old wanted).Perm (wanted.map g) ↔
    (∀ x ∈ old, ∀ o ∈ wanted, (f x).1 = (g o).1 → f x = g o)
      ∧ ∀ o ∈ wanted, (∀ x ∈ old, (f x).1 ≠ (g o).1) → good o = true
  := by
  rw [List.perm_ext_iff_of_nodup (nodup_result hold hwanted) (nodup_of_keys hwanted)]
  constructor
  · intro h
    constructor
    · intro x hx o ho hkey
      exact same_of_mem_result hwanted (fun a => (h a).mp) hx ho hkey
    · intro o ho hno
      exact good_of_mem_result hwanted ho ((h (g o)).mpr (List.mem_map_of_mem ho)) hno
  · rintro ⟨hsame, hgood⟩
    exact mem_result_iff hsame hgood

end Reconcile
