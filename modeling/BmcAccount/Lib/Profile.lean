import BmcAccount.Lib.Raise

/-!
# Profiles

A profile has properties of a state: how each of them is exported, and how it is imported. A file
lists properties with values, and says of each whether it is to be imported. The properties of a
file are imported one after the other. One that has its value already is left alone, and if one
cannot be imported then an error says which, and the rest is not imported.

What is asked of the properties is that each can be given its value without a change of the others.
Then a file is laid over what the state exports, whatever the order is in which it lists the
properties (`exec_importAll`), and the file of another state makes the state export what that one
exports (`exec_importAll_exportAll`).
-/

namespace BmcAccount

namespace Profile

open Raise

variable {σ ε K V : Type}

/-- A program that looks at the state keeps what it keeps in each state. -/
theorem keeps_get_bind {α : Type} {I : σ → Prop} {f : σ → Prog ε σ α}
    (h : ∀ s, I s → Spec (· = s) (f s) (fun _ => I) I) :
  Keeps I (get >>= f)
  := fun s hs => h s hs s rfl

/-- A property as a file has it. -/
structure Setting (V : Type) where
  imported : Bool
  value : V

/-- The properties of a state, which export no value where there is none, and the error that is
raised if one of them cannot be imported. -/
structure Adapter (σ ε K V : Type) where
  exports : σ → K → Option V
  imports : K → V → Prog ε σ Unit
  failure : K → ε

namespace Adapter

variable (a : Adapter σ ε K V)

/-- The properties as a file has them that has been exported. -/
def exportAll (s : σ) (keys : List K) : List (K × Setting V) :=
  keys.filterMap fun k => (a.exports s k).map fun v => (k, ⟨true, v⟩)

variable [DecidableEq V]

/-- A property is imported. -/
def importProperty (k : K) (x : Setting V) : Prog ε σ Unit :=
  protect (do
    let s ← get
    onlyIf (x.imported && a.exports s k ≠ some x.value) (a.imports k x.value))
    fun _ => throw (a.failure k)

/-- The properties of a file are imported. -/
def importAll (l : List (K × Setting V)) : Prog ε σ Unit :=
  l.forM fun e => a.importProperty e.1 e.2

end Adapter

/-! ## Laying a file over a state -/

section Overlay

variable [DecidableEq K]

/-- The properties with those of a file in their places. -/
def overlay (f : K → Option V) (l : List (K × Setting V)) : K → Option V :=
  l.foldl (fun f e => if e.2.imported then Function.update f e.1 (some e.2.value) else f) f

theorem overlay_cons (f : K → Option V) (e : K × Setting V) (l : List (K × Setting V)) :
  overlay f (e :: l)
    = overlay (if e.2.imported then Function.update f e.1 (some e.2.value) else f) l
  := rfl

theorem overlay_append (f : K → Option V) (l l' : List (K × Setting V)) :
  overlay f (l ++ l') = overlay (overlay f l) l'
  := List.foldl_append

/-- If a file gives a property a single value, then the property has it. -/
theorem overlay_apply {f : K → Option V} {l : List (K × Setting V)} {k : K} {v : Option V}
    (h : ∀ e ∈ l, e.1 = k → e.2.imported = true → some e.2.value = v) :
  overlay f l k = if ∃ e ∈ l, e.1 = k ∧ e.2.imported = true then v else f k
  := by
  induction l generalizing f with
  | nil => simp [overlay]
  | cons e l ih =>
    rw [overlay_cons, ih fun e' he' => h e' (List.mem_cons_of_mem _ he')]
    by_cases hrest : ∃ e' ∈ l, e'.1 = k ∧ e'.2.imported = true
    · have hall : ∃ e' ∈ e :: l, e'.1 = k ∧ e'.2.imported = true := by
        obtain ⟨e', he', hkey⟩ := hrest
        exact ⟨e', List.mem_cons_of_mem _ he', hkey⟩
      rw [if_pos hrest, if_pos hall]
    · rw [if_neg hrest]
      by_cases hfirst : e.1 = k ∧ e.2.imported = true
      · obtain ⟨rfl, himported⟩ := hfirst
        rw [if_pos himported, Function.update_self, h e List.mem_cons_self rfl himported,
          if_pos ⟨e, List.mem_cons_self, rfl, himported⟩]
      · have hall : ¬ ∃ e' ∈ e :: l, e'.1 = k ∧ e'.2.imported = true := by
          rintro ⟨e', he', hkey⟩
          rcases List.mem_cons.mp he' with rfl | he'
          · exact hfirst hkey
          · exact hrest ⟨e', he', hkey⟩
        rw [if_neg hall]
        by_cases himported : e.2.imported = true
        · have hkey : k ≠ e.1 := fun hkey => hfirst ⟨hkey.symm, himported⟩
          rw [if_pos himported, Function.update_of_ne hkey]
        · rw [if_neg himported]

end Overlay

/-! ## Importing a file -/

namespace Adapter

variable (a : Adapter σ ε K V)

/-- In the states with the invariant the property can be given the value, and the others are left
as they are. -/
def Takes [DecidableEq K] (I : σ → Prop) (k : K) (v : V) : Prop :=
  ∀ s, I s → a.exports s k ≠ some v →
    ∃ s', exec (a.imports k v) s = (.ok (), s') ∧ I s'
      ∧ a.exports s' = Function.update (a.exports s) k (some v)

variable {a} {I : σ → Prop} {s : σ} [DecidableEq V]

omit [DecidableEq V] in
theorem mem_exportAll {keys : List K} {e : K × Setting V} :
  e ∈ a.exportAll s keys
    ↔ e.1 ∈ keys ∧ e.2.imported = true ∧ a.exports s e.1 = some e.2.value
  := by
  obtain ⟨k, imported, v⟩ := e
  unfold exportAll
  rw [List.mem_filterMap]
  constructor
  · rintro ⟨k', hk', he⟩
    obtain ⟨v', hv', heq⟩ := Option.map_eq_some_iff.mp he
    cases heq
    exact ⟨hk', rfl, hv'⟩
  · rintro ⟨hk, rfl, hv⟩
    refine ⟨k, hk, ?_⟩
    rw [hv, Option.map_some]

section Takes

variable [DecidableEq K]

theorem exec_importProperty {k : K} {x : Setting V} (h : x.imported = true → a.Takes I k x.value)
    (hs : I s) :
  ∃ s', exec (a.importProperty k x) s = (.ok (), s') ∧ I s'
    ∧ a.exports s'
      = if x.imported then Function.update (a.exports s) k (some x.value) else a.exports s
  := by
  unfold importProperty
  rw [exec_protect, exec_bind_ok (exec_get s)]
  by_cases himported : x.imported = true
  · rw [himported, if_pos rfl, Bool.true_and]
    by_cases hvalue : a.exports s k = some x.value
    · refine ⟨s, ?_, hs, ?_⟩
      · rw [hvalue, decide_eq_false (not_not.mpr rfl), exec_onlyIf_false]
      · rw [← hvalue, Function.update_eq_self]
    · obtain ⟨s', hexec, hs', hexports⟩ := h himported s hs hvalue
      refine ⟨s', ?_, hs', hexports⟩
      have honly : exec (onlyIf true (a.imports k x.value)) s = (.ok (), s') := hexec
      rw [decide_eq_true hvalue, honly]
  · rw [Bool.not_eq_true] at himported
    refine ⟨s, ?_, hs, ?_⟩
    · rw [himported, Bool.false_and, exec_onlyIf_false]
    · rw [himported, if_neg Bool.false_ne_true]

/-- A file of values that the properties can be given is laid over the state. -/
theorem exec_importAll {l : List (K × Setting V)}
    (h : ∀ e ∈ l, e.2.imported = true → a.Takes I e.1 e.2.value) (hs : I s) :
  ∃ s', exec (a.importAll l) s = (.ok (), s') ∧ I s'
    ∧ a.exports s' = overlay (a.exports s) l
  := by
  induction l generalizing s with
  | nil => exact ⟨s, rfl, hs, rfl⟩
  | cons e l ih =>
    obtain ⟨s₁, hfirst, hs₁, hexports₁⟩ := exec_importProperty (h e List.mem_cons_self) hs
    obtain ⟨s₂, hrest, hs₂, hexports₂⟩ := ih (fun e' he' => h e' (List.mem_cons_of_mem _ he')) hs₁
    refine ⟨s₂, ?_, hs₂, ?_⟩
    · unfold importAll at hrest ⊢
      rw [exec_forM_cons, exec_bind_ok hfirst, hrest]
    · rw [hexports₂, hexports₁, overlay_cons]

/-- The file of another state makes the properties what they are there. -/
theorem exec_importAll_exportAll {t : σ} {keys : List K}
    (h : ∀ k ∈ keys, ∀ v ∈ a.exports t k, a.Takes I k v) (hs : I s) :
  ∃ s', exec (a.importAll (a.exportAll t keys)) s = (.ok (), s') ∧ I s'
    ∧ ∀ k, a.exports s' k = if k ∈ keys then (a.exports t k).or (a.exports s k) else a.exports s k
  := by
  have htakes : ∀ e ∈ a.exportAll t keys, e.2.imported = true → a.Takes I e.1 e.2.value := by
    intro e he _
    obtain ⟨hk, -, hv⟩ := mem_exportAll.mp he
    exact h e.1 hk e.2.value hv
  obtain ⟨s', hexec, hs', hexports⟩ := exec_importAll htakes hs
  refine ⟨s', hexec, hs', fun k => ?_⟩
  have hvalue : ∀ e ∈ a.exportAll t keys, e.1 = k → e.2.imported = true →
      some e.2.value = a.exports t k := by
    rintro e he rfl _
    exact (mem_exportAll.mp he).2.2.symm
  rw [hexports, overlay_apply hvalue]
  by_cases hlisted : ∃ e ∈ a.exportAll t keys, e.1 = k ∧ e.2.imported = true
  · obtain ⟨e, he, rfl, himported⟩ := hlisted
    obtain ⟨hk, -, hv⟩ := mem_exportAll.mp he
    rw [if_pos ⟨e, he, rfl, himported⟩, if_pos hk, hv, Option.some_or]
  · rw [if_neg hlisted]
    split_ifs with hk
    · have hnone : a.exports t k = none := by
        rw [Option.eq_none_iff_forall_ne_some]
        intro v hv
        exact hlisted ⟨(k, ⟨true, v⟩), mem_exportAll.mpr ⟨hk, rfl, hv⟩, rfl, rfl⟩
      rw [hnone, Option.none_or]
    · rfl

end Takes

/-- Files that are imported one after the other. -/
theorem importAll_flatMap {X : Type} (entries : X → List (K × Setting V)) (l : List X) (s : σ) :
  exec (a.importAll (l.flatMap entries)) s = exec (l.forM fun x => a.importAll (entries x)) s
  := by
  induction l generalizing s with
  | nil => rfl
  | cons x l ih =>
    unfold importAll at ih ⊢
    rw [List.flatMap_cons, exec_forM_append, exec_forM_cons, exec_bind, exec_bind]
    rcases exec ((entries x).forM fun e => a.importProperty e.1 e.2) s with ⟨e | _, s'⟩
    · rfl
    · exact ih s'

/-- Whether it raises or not, it keeps what setting the properties keeps. -/
theorem keeps_importAll {l : List (K × Setting V)}
    (h : ∀ x ∈ l, Keeps I (a.imports x.1 x.2.value)) :
  Keeps I (a.importAll l)
  := by
  apply Keeps.forM
  intro x hx
  apply Keeps.protect
  · exact Keeps.get.bind fun s => (h x hx).onlyIf
  · exact fun _ => Keeps.throw

end Adapter

end Profile

end BmcAccount
