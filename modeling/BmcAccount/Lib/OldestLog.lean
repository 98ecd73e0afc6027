import Mathlib

/-!
# Logs that overwrite their oldest record

A log of a bounded length takes new records at its end until it is full; then a new record replaces
the first one of the oldest. `Holds key n l times` says that the records `l` have the most recent
`n` of the given times, which are listed with the latest one first, and `Holds.record` that this
stays so when a record is added.
-/

namespace OldestLog

variable {α κ : Type} {key : α → κ}

/-! ## The most recent records -/

/-- The records have the most recent of the times. -/
def Holds (key : α → κ) (n : ℕ) (l : List α) (times : List κ) : Prop :=
  (l.map key).Perm (times.take n)

theorem Holds.length_eq {n : ℕ} {l : List α} {times : List κ} (h : Holds key n l times) :
  l.length = min n times.length
  := by
  have hlen := List.Perm.length_eq h
  rwa [List.length_map, List.length_take] at hlen

theorem holds_nil (key : α → κ) (n : ℕ) :
  Holds key n [] []
  := by
  rw [Holds, List.take_nil]
  exact List.Perm.refl _

/-- Of a property that holds of a first part of a list, so many elements are found in it. -/
theorem countP_take {p : κ → Bool} {ts : List κ} (n : ℕ)
    (h : ts.Pairwise fun t t' => p t' = true → p t = true) :
  (ts.take n).countP p = min n (ts.countP p)
  := by
  induction ts generalizing n with
  | nil => simp
  | cons t ts ih =>
    rw [List.pairwise_cons] at h
    cases n with
    | zero => simp
    | succ n =>
      rw [List.take_succ_cons, List.countP_cons, List.countP_cons, ih n h.2]
      cases ht : p t with
      | true => simp only [if_true, Nat.succ_min_succ]
      | false =>
        have hnone : ts.countP p = 0 := by
          rw [List.countP_eq_zero]
          intro t' ht' hp
          rw [h.1 t' ht' hp] at ht
          cases ht
        simp [hnone]

/-- Replacing a record by a new one. -/
theorem set_perm {l : List α} {a : α} {ts : List κ} {i : ℕ} (h : (l.map key).Perm (key a :: ts))
    (hget : l[i]? = some a) (x : α) :
  ((l.set i x).map key).Perm (key x :: ts)
  := by
  obtain ⟨hi, hget⟩ := List.getElem?_eq_some_iff.mp hget
  have herase := ((List.getElem_cons_eraseIdx_perm hi).map key).trans h
  rw [hget, List.map_cons] at herase
  have hset := (List.set_perm_cons_eraseIdx hi x).map key
  rw [List.map_cons] at hset
  exact hset.trans (herase.cons_inv.cons (key x))

/-! ## New records -/

variable [LinearOrder κ]

/-- The index of the first oldest record: `i` is the index of the first of the records that are
left, `best` and `idx` are the time and the index of the oldest one so far. -/
def oldestFrom (key : α → κ) (best : κ) (idx i : ℕ) : List α → ℕ
  | [] => idx
  | a :: l =>
    if key a < best then oldestFrom key (key a) i (i + 1) l
    else oldestFrom key best idx (i + 1) l

/-- A log of at most `n` records with a new one. -/
def record (key : α → κ) (n : ℕ) (x : α) : List α → List α
  | [] => [x]
  | a :: l =>
    if (a :: l).length = n then (a :: l).set (oldestFrom key (key a) 0 1 l) x
    else (a :: l) ++ [x]

theorem mem_of_mem_record {n : ℕ} {x a : α} {l : List α} (h : a ∈ record key n x l) :
  a = x ∨ a ∈ l
  := by
  cases l with
  | nil => exact Or.inl (List.mem_singleton.mp h)
  | cons b l =>
    change a ∈ (if _ then _ else _) at h
    split_ifs at h
    · exact (List.mem_or_eq_of_mem_set h).symm
    · exact (List.mem_append.mp h).symm.imp_left List.mem_singleton.mp

theorem oldestFrom_spec (pre l : List α) {best : κ} {idx : ℕ} (hidx : idx < pre.length)
    (hbest : (pre ++ l)[idx]?.map key = some best) (hmin : ∀ a ∈ pre, best ≤ key a) :
  ∃ a, (pre ++ l)[oldestFrom key best idx pre.length l]? = some a ∧
    ∀ b ∈ pre ++ l, key a ≤ key b
  := by
  induction l generalizing pre best idx with
  | nil =>
    obtain ⟨a, ha, rfl⟩ := Option.map_eq_some_iff.mp hbest
    refine ⟨a, ha, ?_⟩
    simpa using hmin
  | cons a l ih =>
    have happ : pre ++ a :: l = (pre ++ [a]) ++ l := by simp
    have hlen : pre.length + 1 = (pre ++ [a]).length := by simp
    unfold oldestFrom
    rw [happ] at hbest ⊢
    rw [hlen]
    split_ifs with hlt
    · apply ih
      · simp
      · simp
      · intro b hb
        obtain hb | hb := List.mem_append.mp hb
        · exact hlt.le.trans (hmin b hb)
        · rw [List.mem_singleton.mp hb]
    · apply ih
      · rw [List.length_append]
        omega
      · exact hbest
      · intro b hb
        obtain hb | hb := List.mem_append.mp hb
        · exact hmin b hb
        · rw [List.mem_singleton.mp hb]
          exact le_of_not_gt hlt

theorem exists_oldest (key : α → κ) (a : α) (l : List α) :
  ∃ b, (a :: l)[oldestFrom key (key a) 0 1 l]? = some b ∧ ∀ c ∈ a :: l, key b ≤ key c
  :=
  oldestFrom_spec [a] l Nat.one_pos rfl (by simp)

/-- A new record is held, and in a full log it takes the place of the oldest one. -/
theorem Holds.record {n : ℕ} (hn : 0 < n) {l : List α} {times : List κ}
    (h : Holds key n l times) (hord : times.Pairwise (· ≥ ·)) (x : α) :
  Holds key n (record key n x l) (key x :: times)
  := by
  obtain ⟨m, rfl⟩ := Nat.exists_eq_succ_of_ne_zero hn.ne'
  have hlen := h.length_eq
  rw [Holds, List.take_succ_cons]
  cases l with
  | nil =>
    have hnil : times = [] := by
      rw [List.length_nil] at hlen
      apply List.length_eq_zero_iff.mp
      omega
    rw [hnil, List.take_nil]
    exact List.Perm.refl _
  | cons a l =>
    change (List.map key (if _ then _ else _)).Perm _
    split_ifs with hfull
    · have hlast : m < times.length := by omega
      have htake : times.take (m + 1) = times.take m ++ [times[m]] :=
        List.take_succ_eq_append_getElem hlast
      have hperm : ((a :: l).map key).Perm (times[m] :: times.take m) := by
        rw [Holds, Nat.succ_eq_add_one, htake] at h
        exact h.trans (List.perm_append_singleton _ _)
      have hmin : ∀ t ∈ times.take m, times[m] ≤ t := by
        have hord' := hord.sublist (List.take_sublist (m + 1) times)
        rw [htake] at hord'
        intro t ht
        exact (List.pairwise_append.mp hord').2.2 t ht _ (List.mem_singleton.mpr rfl)
      obtain ⟨b, hb, hold⟩ := exists_oldest key a l
      have hkey : key b = times[m] := by
        apply le_antisymm
        · obtain ⟨c, hc, hkey⟩ := List.mem_map.mp (hperm.mem_iff.mpr List.mem_cons_self)
          rw [← hkey]
          exact hold c hc
        · have hmem := hperm.mem_iff.mp (List.mem_map_of_mem (List.mem_of_getElem? hb))
          rcases List.mem_cons.mp hmem with heq | hmem
          · exact heq.ge
          · exact hmin _ hmem
      rw [← hkey] at hperm
      exact set_perm hperm hb x
    · have hshort : times.length < m + 1 := by
        rw [hlen] at hfull
        omega
      rw [Holds, List.take_of_length_le hshort.le] at h
      rw [List.take_of_length_le (Nat.le_of_lt_succ hshort), List.map_append, List.map_singleton]
      exact (List.perm_append_singleton _ _).trans (h.cons _)

/-! ## Counting -/

theorem Holds.countP_eq {n : ℕ} {l : List α} {times : List κ} (h : Holds key n l times)
    (hord : times.Pairwise (· ≥ ·)) {p : κ → Bool} (hp : ∀ t t', t ≤ t' → p t = true → p t' = true) :
  l.countP (fun a => p (key a)) = min n (times.countP p)
  := by
  have hcount : l.countP (fun a => p (key a)) = (l.map key).countP p := by
    rw [List.countP_map]
    rfl
  rw [hcount, List.Perm.countP_eq p h]
  exact countP_take n (hord.imp fun hle => hp _ _ hle)

/-- The latest record is the first of the times. -/
theorem Holds.foldl_max {key : α → ℕ} {n : ℕ} (hn : 0 < n) {l : List α} {times : List ℕ}
    (h : Holds key n l times) (hord : times.Pairwise (· ≥ ·)) :
  l.foldl (fun t a => max t (key a)) 0 = times.headD 0
  := by
  have hfold : (l.map key).foldl max 0 = (times.take n).foldl max 0 := by
    apply List.Perm.foldl_eq' h
    intro a _ b _ t
    rw [max_assoc, max_assoc, max_comm a b]
  rw [← List.foldl_map, hfold]
  obtain ⟨m, rfl⟩ := Nat.exists_eq_succ_of_ne_zero hn.ne'
  cases times with
  | nil => simp
  | cons t ts =>
    have hmax (us : List ℕ) (hus : ∀ u ∈ us, u ≤ t) : us.foldl max t = t := by
      induction us with
      | nil => rfl
      | cons u us ih =>
        rw [List.forall_mem_cons] at hus
        rw [List.foldl_cons, max_eq_left hus.1]
        exact ih hus.2
    rw [List.take_succ_cons, List.foldl_cons, Nat.zero_max, List.headD_cons]
    apply hmax
    intro u hu
    exact List.rel_of_pairwise_cons hord (List.mem_of_mem_take hu)

end OldestLog
