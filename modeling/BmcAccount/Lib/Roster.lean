import Mathlib

/-!
# Rosters

A roster is a list of members that can have a member more than once. Taking a member out
removes a fixed number of occurrences, the first ones, and joining adds one at the end unless
there is one. `moveMember` takes somebody out who joins again if this is their roster.

Moving everybody and then taking out those that are gone is `settle`. `settle_eq` says what it
does to any roster. Doing it again changes nothing if and only if the roster is `Settled`: those
of the moved who are left once everybody has been taken out are at the end, in the order in
which they are moved, and the roster is theirs (`settle_again`, `settled_of_again`).
-/

namespace Roster

variable {α : Type} [DecidableEq α]

/-! ## Joining -/

/-- The roster with a member. -/
def join (users : List α) (u : α) : List α :=
  if u ∈ users then users else users ++ [u]

/-- The roster with many members. -/
def joinAll (names users : List α) : List α :=
  names.foldl join users

theorem mem_join {users : List α} {u v : α} :
  v ∈ join users u ↔ v ∈ users ∨ v = u
  := by
  unfold join
  split
  case isTrue h =>
    constructor
    · exact Or.inl
    · rintro (hv | rfl)
      · exact hv
      · exact h
  case isFalse => simp

theorem mem_joinAll {names users : List α} {v : α} :
  v ∈ joinAll names users ↔ v ∈ users ∨ v ∈ names
  := by
  induction names generalizing users with
  | nil => simp [joinAll]
  | cons u names ih =>
    rw [joinAll, List.foldl_cons]
    rw [show v ∈ names.foldl join (join users u) ↔ _ from ih, mem_join, List.mem_cons, or_assoc]

/-- Those who are not there yet join at the end, once each. -/
theorem joinAll_eq_append (names users : List α) :
  ∃ extra, joinAll names users = users ++ extra ∧ extra.Nodup
    ∧ ∀ u ∈ extra, u ∈ names ∧ u ∉ users
  := by
  induction names generalizing users with
  | nil => exact ⟨[], (List.append_nil _).symm, List.nodup_nil, fun u hu => absurd hu List.not_mem_nil⟩
  | cons u names ih =>
    obtain ⟨extra, heq, hnodup, hextra⟩ := ih (join users u)
    by_cases hu : u ∈ users
    · rw [join, if_pos hu] at heq hextra
      refine ⟨extra, ?_, hnodup, ?_⟩
      · rw [joinAll, List.foldl_cons, join, if_pos hu]
        exact heq
      · intro v hv
        exact ⟨List.mem_cons_of_mem _ (hextra v hv).1, (hextra v hv).2⟩
    · refine ⟨u :: extra, ?_, ?_, ?_⟩
      · rw [joinAll, List.foldl_cons]
        rw [show names.foldl join (join users u) = _ from heq, join, if_neg hu, List.append_assoc]
        rfl
      · rw [List.nodup_cons]
        refine ⟨?_, hnodup⟩
        intro hmem
        exact (hextra u hmem).2 (mem_join.mpr (Or.inr rfl))
      · intro v hv
        rcases List.mem_cons.mp hv with rfl | hv
        · exact ⟨List.mem_cons_self, hu⟩
        · refine ⟨List.mem_cons_of_mem _ (hextra v hv).1, ?_⟩
          intro hmem
          exact (hextra v hv).2 (mem_join.mpr (Or.inl hmem))

theorem joinAll_of_subset {names users : List α} (h : ∀ u ∈ names, u ∈ users) :
  joinAll names users = users
  := by
  obtain ⟨extra, heq, -, hextra⟩ := joinAll_eq_append names users
  have hnil : extra = [] := by
    rw [List.eq_nil_iff_forall_not_mem]
    intro u hu
    exact (hextra u hu).2 (h u (hextra u hu).1)
  rw [heq, hnil, List.append_nil]

/-! ## Taking out -/

/-- The roster with the first `n` occurrences of a member removed. -/
def eraseTimes (n : ℕ) (u : α) (users : List α) : List α :=
  (List.erase · u)^[n] users

/-- The roster with the first `n` occurrences of each of the names removed. -/
def eraseAll (n : ℕ) (names users : List α) : List α :=
  names.foldl (fun users u => eraseTimes n u users) users

theorem eraseTimes_succ (n : ℕ) (u : α) (users : List α) :
  eraseTimes (n + 1) u users = eraseTimes n u (users.erase u)
  :=
  Function.iterate_succ_apply _ n users

@[simp]
theorem eraseAll_cons (n : ℕ) (u : α) (names users : List α) :
  eraseAll n (u :: names) users = eraseAll n names (eraseTimes n u users)
  := rfl

theorem eraseAll_append (n : ℕ) (names names' users : List α) :
  eraseAll n (names ++ names') users = eraseAll n names' (eraseAll n names users)
  :=
  List.foldl_append

theorem eraseAll_zero (names users : List α) :
  eraseAll 0 names users = users
  := by
  induction names with
  | nil => rfl
  | cons u names ih => exact ih

theorem count_eraseTimes (n : ℕ) (u v : α) (users : List α) :
  (eraseTimes n u users).count v = users.count v - if v = u then n else 0
  := by
  induction n generalizing users with
  | zero => simp [eraseTimes]
  | succ n ih =>
    rw [eraseTimes_succ, ih]
    by_cases hv : v = u
    · subst hv
      rw [List.count_erase_self, if_pos rfl, if_pos rfl]
      omega
    · rw [List.count_erase_of_ne hv, if_neg hv, if_neg hv]

theorem count_eraseAll {n : ℕ} {names : List α} (hnodup : names.Nodup) (v : α)
    (users : List α) :
  (eraseAll n names users).count v = users.count v - if v ∈ names then n else 0
  := by
  induction names generalizing users with
  | nil => simp [eraseAll]
  | cons u names ih =>
    obtain ⟨hu, hnodup⟩ := List.nodup_cons.mp hnodup
    rw [eraseAll_cons, ih hnodup, count_eraseTimes]
    by_cases hv : v = u
    · subst hv
      rw [if_pos rfl, if_neg hu, if_pos List.mem_cons_self, Nat.sub_zero]
    · by_cases hmem : v ∈ names
      · rw [if_neg hv, if_pos hmem, if_pos (List.mem_cons_of_mem _ hmem), Nat.sub_zero]
      · have hnot : v ∉ u :: names := by
          rw [List.mem_cons, not_or]
          exact ⟨hv, hmem⟩
        rw [if_neg hv, if_neg hmem, if_neg hnot, Nat.sub_zero]

theorem eraseTimes_of_not_mem (n : ℕ) {u : α} {users : List α} (h : u ∉ users) :
  eraseTimes n u users = users
  :=
  Function.iterate_fixed (List.erase_of_not_mem h) n

theorem eraseTimes_append (n : ℕ) {u : α} {users users' : List α} (h : u ∉ users') :
  eraseTimes n u (users ++ users') = eraseTimes n u users ++ users'
  := by
  induction n generalizing users with
  | zero => rfl
  | succ n ih =>
    have herase : (users ++ users').erase u = users.erase u ++ users' := by
      rw [List.erase_append]
      split
      · rfl
      case isFalse hu => rw [List.erase_of_not_mem h, List.erase_of_not_mem hu]
    rw [eraseTimes_succ, eraseTimes_succ, herase, ih]

theorem eraseAll_append_users (n : ℕ) {names users users' : List α}
    (h : ∀ u ∈ names, u ∉ users') :
  eraseAll n names (users ++ users') = eraseAll n names users ++ users'
  := by
  induction names generalizing users with
  | nil => rfl
  | cons u names ih =>
    rw [eraseAll_cons, eraseAll_cons, eraseTimes_append n (h u List.mem_cons_self)]
    exact ih fun v hv => h v (List.mem_cons_of_mem _ hv)

theorem eraseAll_sublist (n : ℕ) (names users : List α) :
  (eraseAll n names users).Sublist users
  := by
  have htimes : ∀ n u (users : List α), (eraseTimes n u users).Sublist users := by
    intro n u
    induction n with
    | zero => exact fun users => List.Sublist.refl users
    | succ n ih =>
      intro users
      rw [eraseTimes_succ]
      exact (ih _).trans List.erase_sublist
  induction names generalizing users with
  | nil => exact List.Sublist.refl users
  | cons u names ih => exact (ih _).trans (htimes n u users)

/-- Whether somebody is there does not depend on the others. -/
theorem mem_eraseAll_of_not_mem {n : ℕ} {names users : List α} {v : α} (h : v ∉ names) :
  v ∈ eraseAll n names users ↔ v ∈ users
  := by
  constructor
  · exact fun hv => (eraseAll_sublist n names users).subset hv
  · intro hv
    induction names generalizing users with
    | nil => exact hv
    | cons u names ih =>
      rw [List.mem_cons, not_or] at h
      rw [eraseAll_cons]
      apply ih h.2
      rw [← List.count_pos_iff, count_eraseTimes, if_neg h.1, Nat.sub_zero]
      exact List.count_pos_iff.mpr hv

/-- The order in which different members are taken out does not matter. -/
theorem eraseAll_perm (n : ℕ) {names names' : List α} (h : names.Perm names') (users : List α) :
  eraseAll n names users = eraseAll n names' users
  := by
  have hcomm : ∀ u v : α, Function.Commute (List.erase · u) (List.erase · v) :=
    fun u v _ => List.erase_comm v u
  apply h.foldl_eq'
  intro u _ v _ users
  exact ((hcomm v u).iterate_iterate n n users)

/-- All occurrences are removed if there are not too many. -/
theorem eraseAll_eq_filter {n : ℕ} {names : List α} (hnodup : names.Nodup) {users : List α}
    (h : ∀ u ∈ names, users.count u ≤ n) :
  eraseAll n names users = users.filter (· ∉ names)
  := by
  have hnone : ∀ u ∈ names, u ∉ eraseAll n names users := by
    intro u hu
    rw [← List.count_eq_zero, count_eraseAll hnodup, if_pos hu]
    exact Nat.sub_eq_zero_of_le (h u hu)
  have hkept : eraseAll n names users = (eraseAll n names users).filter (· ∉ names) := by
    symm
    rw [List.filter_eq_self]
    intro u hu
    rw [decide_eq_true_eq]
    intro hname
    exact hnone u hname hu
  rw [hkept]
  clear hnone hkept h hnodup
  induction names generalizing users with
  | nil => rfl
  | cons u names ih =>
    have hfilter : ∀ l : List α,
        l.filter (· ∉ u :: names) = (l.filter (· ∉ names)).filter (· ≠ u) := by
      intro l
      rw [List.filter_filter]
      apply List.filter_congr
      intro v _
      rw [Bool.eq_iff_iff]
      simp only [Bool.and_eq_true, decide_eq_true_eq, List.mem_cons, not_or]
    have herase : ∀ n (l : List α), (eraseTimes n u l).filter (· ≠ u) = l.filter (· ≠ u) := by
      intro n
      induction n with
      | zero => exact fun l => rfl
      | succ n ih =>
        intro l
        rw [eraseTimes_succ, ih]
        induction l with
        | nil => rfl
        | cons v l ih =>
          by_cases hv : v = u
          · subst hv
            simp
          · rw [List.erase_cons_tail (by simpa using hv), List.filter_cons_of_pos (by simpa using hv),
              List.filter_cons_of_pos (by simpa using hv), ih]
    have hswap : ∀ l : List α,
        (l.filter (· ∉ names)).filter (· ≠ u) = (l.filter (· ≠ u)).filter (· ∉ names) := by
      intro l
      rw [List.filter_filter, List.filter_filter]
      apply List.filter_congr
      intro v _
      exact Bool.and_comm _ _
    rw [hfilter, hfilter, eraseAll_cons, ih, hswap, herase, hswap]

/-! ## Moving -/

/-- Somebody is taken out, and joins again if the roster is theirs. -/
def moveMember (n : ℕ) (users : List α) (p : α × Bool) : List α :=
  if p.2 then join (eraseTimes n p.1 users) p.1 else eraseTimes n p.1 users

/-- Those whose roster it is. -/
def own (ps : List (α × Bool)) : List α :=
  (ps.filter Prod.snd).map Prod.fst

/-- Everybody is moved, and those who are gone are taken out. -/
def settle (n : ℕ) (ps : List (α × Bool)) (gone users : List α) : List α :=
  eraseAll n gone (ps.foldl (moveMember n) users)

omit [DecidableEq α] in
theorem mem_names_of_mem_own {ps : List (α × Bool)} {u : α} (h : u ∈ own ps) :
  u ∈ ps.map Prod.fst
  :=
  (List.filter_sublist.map Prod.fst).subset h

omit [DecidableEq α] in
theorem mem_own {ps : List (α × Bool)} (hnodup : (ps.map Prod.fst).Nodup) {p : α × Bool}
    (hp : p ∈ ps) :
  p.1 ∈ own ps ↔ p.2 = true
  := by
  constructor
  · intro h
    obtain ⟨q, hq, hpq⟩ := List.mem_map.mp h
    obtain ⟨hmem, hown⟩ := List.mem_filter.mp hq
    rw [← List.inj_on_of_nodup_map hnodup hmem hp hpq]
    exact hown
  · intro h
    exact List.mem_map_of_mem (List.mem_filter.mpr ⟨hp, h⟩)

/-- Everybody is taken out, and then those join whose roster it is. -/
theorem foldl_moveMember (n : ℕ) {ps : List (α × Bool)} (hnodup : (ps.map Prod.fst).Nodup)
    {users users' : List α} (hnot : ∀ p ∈ ps, p.1 ∉ users') :
  ps.foldl (moveMember n) (users ++ users')
    = eraseAll n (ps.map Prod.fst) users ++ users'
      ++ (own ps).filter (· ∉ eraseAll n (ps.map Prod.fst) users)
  := by
  induction ps generalizing users users' with
  | nil => simp [eraseAll, own]
  | cons p ps ih =>
    rw [List.map_cons, List.nodup_cons] at hnodup
    have hp := hnot p List.mem_cons_self
    have hrest : ∀ q ∈ ps, q.1 ∉ users' := fun q hq => hnot q (List.mem_cons_of_mem _ hq)
    have hmem : p.1 ∈ eraseAll n (ps.map Prod.fst) (eraseTimes n p.1 users)
        ↔ p.1 ∈ eraseTimes n p.1 users := mem_eraseAll_of_not_mem hnodup.1
    have hmem' : p.1 ∈ eraseTimes n p.1 users ++ users' ↔ p.1 ∈ eraseTimes n p.1 users := by
      simp [hp]
    rw [List.foldl_cons, moveMember, eraseTimes_append n hp, List.map_cons, eraseAll_cons]
    by_cases hown : p.2 = true
    case neg =>
      have htail : own (p :: ps) = own ps := by
        rw [own, List.filter_cons_of_neg hown]
        rfl
      rw [if_neg hown, ih hnodup.2 hrest, htail]
    case pos =>
      have hhead : own (p :: ps) = p.1 :: own ps := by
        rw [own, List.filter_cons_of_pos hown]
        rfl
      rw [if_pos hown, join, hhead]
      by_cases hin : p.1 ∈ eraseTimes n p.1 users
      · rw [if_pos (hmem'.mpr hin), ih hnodup.2 hrest,
          List.filter_cons_of_neg (by simpa using hmem.mpr hin)]
      · have hlast : ∀ q ∈ ps, q.1 ∉ users' ++ [p.1] := by
          intro q hq
          rw [List.mem_append, List.mem_singleton, not_or]
          refine ⟨hrest q hq, ?_⟩
          intro heq
          exact hnodup.1 (heq ▸ List.mem_map_of_mem hq)
        rw [if_neg (hmem'.not.mpr hin), List.append_assoc, ih hnodup.2 hlast,
          List.filter_cons_of_pos (by simpa using hmem.not.mpr hin)]
        simp only [List.append_assoc, List.singleton_append]

/-! ## Settling -/

section Settle

variable {n : ℕ} {ps : List (α × Bool)} {gone users : List α}

/-- The roster with everybody and those who are gone taken out. -/
def rest (n : ℕ) (ps : List (α × Bool)) (gone users : List α) : List α :=
  eraseAll n (ps.map Prod.fst ++ gone) users

/-- What is left are others, and then some of those whose roster it is, the first ones. -/
def Settled (n : ℕ) (ps : List (α × Bool)) (gone users : List α) : Prop :=
  ∃ others first, (∀ u ∈ others, u ∉ ps.map Prod.fst) ∧ first <+: own ps
    ∧ rest n ps gone users = others ++ first

theorem settle_eq (hnodup : (ps.map Prod.fst).Nodup) (hgone : ∀ p ∈ ps, p.1 ∉ gone)
    (users : List α) :
  settle n ps gone users
    = rest n ps gone users ++ (own ps).filter (· ∉ rest n ps gone users)
  := by
  have hmove := @foldl_moveMember _ _ n ps hnodup users [] fun p _ => List.not_mem_nil
  rw [List.append_nil, List.append_nil] at hmove
  have hnames : ∀ u ∈ ps.map Prod.fst, u ∉ gone := by
    intro u hu
    obtain ⟨p, hp, rfl⟩ := List.mem_map.mp hu
    exact hgone p hp
  have hdisjoint : ∀ u ∈ gone,
      u ∉ (own ps).filter (· ∉ eraseAll n (ps.map Prod.fst) users) := by
    intro u hu hmem
    exact hnames u (mem_names_of_mem_own (List.mem_of_mem_filter hmem)) hu
  rw [settle, hmove, eraseAll_append_users n hdisjoint, rest, eraseAll_append]
  congr 1
  apply List.filter_congr
  intro u hu
  rw [decide_eq_decide, not_iff_not]
  exact (mem_eraseAll_of_not_mem (hnames u (mem_names_of_mem_own hu))).symm

/-- Nothing happens to a roster that nobody has and that nobody is taken out of. -/
theorem settle_zero (h : ∀ p ∈ ps, p.2 = false) :
  settle 0 ps gone users = users
  := by
  rw [settle, eraseAll_zero]
  induction ps with
  | nil => rfl
  | cons p ps ih =>
    rw [List.foldl_cons, moveMember, h p List.mem_cons_self]
    exact ih fun q hq => h q (List.mem_cons_of_mem _ hq)

/-- A roster that has settled. -/
theorem settle_of_settled (hnodup : (ps.map Prod.fst).Nodup) (hgone : ∀ p ∈ ps, p.1 ∉ gone)
    {others first : List α} (hothers : ∀ u ∈ others, u ∉ ps.map Prod.fst)
    (hfirst : first <+: own ps) (hrest : rest n ps gone users = others ++ first) :
  settle n ps gone users = others ++ own ps
  := by
  obtain ⟨later, hlater⟩ := hfirst
  have hown : (own ps).Nodup := hnodup.sublist (List.filter_sublist.map Prod.fst)
  have hsplit := hown
  rw [← hlater, List.nodup_append] at hsplit
  have hnot : ∀ u ∈ own ps, u ∉ others := by
    intro u hu hmem
    exact hothers u hmem (mem_names_of_mem_own hu)
  have hfilter : (own ps).filter (· ∉ others ++ first) = later := by
    have hcongr : (own ps).filter (· ∉ others ++ first) = (own ps).filter (· ∉ first) := by
      apply List.filter_congr
      intro u hu
      simp [hnot u hu]
    have hnil : first.filter (· ∉ first) = [] := by
      rw [List.filter_eq_nil_iff]
      intro u hu
      simpa using hu
    have hall : later.filter (· ∉ first) = later := by
      rw [List.filter_eq_self]
      intro u hu
      rw [decide_eq_true_eq]
      intro hmem
      exact hsplit.2.2 u hmem u hu rfl
    rw [hcongr, ← hlater, List.filter_append, hnil, hall, List.nil_append]
  rw [settle_eq hnodup hgone, hrest, hfilter, List.append_assoc, hlater]

/-- A roster on which nobody of those who are moved is too often. -/
theorem settle_nil_eq (hnodup : (ps.map Prod.fst).Nodup)
    (hcount : ∀ u ∈ ps.map Prod.fst, users.count u ≤ n) :
  settle n ps [] users = users.filter (· ∉ ps.map Prod.fst) ++ own ps
  := by
  have hrest : rest n ps [] users = users.filter (· ∉ ps.map Prod.fst) := by
    rw [rest, List.append_nil, eraseAll_eq_filter hnodup hcount]
  apply @settle_of_settled _ _ _ _ _ _ hnodup (fun p _ => List.not_mem_nil) _ []
  · intro u hu
    simpa using (List.mem_filter.mp hu).2
  · exact List.nil_prefix
  · rw [hrest, List.append_nil]

/-- Settling once more changes nothing if a roster has settled, also if somebody who is moved has
joined in between. -/
theorem settle_again (hn : 1 ≤ n) (hnodup : (ps.map Prod.fst).Nodup) {others extra : List α}
    (hothers : ∀ u ∈ others, u ∉ ps.map Prod.fst) (hextra : extra.Nodup)
    (hnames : ∀ u ∈ extra, u ∈ ps.map Prod.fst) (hnot : ∀ u ∈ extra, u ∉ own ps) :
  settle n ps [] (others ++ own ps ++ extra) = others ++ own ps
  := by
  have hown : (own ps).Nodup := hnodup.sublist (List.filter_sublist.map Prod.fst)
  have hnodup' : (own ps ++ extra).Nodup := by
    rw [List.nodup_append]
    refine ⟨hown, hextra, ?_⟩
    rintro u hu v hv rfl
    exact hnot u hv hu
  rw [settle_nil_eq hnodup]
  · have hkeep : others.filter (· ∉ ps.map Prod.fst) = others := by
      rw [List.filter_eq_self]
      intro u hu
      rw [decide_eq_true_eq]
      exact hothers u hu
    have hdrop : (own ps ++ extra).filter (· ∉ ps.map Prod.fst) = [] := by
      rw [List.filter_eq_nil_iff]
      intro u hu
      rw [decide_eq_true_eq, not_not]
      rcases List.mem_append.mp hu with hu | hu
      · exact mem_names_of_mem_own hu
      · exact hnames u hu
    rw [List.append_assoc, List.filter_append, hkeep, hdrop, List.append_nil]
  · intro u hu
    have hzero : others.count u = 0 := by
      apply List.count_eq_zero_of_not_mem
      intro hmem
      exact hothers u hmem hu
    rw [List.append_assoc, List.count_append, hzero, Nat.zero_add]
    exact Nat.le_trans (List.nodup_iff_count_le_one.mp hnodup' u) hn

/-- A roster has settled if settling it again changes nothing. -/
theorem settled_of_again (hn : 1 ≤ n) (hnodup : (ps.map Prod.fst).Nodup)
    (hgone : ∀ p ∈ ps, p.1 ∉ gone)
    {extra : List α} (hextra : extra.Nodup) (hnot : ∀ u ∈ extra, u ∉ settle n ps gone users)
    (hagain : settle n ps [] (settle n ps gone users ++ extra) = settle n ps gone users) :
  Settled n ps gone users
  := by
  have hsettle := settle_eq (n := n) hnodup hgone users
  generalize settle n ps gone users = users₁ at hnot hagain hsettle
  have hcount : ∀ u ∈ ps.map Prod.fst, (users₁ ++ extra).count u ≤ n := by
    intro u hu
    obtain ⟨p, hp, rfl⟩ := List.mem_map.mp hu
    rw [List.count_append]
    by_cases hin : p.1 ∈ users₁
    · have hzero : extra.count p.1 = 0 := by
        apply List.count_eq_zero_of_not_mem
        intro hx
        exact hnot _ hx hin
      rw [hzero, Nat.add_zero]
      by_contra hlt
      have hrest : (rest n ps [] (users₁ ++ extra)).count p.1 = users₁.count p.1 - n := by
        rw [rest, List.append_nil, count_eraseAll hnodup, if_pos hu, List.count_append, hzero,
          Nat.add_zero]
      have hin' : p.1 ∈ rest n ps [] (users₁ ++ extra) := by
        rw [← List.count_pos_iff, hrest]
        omega
      have hjoin : ((own ps).filter (· ∉ rest n ps [] (users₁ ++ extra))).count p.1 = 0 := by
        apply List.count_eq_zero_of_not_mem
        intro hx
        simpa [hin'] using (List.mem_filter.mp hx).2
      have hsame := congrArg (List.count p.1) hagain
      rw [settle_eq hnodup (fun p _ => List.not_mem_nil), List.count_append, hrest, hjoin] at hsame
      omega
    · rw [List.count_eq_zero_of_not_mem hin, Nat.zero_add]
      exact Nat.le_trans (List.nodup_iff_count_le_one.mp hextra _) hn
  rw [settle_nil_eq hnodup hcount] at hagain
  have hothers : ∀ u ∈ (users₁ ++ extra).filter (· ∉ ps.map Prod.fst), u ∉ ps.map Prod.fst := by
    intro u hu
    simpa using (List.mem_filter.mp hu).2
  generalize (users₁ ++ extra).filter (· ∉ ps.map Prod.fst) = others at hagain hothers
  rw [← hagain] at hsettle
  rcases List.append_eq_append_iff.mp hsettle with ⟨later, hrest, hown⟩ | ⟨more, hothers', hown⟩
  · exact ⟨others, later, hothers, ⟨_, hown.symm⟩, hrest⟩
  · have hlength := congrArg List.length hown
    have hle := List.length_filter_le (· ∉ rest n ps gone users) (own ps)
    rw [List.length_append] at hlength
    have hnil : more = [] := List.length_eq_zero_iff.mp (by omega)
    rw [hnil, List.append_nil] at hothers'
    exact ⟨others, [], hothers, List.nil_prefix, by rw [hothers', List.append_nil]⟩

/-- A roster has settled if nobody of those who are moved is on it too often. -/
theorem settled_of_count (hnodup : (ps.map Prod.fst ++ gone).Nodup)
    (h : ∀ u ∈ ps.map Prod.fst, users.count u ≤ n) :
  Settled n ps gone users
  := by
  refine ⟨rest n ps gone users, [], ?_, List.nil_prefix, (List.append_nil _).symm⟩
  intro u hu hname
  rw [← List.count_pos_iff, rest, count_eraseAll hnodup, if_pos (List.mem_append_left _ hname)] at hu
  have hle := h u hname
  omega

/-- Some join before everybody is moved, and again before everybody is moved the second time. The
second time changes nothing if and only if the roster has settled. -/
theorem settle_joinAll_iff (hn : 1 ≤ n) (hnodup : (ps.map Prod.fst).Nodup)
    (hgone : ∀ p ∈ ps, p.1 ∉ gone) {names : List α} (hnames : ∀ u ∈ names, u ∉ gone) :
  settle n ps [] (joinAll names (settle n ps gone (joinAll names users)))
      = settle n ps gone (joinAll names users)
    ↔ Settled n ps gone (joinAll names users)
  := by
  obtain ⟨extra, heq, hextra, hnew⟩ := joinAll_eq_append names (settle n ps gone (joinAll names users))
  rw [heq]
  constructor
  · exact settled_of_again hn hnodup hgone hextra fun u hu => (hnew u hu).2
  · rintro ⟨others, first, hothers, hfirst, hrest⟩
    have hsettle := settle_of_settled hnodup hgone hothers hfirst hrest
    rw [hsettle] at hnew ⊢
    apply settle_again hn hnodup hothers hextra
    · intro u hu
      by_contra hnot
      obtain ⟨hname, hlost⟩ := hnew u hu
      have hin : u ∈ rest n ps gone (joinAll names users) := by
        apply (mem_eraseAll_of_not_mem _).mpr (mem_joinAll.mpr (Or.inr hname))
        rw [List.mem_append, not_or]
        exact ⟨hnot, hnames u hname⟩
      rw [hrest, List.mem_append] at hin
      rcases hin with hin | hin
      · exact hlost (List.mem_append_left _ hin)
      · exact hnot (mem_names_of_mem_own (hfirst.subset hin))
    · intro u hu hown
      exact (hnew u hu).2 (List.mem_append_right _ hown)

end Settle

end Roster
