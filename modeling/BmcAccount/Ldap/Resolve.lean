import BmcAccount.Ldap.GroupSearch

/-!
# When the search for the groups is exact

The two searches of the directory are depth-first searches with a table of at most 2000
DNs. With fewer than 50 groups the bound on the depth does not matter, so the search upwards
finds everything, and the search downwards finds what is reached by chains that avoid the
table.
-/

namespace BmcAccount

namespace Ldap

open Search

variable {Dn : Type} [DecidableEq Dn] {dir : Directory Dn} {user : Dn} {groupdn : GroupConf Dn}

omit [DecidableEq Dn] in
theorem mem_groups_of_members {g : Dn} (h : dir.members g ≠ []) :
  g ∈ dir.groups
  := by
  rw [dir.mem_groups]
  unfold Directory.members at h
  cases hm : dir.member g with
  | none => simp [hm] at h
  | some l => rfl

omit [DecidableEq Dn] in
theorem mem_groups_of_memberOf {x g : Dn} (h : g ∈ dir.memberOf x) :
  g ∈ dir.groups
  := by
  cases hp : dir.providesMemberOf with
  | false => simp [dir.memberOf_eq_nil hp] at h
  | true => exact mem_groups_of_members (List.ne_nil_of_mem ((dir.mem_memberOf hp x g).mp h))

/-- The bound on the depth does not cut a search short. -/
theorem deep_groups (hcard : dir.groups.card < 50) {n : ℕ} (hn : 50 ≤ n) (seen : List Dn) :
  Deep dir.groups n seen
  := by
  have := Finset.card_le_card (Finset.filter_subset (· ∉ seen) dir.groups)
  unfold Deep
  omega

/-! ## Outcomes -/

theorem noGroups_ne (j : Fin 5) :
  noGroups j ≠ j
  := by
  simp only [noGroups]
  omega

/-- The outcome of a search that marks the groups with `P`. -/
structure Outcome (P : Fin 5 → Prop) (r : AuthCode × GroupIds) : Prop where
  marked : ∀ i, P i → r.2 i = i
  unmarked : ∀ i, ¬ P i → r.2 i = noGroups i
  success : (∃ i, P i) → r.1 = .success
  unknown : (¬ ∃ i, P i) → r.1 = .unknown

theorem Outcome.unique {P : Fin 5 → Prop} {r r' : AuthCode × GroupIds} (h : Outcome P r)
    (h' : Outcome P r') :
  r = r'
  := by
  ext i
  · by_cases hP : ∃ i, P i
    · rw [h.success hP, h'.success hP]
    · rw [h.unknown hP, h'.unknown hP]
  · by_cases hP : P i
    · rw [h.marked i hP, h'.marked i hP]
    · rw [h.unmarked i hP, h'.unmarked i hP]

theorem Outcome.marked_iff {P : Fin 5 → Prop} {r : AuthCode × GroupIds} (h : Outcome P r)
    (i : Fin 5) :
  r.2 i = i ↔ P i
  := by
  refine ⟨fun hi => ?_, h.marked i⟩
  by_contra hP
  rw [h.unmarked i hP] at hi
  exact noGroups_ne i hi

theorem Outcome.success_iff {P : Fin 5 → Prop} {r : AuthCode × GroupIds} (h : Outcome P r) :
  r.1 = .success ↔ ∃ i, P i
  := by
  refine ⟨fun hr => ?_, h.success⟩
  by_contra hP
  rw [h.unknown hP] at hr
  exact absurd hr (by decide)

omit [DecidableEq Dn] in
/-- An outcome is exact if the groups that contain the user are the marked ones. -/
theorem Outcome.resolves_iff {P : Fin 5 → Prop} {r : AuthCode × GroupIds} (h : Outcome P r) :
  Resolves dir user groupdn r ↔ ∀ i, P i ↔ Member dir user groupdn i
  := by
  constructor
  · rintro ⟨hids, -⟩ i
    rw [← h.marked_iff, hids]
  · intro hiff
    exact ⟨fun i => (h.marked_iff i).trans (hiff i),
      h.success_iff.trans (exists_congr hiff)⟩

/-! ## Downwards -/

/-- The code of a search and the result of `visit` say the same. -/
def SameResult (c : AuthCode × List Dn) (r : Bool × List Dn) : Prop :=
  (c.1 = .success ↔ r.1 = true) ∧ c.2 = r.2

omit [DecidableEq Dn] in
theorem searchMembers_sameResult {f : List Dn → Dn → AuthCode × List Dn}
    {v : List Dn → Dn → Bool × List Dn} (h : ∀ seen m, SameResult (f seen m) (v seen m))
    (seen members : List Dn) :
  SameResult (searchMembers f seen members) (firstOf v seen members)
  := by
  induction members generalizing seen with
  | nil => exact ⟨by simp [searchMembers, firstOf], rfl⟩
  | cons m members ih =>
    obtain ⟨hcode, htable⟩ := h seen m
    simp only [searchMembers, firstOf]
    by_cases hs : (f seen m).1 = .success
    · rw [if_pos hs, if_pos (hcode.mp hs)]
      exact ⟨by simp [hcode.mp hs], htable⟩
    · rw [if_neg hs, if_neg (mt hcode.mpr hs), htable]
      exact ih _

variable (dir user) in
theorem doSearchUserGroup_sameResult (level : ℕ) (grpHash : List Dn) (g : Dn) :
  SameResult (doSearchUserGroup dir user level grpHash g)
    (visit (down dir user) (bounded maxLdapGrpHashSize) level grpHash g)
  := by
  induction level generalizing grpHash g with
  | zero => exact ⟨by simp [doSearchUserGroup, visit], rfl⟩
  | succ level ih =>
    unfold doSearchUserGroup visit
    by_cases hstop : maxLdapGrpHashSize ≤ grpHash.length ∨ g ∈ grpHash
    · rw [if_pos hstop, if_pos (by simpa [bounded] using hstop)]
      exact ⟨by simp, rfl⟩
    · rw [if_neg hstop, if_neg (by simpa [bounded] using hstop)]
      cases hm : dir.member g with
      | none =>
        have hmem : dir.members g = [] := by simp [Directory.members, hm]
        simp only [down, hmem, List.not_mem_nil, decide_false, Bool.false_eq_true, if_false,
          firstOf]
        exact ⟨by simp, rfl⟩
      | some member =>
        have hmem : dir.members g = member := by simp [Directory.members, hm]
        simp only [down, hmem, decide_eq_true_eq]
        by_cases hu : user ∈ member
        · rw [if_pos hu, if_pos hu]
          exact ⟨by simp, rfl⟩
        · rw [if_neg hu, if_neg hu]
          exact searchMembers_sameResult ih _ _

/-- The table of the search is the trail, or is full. -/
def TableOk (dir : Directory Dn) (user : Dn) (groupdn : GroupConf Dn) (j : ℕ)
    (table : List Dn) : Prop :=
  ((trail dir user groupdn j).length ≤ maxLdapGrpHashSize → table = trail dir user groupdn j)
    ∧ (maxLdapGrpHashSize < (trail dir user groupdn j).length →
      table.length = maxLdapGrpHashSize)

theorem trail_succ_of_some {j : Fin 5} {g : Dn} (hg : groupdn j = some g) :
  trail dir user groupdn (j + 1)
    = (visit (down dir user) unbounded 51 (trail dir user groupdn j) g).2
  := by
  rw [trail, dif_pos j.isLt]
  simp only [Fin.eta, hg]

theorem trail_succ_of_none {j : Fin 5} (hg : groupdn j = none) :
  trail dir user groupdn (j + 1) = trail dir user groupdn j
  := by
  rw [trail, dif_pos j.isLt]
  simp only [Fin.eta, hg]

/-- The search for one configured group. -/
theorem doSearchUserGroup_spec (hcard : dir.groups.card < 50) {j : Fin 5} {g : Dn}
    (hg : groupdn j = some g) {table : List Dn} (h : TableOk dir user groupdn j table) :
  ((doSearchUserGroup dir user 51 table g).1 = .success ↔ Reached dir user groupdn j g)
    ∧ TableOk dir user groupdn (j + 1) (doSearchUserGroup dir user 51 table g).2
  := by
  obtain ⟨hcode, htable⟩ := doSearchUserGroup_sameResult dir user 51 table g
  rw [hcode, htable]
  unfold Reached TableOk
  rw [trail_succ_of_some hg]
  by_cases hfits : (trail dir user groupdn j).length ≤ maxLdapGrpHashSize
  · rw [h.1 hfits]
    obtain ⟨hsame, hover⟩ := visit_bounded (G := down dir user) 51 g hfits
    by_cases hnext : (visit (down dir user) unbounded 51 (trail dir user groupdn j) g).2.length
        ≤ maxLdapGrpHashSize
    · rw [hsame hnext, visit_iff_leads (fun x hx => mem_groups_of_members hx)
        (deep_groups hcard (by decide) _)]
      exact ⟨by simp [hnext], fun _ => rfl, fun hlt => absurd hlt (by omega)⟩
    · obtain ⟨hfalse, hlen⟩ := hover (by omega)
      exact ⟨by simp [hfalse, hnext], fun hle => absurd hle hnext, fun _ => hlen⟩
  · have hlen := h.2 (by omega)
    have hgrow := (suffix_visit (down dir user) unbounded 51 (trail dir user groupdn j)
      g).length_le
    rw [visit_of_full hlen]
    refine ⟨?_, fun hle => absurd hle (by omega), fun _ => hlen⟩
    simp only [Bool.false_eq_true, false_iff, not_and]
    omega

/-- The search downwards is to mark a group: its DN is reached here or before. -/
def Marked (dir : Directory Dn) (user : Dn) (groupdn : GroupConf Dn) (j : Fin 5) : Prop :=
  ∃ g, groupdn j = some g ∧ ∃ i ≤ j, groupdn i = some g ∧ Reached dir user groupdn i g

/-- What holds when the first `j` configured groups have been searched. -/
structure Progress (dir : Directory Dn) (user : Dn) (groupdn : GroupConf Dn)
    (group : GroupIds) (j : ℕ) (st : UsernameState Dn) : Prop where
  table : TableOk dir user groupdn j st.findGrpHash
  found : ∀ g, g ∈ st.grpFoundHash ↔
    ∃ i : Fin 5, i < j ∧ groupdn i = some g ∧ Reached dir user groupdn i g
  found_sub : ∀ g ∈ st.grpFoundHash, g ∈ st.findGrpHash
  marked : ∀ i : Fin 5, i < j → Marked dir user groupdn i → st.group i = i
  unmarked : ∀ i : Fin 5, (i < j → ¬ Marked dir user groupdn i) → st.group i = group i
  flag : st.flag = true ↔ ∃ i : Fin 5, i < j ∧ Marked dir user groupdn i

theorem exists_lt_succ {P : Fin 5 → Prop} {j : Fin 5} :
  (∃ i : Fin 5, (i : ℕ) < j + 1 ∧ P i) ↔ (∃ i : Fin 5, (i : ℕ) < j ∧ P i) ∨ P j
  := by
  constructor
  · rintro ⟨i, hi, h⟩
    rcases Nat.lt_succ_iff_lt_or_eq.mp hi with hi | hi
    · exact Or.inl ⟨i, hi, h⟩
    · exact Or.inr (Fin.ext hi ▸ h)
  · rintro (⟨i, hi, h⟩ | h)
    · exact ⟨i, Nat.lt_succ_of_lt hi, h⟩
    · exact ⟨j, Nat.lt_succ_self _, h⟩

theorem progress_zero (group : GroupIds) :
  Progress dir user groupdn group 0 { group } where
  table := ⟨fun _ => rfl, fun h => absurd h (Nat.not_lt_zero _)⟩
  found := by simp
  found_sub := by simp
  marked i hi := absurd hi (Nat.not_lt_zero _)
  unmarked _ _ := rfl
  flag := by simp

/-- A group that nothing is marked for changes neither the array nor the flag. -/
theorem Progress.skip {group : GroupIds} {j : Fin 5} {st : UsernameState Dn}
    {findGrpHash : List Dn} (h : Progress dir user groupdn group j st)
    (htable : TableOk dir user groupdn (j + 1) findGrpHash)
    (hsub : ∀ g ∈ st.findGrpHash, g ∈ findGrpHash)
    (hreached : ∀ g, groupdn j = some g → ¬ Reached dir user groupdn j g)
    (hmarked : ¬ Marked dir user groupdn j) :
  Progress dir user groupdn group (j + 1) { st with findGrpHash } where
  table := htable
  found g := by
    rw [h.found, exists_lt_succ]
    exact (or_iff_left fun hj => hreached g hj.1 hj.2).symm
  found_sub g hg := hsub g (h.found_sub g hg)
  marked i hi hm := by
    rcases Nat.lt_succ_iff_lt_or_eq.mp hi with hi | hi
    · exact h.marked i hi hm
    · obtain rfl := Fin.ext hi
      exact absurd hm hmarked
  unmarked i hi := h.unmarked i fun hlt => hi (Nat.lt_succ_of_lt hlt)
  flag := by
    rw [h.flag, exists_lt_succ]
    exact (or_iff_left hmarked).symm

/-- A group that is marked. -/
theorem Progress.mark {group : GroupIds} {j : Fin 5} {st : UsernameState Dn}
    {findGrpHash grpFoundHash : List Dn} (h : Progress dir user groupdn group j st)
    (htable : TableOk dir user groupdn (j + 1) findGrpHash)
    (hfound : ∀ g, g ∈ grpFoundHash ↔
      ∃ i : Fin 5, (i : ℕ) < j + 1 ∧ groupdn i = some g ∧ Reached dir user groupdn i g)
    (hsub : ∀ g ∈ grpFoundHash, g ∈ findGrpHash)
    (hmarked : Marked dir user groupdn j) :
  Progress dir user groupdn group (j + 1)
    { findGrpHash, grpFoundHash, group := Function.update st.group j j, flag := true } where
  table := htable
  found := hfound
  found_sub := hsub
  marked i hi hm := by
    rcases Nat.lt_succ_iff_lt_or_eq.mp hi with hi | hi
    · have hne : i ≠ j := fun he => absurd hi (by rw [he]; exact lt_irrefl _)
      simp only [Function.update_of_ne hne]
      exact h.marked i hi hm
    · obtain rfl := Fin.ext hi
      simp only [Function.update_self]
  unmarked i hi := by
    have hne : i ≠ j := by
      rintro rfl
      exact hi (Nat.lt_succ_self _) hmarked
    simp only [Function.update_of_ne hne]
    exact h.unmarked i fun hlt => hi (Nat.lt_succ_of_lt hlt)
  flag := by
    simp only [true_iff]
    exact ⟨j, Nat.lt_succ_self _, hmarked⟩

theorem usernameStep_progress (hcard : dir.groups.card < 50) {group : GroupIds} {j : Fin 5}
    {st : UsernameState Dn} (h : Progress dir user groupdn group j st) :
  Progress dir user groupdn group (j + 1) (usernameStep dir user groupdn st j)
  := by
  unfold usernameStep
  cases hg : groupdn j with
  | none =>
    refine h.skip (by rw [TableOk, trail_succ_of_none hg]; exact h.table) (fun _ hx => hx)
      ?_ ?_
    · simp [hg]
    · rintro ⟨g, hg', -⟩
      simp [hg] at hg'
  | some g =>
    obtain ⟨hcode, htable⟩ := doSearchUserGroup_spec hcard hg h.table
    by_cases hfound : g ∈ st.findGrpHash ∧ g ∈ st.grpFoundHash
    · obtain ⟨i, hi, hgi, hreached⟩ := (h.found g).mp hfound.2
      have hmarked : Marked dir user groupdn j := ⟨g, hg, i, hi.le, hgi, hreached⟩
      have hflag : st.flag = true := h.flag.mpr ⟨i, hi, g, hgi, i, le_rfl, hgi, hreached⟩
      have hsame : doSearchUserGroup dir user 51 st.findGrpHash g
          = (.unknown, st.findGrpHash) := by
        rw [doSearchUserGroup, if_pos (Or.inr hfound.1)]
      rw [hsame] at hcode htable
      have hnot : ¬ Reached dir user groupdn j g := by simp [← hcode]
      have hmark := h.mark htable (fun g' => ?_) h.found_sub hmarked
      · simp only [if_pos hfound]
        rw [← hflag] at hmark
        exact hmark
      · rw [h.found, exists_lt_succ]
        refine (or_iff_left ?_).symm
        rintro ⟨hg', hr⟩
        obtain rfl : g = g' := Option.some.inj (hg.symm.trans hg')
        exact hnot hr
    · simp only [if_neg hfound]
      have hsub : ∀ x ∈ st.findGrpHash,
          x ∈ (doSearchUserGroup dir user 51 st.findGrpHash g).2 := by
        intro x hx
        rw [(doSearchUserGroup_sameResult dir user 51 st.findGrpHash g).2]
        exact (suffix_visit _ _ 51 _ g).subset hx
      by_cases hs : (doSearchUserGroup dir user 51 st.findGrpHash g).1 = .success
      · have hreached := hcode.mp hs
        simp only [if_pos hs]
        refine h.mark htable (fun g' => ?_) (fun g' hg' => ?_) ⟨g, hg, j, le_rfl, hg, hreached⟩
        · rw [List.mem_cons, h.found, exists_lt_succ, or_comm]
          refine or_congr_right ⟨?_, ?_⟩
          · rintro rfl
            exact ⟨hg, hreached⟩
          · rintro ⟨hg', -⟩
            exact Option.some.inj (hg'.symm.trans hg)
        · rcases List.mem_cons.mp hg' with rfl | hg'
          · obtain ⟨hsame, htab⟩ := doSearchUserGroup_sameResult dir user 51 st.findGrpHash g'
            rw [htab]
            exact mem_visit_self (hsame.mp hs)
          · exact hsub g' (h.found_sub g' hg')
      · simp only [if_neg hs]
        refine h.skip htable hsub ?_ ?_
        · intro g' hg'
          obtain rfl : g = g' := Option.some.inj (hg.symm.trans hg')
          exact mt hcode.mpr hs
        · rintro ⟨g', hg', i, hi, hgi, hreached⟩
          obtain rfl : g = g' := Option.some.inj (hg.symm.trans hg')
          rcases hi.lt_or_eq with hi | rfl
          · have hmem := (h.found g).mpr ⟨i, hi, hgi, hreached⟩
            exact hfound ⟨h.found_sub g hmem, hmem⟩
          · exact hs (hcode.mpr hreached)

variable (user groupdn) in
theorem doSearchByUsername_progress (hcard : dir.groups.card < 50) (group : GroupIds) :
  ∃ st, Progress dir user groupdn group 5 st
    ∧ doSearchByUsername dir user groupdn group
      = (if st.flag then .success else .unknown, st.group)
  := by
  have h₀ : Progress dir user groupdn group ((0 : Fin 5) : ℕ) { group } := progress_zero group
  have h₁ := usernameStep_progress (j := 0) hcard h₀
  have h₂ := usernameStep_progress (j := 1) hcard h₁
  have h₃ := usernameStep_progress (j := 2) hcard h₂
  have h₄ := usernameStep_progress (j := 3) hcard h₃
  have h₅ := usernameStep_progress (j := 4) hcard h₄
  exact ⟨_, h₅, rfl⟩

theorem eachReached_iff {user : UserDn Dn} :
  EachReached dir user groupdn
    ↔ ∀ j, Marked dir user.userdn groupdn j ↔ Member dir user.entry groupdn j
  := by
  constructor
  · intro h j
    constructor
    · rintro ⟨g, hg, hi⟩
      exact ⟨g, hg, (h j g hg).mpr hi⟩
    · rintro ⟨g, hg, hc⟩
      exact ⟨g, hg, (h j g hg).mp hc⟩
  · intro h j g hg
    have heq {g' : Dn} (hg' : groupdn j = some g') : g' = g :=
      Option.some.inj (hg'.symm.trans hg)
    constructor
    · intro hc
      obtain ⟨g', hg', hi⟩ := (h j).mpr ⟨g, hg, hc⟩
      rwa [heq hg'] at hi
    · intro hi
      obtain ⟨g', hg', hc⟩ := (h j).mp ⟨g, hg, hi⟩
      rwa [heq hg'] at hc

variable (user groupdn) in
/-- What `do_search_by_username` finds. -/
theorem doSearchByUsername_outcome (hcard : dir.groups.card < 50) :
  Outcome (Marked dir user groupdn) (doSearchByUsername dir user groupdn noGroups)
  := by
  obtain ⟨st, h, heq⟩ := doSearchByUsername_progress user groupdn hcard noGroups
  have hflag : st.flag = true ↔ ∃ j, Marked dir user groupdn j := by
    rw [h.flag]
    exact exists_congr fun j => and_iff_right j.isLt
  rw [heq]
  exact
    { marked := fun j => h.marked j j.isLt
      unmarked := fun j hj => h.unmarked j fun _ => hj
      success := fun hex => if_pos (hflag.mpr hex)
      unknown := fun hex => if_neg (mt hflag.mp hex) }

/-! ## Upwards -/

/-- The graph of the search upwards, among the groups. It has no goals: everything is
searched. -/
def up (dir : Directory Dn) : Graph Dn where
  next g := if (dir.member g).isSome then dir.memberOf g else []
  goal _ := false

omit [DecidableEq Dn] in
theorem next_up {g : Dn} (hg : g ∈ dir.groups) :
  (up dir).next g = dir.memberOf g
  := by
  rw [dir.mem_groups] at hg
  simp only [up, hg, if_true]

omit [DecidableEq Dn] in
theorem mem_groups_of_next {x : Dn} (h : (up dir).next x ≠ []) :
  x ∈ dir.groups
  := by
  rw [dir.mem_groups]
  by_contra hx
  exact h (by simp only [up, if_neg hx])

omit [DecidableEq Dn] in
theorem not_leads_up {seen : List Dn} {x : Dn} :
  ¬ Leads (up dir) seen x
  := by
  intro h
  induction h with
  | goal _ hgoal => exact absurd hgoal (by simp [up])
  | step _ _ _ ih => exact ih

/-- Without goals the searches of a list run to its end. -/
theorem visit_up_fst (full : List Dn → Bool) (n : ℕ) (seen : List Dn) (x : Dn) :
  (visit (up dir) full n seen x).1 = false
  := by
  by_contra h
  exact not_leads_up (leads_of_visit (by simpa using h))

theorem firstOf_up_fst (full : List Dn → Bool) (n : ℕ) (seen xs : List Dn) :
  (firstOf (visit (up dir) full n) seen xs).1 = false
  := by
  by_contra h
  obtain ⟨x, -, hl⟩ := leads_of_firstOf (fun _ _ => leads_of_visit) (by simpa using h)
  exact not_leads_up hl

omit [DecidableEq Dn] in
theorem firstOf_cons_of_false {f : List Dn → Dn → Bool × List Dn} {seen : List Dn} {x : Dn}
    (h : (f seen x).1 = false) (xs : List Dn) :
  firstOf f seen (x :: xs) = firstOf f (f seen x).2 xs
  := by
  simp only [firstOf, h, Bool.false_eq_true, if_false]

/-- A DN of the `i`-th group was added to the table. -/
def Fresh (groupdn : GroupConf Dn) (seen seen' : List Dn) (i : Fin 5) : Prop :=
  ∃ g ∈ seen', g ∉ seen ∧ groupdn i = some g

theorem Fresh.trans_iff {s₁ s₂ s₃ : List Dn} (h₁ : s₁ <:+ s₂) (h₂ : s₂ <:+ s₃) {i : Fin 5} :
  Fresh groupdn s₁ s₃ i ↔ Fresh groupdn s₁ s₂ i ∨ Fresh groupdn s₂ s₃ i
  := by
  constructor
  · rintro ⟨g, hg, hn, hi⟩
    by_cases hmem : g ∈ s₂
    · exact Or.inl ⟨g, hmem, hn, hi⟩
    · exact Or.inr ⟨g, hg, hmem, hi⟩
  · rintro (⟨g, hg, hn, hi⟩ | ⟨g, hg, hn, hi⟩)
    · exact ⟨g, h₂.subset hg, hn, hi⟩
    · exact ⟨g, hg, fun hmem => hn (h₁.subset hmem), hi⟩

/-- What a search upwards does to the state: it marks the groups that it adds to the table,
and `found` says whether there are any. -/
structure Marks (groupdn : GroupConf Dn) (st st' : OwnerState Dn) (found : Prop) : Prop where
  suffix : st.grpHash <:+ st'.grpHash
  fresh : ∀ i, Fresh groupdn st.grpHash st'.grpHash i → st'.group i = i
  stale : ∀ i, ¬ Fresh groupdn st.grpHash st'.grpHash i → st'.group i = st.group i
  found : found ↔ ∃ i, Fresh groupdn st.grpHash st'.grpHash i

omit [DecidableEq Dn] in
theorem Marks.refl (st : OwnerState Dn) :
  Marks groupdn st st False where
  suffix := List.suffix_refl _
  fresh := by
    rintro i ⟨g, hg, hn, -⟩
    exact absurd hg hn
  stale _ _ := rfl
  found := by
    simp only [false_iff]
    rintro ⟨i, g, hg, hn, -⟩
    exact hn hg

theorem Marks.trans {s₁ s₂ s₃ : OwnerState Dn} {p q : Prop} (h₁ : Marks groupdn s₁ s₂ p)
    (h₂ : Marks groupdn s₂ s₃ q) :
  Marks groupdn s₁ s₃ (p ∨ q) where
  suffix := h₁.suffix.trans h₂.suffix
  fresh i hi := by
    by_cases hf : Fresh groupdn s₂.grpHash s₃.grpHash i
    · exact h₂.fresh i hf
    · rw [h₂.stale i hf]
      exact h₁.fresh i (((Fresh.trans_iff h₁.suffix h₂.suffix).mp hi).resolve_right hf)
  stale i hi := by
    rw [Fresh.trans_iff h₁.suffix h₂.suffix, not_or] at hi
    rw [h₂.stale i hi.2, h₁.stale i hi.1]
  found := by
    simp only [h₁.found, h₂.found, Fresh.trans_iff h₁.suffix h₂.suffix, exists_or]

/-- Entering one group. -/
theorem Marks.enter {st : OwnerState Dn} {g : Dn} (hg : g ∉ st.grpHash) :
  Marks groupdn st
    { grpHash := g :: st.grpHash
      group := fun i => if groupdn i = some g then i else st.group i }
    (∃ i, groupdn i = some g)
  := by
  have hfresh : ∀ i, Fresh groupdn st.grpHash (g :: st.grpHash) i ↔ groupdn i = some g := by
    intro i
    constructor
    · rintro ⟨g', hg', hn, hi⟩
      rcases List.mem_cons.mp hg' with rfl | hmem
      · exact hi
      · exact absurd hmem hn
    · intro hi
      exact ⟨g, List.mem_cons_self, hg, hi⟩
  exact
    { suffix := List.suffix_cons _ _
      fresh := fun i hi => if_pos ((hfresh i).mp hi)
      stale := fun i hi => if_neg (mt (hfresh i).mpr hi)
      found := exists_congr fun i => (hfresh i).symm }

/-- A search upwards adds what `v` adds, and marks it. -/
def FollowsUp (groupdn : GroupConf Dn) (v : Bool × List Dn) (st : OwnerState Dn)
    (found : Prop) (st' : OwnerState Dn) : Prop :=
  st'.grpHash = v.2 ∧ Marks groupdn st st' found

theorem searchOwners_followsUp {f : OwnerState Dn → Dn → AuthCode × OwnerState Dn}
    {v : List Dn → Dn → Bool × List Dn} (hv : ∀ seen x, (v seen x).1 = false)
    {attrVal : List Dn}
    (h : ∀ st, ∀ g ∈ attrVal,
      FollowsUp groupdn (v st.grpHash g) st ((f st g).1 = .success) (f st g).2)
    (searchResult : Bool) (st : OwnerState Dn) :
  ∃ found, FollowsUp groupdn (firstOf v st.grpHash attrVal) st found
      (searchOwners f searchResult st attrVal).2
    ∧ ((searchOwners f searchResult st attrVal).1 = true ↔ searchResult = true ∨ found)
  := by
  induction attrVal generalizing searchResult st with
  | nil => exact ⟨False, ⟨rfl, Marks.refl st⟩, by simp [searchOwners]⟩
  | cons g attrVal ih =>
    obtain ⟨htable, hmarks⟩ := h st g List.mem_cons_self
    obtain ⟨found, ⟨htable', hmarks'⟩, hresult⟩ := ih
      (fun st g' hg' => h st g' (List.mem_cons_of_mem _ hg'))
      (searchResult || decide ((f st g).1 = .success)) (f st g).2
    rw [htable] at htable'
    rw [firstOf_cons_of_false (hv _ _)]
    refine ⟨_, ⟨htable', hmarks.trans hmarks'⟩, ?_⟩
    rw [searchOwners, hresult, Bool.or_eq_true, decide_eq_true_eq, or_assoc]

theorem doSearchGroupOwner_followsUp (level : ℕ) (st : OwnerState Dn) {g : Dn}
    (hg : g ∈ dir.groups) :
  FollowsUp groupdn (visit (up dir) (bounded maxLdapGrpHashSize) level st.grpHash g) st
    ((doSearchGroupOwner dir groupdn level st g).1 = .success)
    (doSearchGroupOwner dir groupdn level st g).2
  := by
  induction level generalizing st g with
  | zero => exact ⟨rfl, by simpa [doSearchGroupOwner] using Marks.refl st⟩
  | succ level ih =>
    unfold doSearchGroupOwner visit
    by_cases hstop : maxLdapGrpHashSize ≤ st.grpHash.length ∨ g ∈ st.grpHash
    · rw [if_pos hstop, if_pos (by simpa [bounded] using hstop)]
      exact ⟨rfl, by simpa using Marks.refl st⟩
    · rw [if_neg hstop, if_neg (by simpa [bounded] using hstop), if_neg (by simp [up]),
        next_up hg]
      rw [not_or] at hstop
      obtain ⟨found, ⟨htable, hmarks⟩, hresult⟩ := searchOwners_followsUp
        (visit_up_fst (bounded maxLdapGrpHashSize) level)
        (fun st g' hg' => ih st (mem_groups_of_memberOf hg')) false
        { grpHash := g :: st.grpHash
          group := fun i => if groupdn i = some g then i else st.group i }
      refine ⟨htable, ?_⟩
      simp only [Bool.false_eq_true, false_or] at hresult
      convert (Marks.enter hstop.2).trans hmarks using 1
      rw [← hresult]
      by_cases hmatch : ∃ i, groupdn i = some g
      · simp [hmatch]
      · simp [hmatch]

/-- The table of the search upwards, when it is not bounded. -/
def owners (dir : Directory Dn) (user : Dn) : List Dn :=
  (firstOf (visit (up dir) unbounded 50) [] (dir.memberOf user)).2

theorem mem_groups_of_mem_owners {g : Dn} (h : g ∈ owners dir user) :
  g ∈ dir.groups
  := by
  refine firstOf_keeps (P := fun seen => ∀ y ∈ seen, y ∈ dir.groups) ?_ (by simp) g h
  intro seen x hx hseen y hy
  have hnext : ∀ x ∈ dir.groups, ∀ y ∈ (up dir).next x, y ∈ dir.groups := by
    intro x hx y hy
    rw [next_up hx] at hy
    exact mem_groups_of_memberOf hy
  exact (mem_visit hnext (mem_groups_of_memberOf hx) y hy).elim (hseen y) id

theorem nodup_owners :
  (owners dir user).Nodup
  :=
  firstOf_keeps (P := List.Nodup) (fun _ _ _ h => nodup_visit h) List.nodup_nil

/-- The table has room for all groups. -/
theorem firstOf_bounded_eq_owners (hcard : dir.groups.card < 50) :
  (firstOf (visit (up dir) (bounded maxLdapGrpHashSize) 50) [] (dir.memberOf user)).2
    = owners dir user
  := by
  have hlen : (owners dir user).length ≤ maxLdapGrpHashSize := by
    have hsub : (owners dir user).toFinset ⊆ dir.groups := by
      intro g hg
      exact mem_groups_of_mem_owners (List.mem_toFinset.mp hg)
    have hle := Finset.card_le_card hsub
    rw [List.toFinset_card_of_nodup nodup_owners] at hle
    simp only [maxLdapGrpHashSize]
    omega
  have hbounds := firstOf_bounded (G := up dir) (n := 50)
    (fun seen x hseen => visit_bounded 50 x hseen) (dir.memberOf user)
    (show ([] : List Dn).length ≤ maxLdapGrpHashSize from Nat.zero_le _)
  rw [hbounds.1 hlen]
  rfl

/-- The search upwards finds the groups that contain the user. -/
theorem mem_owners_iff (hcard : dir.groups.card < 50) (hprov : dir.providesMemberOf = true)
    {g : Dn} :
  g ∈ owners dir user ↔ Contains dir user g
  := by
  constructor
  · intro h
    refine firstOf_keeps (P := fun seen => ∀ y ∈ seen, Contains dir user y) ?_ (by simp) g h
    intro seen x hx hseen y hy
    have hnext : ∀ x, x ∈ dir.groups ∧ Contains dir user x → ∀ y ∈ (up dir).next x,
        y ∈ dir.groups ∧ Contains dir user y := by
      rintro x ⟨hxg, hxc⟩ y hy
      rw [next_up hxg] at hy
      exact ⟨mem_groups_of_memberOf hy, .nested ((dir.mem_memberOf hprov x y).mp hy) hxc⟩
    have hstart : x ∈ dir.groups ∧ Contains dir user x :=
      ⟨mem_groups_of_memberOf hx, .direct ((dir.mem_memberOf hprov user x).mp hx)⟩
    exact (mem_visit hnext hstart y hy).elim (hseen y) (·.2)
  · intro h
    obtain ⟨hstart, hdone⟩ := done_of_firstOf
      (fun _ _ hdeep hfalse => done_of_visit (fun _ hx => mem_groups_of_next hx) hdeep hfalse)
      (deep_groups hcard (n := 50) le_rfl [])
      (firstOf_up_fst unbounded 50 [] (dir.memberOf user))
    induction h with
    | @direct g hg => exact hstart g ((dir.mem_memberOf hprov user g).mpr hg)
    | @nested g h hg _ ih =>
      apply (hdone h ih (by simp)).2 g
      rw [next_up (mem_groups_of_mem_owners ih)]
      exact (dir.mem_memberOf hprov h g).mpr hg

/-- The configured groups in the table, when the server provides `memberOf`. -/
theorem fresh_owners (hcard : dir.groups.card < 50) (hprov : dir.providesMemberOf = true) :
  Fresh groupdn [] (owners dir user) = Member dir user groupdn
  := by
  funext i
  simp only [Fresh, Member, mem_owners_iff hcard hprov, List.not_mem_nil, not_false_eq_true,
    true_and, and_comm]

theorem not_fresh_owners (hprov : dir.providesMemberOf = false) (i : Fin 5) :
  ¬ Fresh groupdn [] (owners dir user) i
  := by
  rintro ⟨g, hg, -⟩
  simp only [owners, dir.memberOf_eq_nil hprov, firstOf, List.not_mem_nil] at hg

variable (user groupdn) in
/-- What `do_search_by_memberof` finds. -/
theorem doSearchByMemberof_outcome (hcard : dir.groups.card < 50) :
  Outcome (Fresh groupdn [] (owners dir user)) (doSearchByMemberof dir user groupdn noGroups)
  := by
  have hstep : ∀ st, ∀ g ∈ dir.memberOf user,
      FollowsUp groupdn (visit (up dir) (bounded maxLdapGrpHashSize) 50 st.grpHash g) st
        ((doSearchGroupOwner dir groupdn 50 st g).1 = .success)
        (doSearchGroupOwner dir groupdn 50 st g).2 :=
    fun st g hg => doSearchGroupOwner_followsUp 50 st (mem_groups_of_memberOf hg)
  obtain ⟨found, ⟨htable, hmarks⟩, hresult⟩ := searchOwners_followsUp (visit_up_fst _ 50) hstep
    false { grpHash := [], group := noGroups }
  rw [firstOf_bounded_eq_owners hcard] at htable
  obtain ⟨-, hfresh, hstale, hfound⟩ := hmarks
  rw [htable] at hfresh hstale hfound
  simp only [Bool.false_eq_true, false_or] at hresult
  exact
    { marked := hfresh
      unmarked := hstale
      success := fun hex => if_pos (hresult.mpr (hfound.mpr hex))
      unknown := fun hex => if_neg (mt hresult.mp (mt hfound.mp hex)) }

/-- What `do_get_user_group` finds: the search upwards decides where it finds a group, and the
one downwards where it finds none. -/
theorem doGetUserGroup_eq (hcard : dir.groups.card < 50) (user : UserDn Dn) :
  doGetUserGroup dir user groupdn noGroups
    = if (doSearchByMemberof dir user.entry groupdn noGroups).1 = .success then
        doSearchByMemberof dir user.entry groupdn noGroups
      else doSearchByUsername dir user.userdn groupdn noGroups
  := by
  have hup := doSearchByMemberof_outcome user.entry groupdn hcard
  unfold doGetUserGroup
  by_cases hex : ∃ i, Fresh groupdn [] (owners dir user.entry) i
  · simp only [hup.success hex, if_true]
    rw [← hup.success hex]
  · have hsame : doSearchByMemberof dir user.entry groupdn noGroups = (.unknown, noGroups) := by
      ext i
      · exact hup.unknown hex
      · exact hup.unmarked i fun hi => hex ⟨i, hi⟩
    simp only [hsame, reduceCtorEq, if_false]

/-- With `memberOf` the search is exact where a configured group contains the user, whatever DN is
printed. -/
theorem doGetUserGroup_of_member (hcard : dir.groups.card < 50)
    (hprov : dir.providesMemberOf = true) {user : UserDn Dn}
    (hex : ∃ i, Member dir user.entry groupdn i) :
  Outcome (Member dir user.entry groupdn) (doGetUserGroup dir user groupdn noGroups)
  := by
  have hup := doSearchByMemberof_outcome user.entry groupdn hcard
  rw [fresh_owners hcard hprov] at hup
  rw [doGetUserGroup_eq hcard, if_pos (hup.success hex)]
  exact hup

/-- Where the search downwards marks the groups that contain the user, so does the whole search. -/
theorem doGetUserGroup_outcome (hcard : dir.groups.card < 50) {user : UserDn Dn}
    (hmarked : Marked dir user.userdn groupdn = Member dir user.entry groupdn) :
  Outcome (Member dir user.entry groupdn) (doGetUserGroup dir user groupdn noGroups)
  := by
  have hdown := doSearchByUsername_outcome user.userdn groupdn hcard
  rw [hmarked] at hdown
  have hup := doSearchByMemberof_outcome user.entry groupdn hcard
  cases hprov : dir.providesMemberOf with
  | false =>
    have hnone : ¬ ∃ i, Fresh groupdn [] (owners dir user.entry) i := by
      rintro ⟨i, hi⟩
      exact not_fresh_owners hprov i hi
    rw [doGetUserGroup_eq hcard, hup.unknown hnone, if_neg (by decide)]
    exact hdown
  | true =>
    rw [fresh_owners hcard hprov] at hup
    rw [doGetUserGroup_eq hcard]
    split
    · exact hup
    · exact hdown

/-- The search for the groups of a user is exact, and its two methods agree, if and only if for
each configured group, it contains the user exactly if a chain of groups leads from it to the
printed DN without a DN that was entered for the groups before it. -/
theorem groupsResolved_iff (dir : Directory Dn) (user : UserDn Dn) (groupdn : GroupConf Dn)
    (hcard : dir.groups.card < 50) :
  GroupsResolved dir user groupdn ↔ EachReached dir user groupdn
  := by
  have hup := doSearchByMemberof_outcome user.entry groupdn hcard
  have hdown := doSearchByUsername_outcome user.userdn groupdn hcard
  rw [eachReached_iff]
  constructor
  · intro h
    cases hprov : dir.providesMemberOf with
    | false =>
      have hnone : ¬ ∃ i, Fresh groupdn [] (owners dir user.entry) i := by
        rintro ⟨i, hi⟩
        exact not_fresh_owners hprov i hi
      have hresolves := h.resolves
      rw [doGetUserGroup_eq hcard, hup.unknown hnone, if_neg (by decide)] at hresolves
      exact hdown.resolves_iff.mp hresolves
    | true =>
      intro j
      rw [fresh_owners hcard hprov, h.agree hprov] at hup
      rw [← hdown.marked_iff, hup.marked_iff]
  · intro h
    have hmarked : Marked dir user.userdn groupdn = Member dir user.entry groupdn := by
      funext j
      exact propext (h j)
    rw [hmarked] at hdown
    have hwhole := doGetUserGroup_outcome hcard hmarked
    refine ⟨hwhole.resolves_iff.mpr fun _ => Iff.rfl, fun hprov => ?_⟩
    rw [fresh_owners hcard hprov] at hup
    exact hup.unique hdown

/-- The group `1` has the group `2` as its member, and `2` has the user `0`. The server does
not provide `memberOf`. -/
def nestedDirectory : Directory ℕ where
  member g := if g = 1 then some [2] else if g = 2 then some [0] else none
  memberOf _ := []
  groups := {1, 2}
  mem_groups g := by
    by_cases h₁ : g = 1
    · simp [h₁]
    · by_cases h₂ : g = 2
      · simp [h₂]
      · simp [h₁, h₂]
  providesMemberOf := false
  memberOf_eq_nil _ _ := rfl
  mem_memberOf h := absurd h (by decide)

/-- The user `0`, whose entry is directly under the base. -/
def userOfNested : UserDn ℕ := ⟨0, 0⟩

def outerOnly : GroupConf ℕ :=
  fun j => if j.val = 0 then some 1 else none

def outerThenInner : GroupConf ℕ :=
  fun j => if j.val = 0 then some 1 else if j.val = 1 then some 2 else none

theorem groupsResolved_outerOnly :
  nestedDirectory.groups.card < 50
    ∧ EachReached nestedDirectory userOfNested outerOnly
    ∧ GroupsResolved nestedDirectory userOfNested outerOnly
  := by
  have hleads : Leads (down nestedDirectory 0) [] 1 := by
    refine .step (by decide) (y := 2) (by decide) ?_
    exact .goal (by decide) (by decide)
  have hcontains : Contains nestedDirectory 0 1 := by
    apply Contains.nested (h := 2) (by decide)
    exact .direct (by decide)
  have hreached : EachReached nestedDirectory userOfNested outerOnly := by
    intro j g hg
    by_cases hj : j = 0
    · subst hj
      obtain rfl : 1 = g := Option.some.inj hg
      exact iff_of_true hcontains ⟨0, le_rfl, rfl, hleads, by decide⟩
    · simp [outerOnly, hj] at hg
  exact ⟨by decide, hreached, (groupsResolved_iff _ _ _ (by decide)).mpr hreached⟩

/-- The user is in both configured groups and is found only in the first one. -/
theorem not_groupsResolved_outerThenInner :
  nestedDirectory.groups.card < 50
    ∧ Member nestedDirectory 0 outerThenInner 1
    ∧ (doGetUserGroup nestedDirectory userOfNested outerThenInner noGroups).2 1 = 0xff
    ∧ ¬ GroupsResolved nestedDirectory userOfNested outerThenInner
  := by
  have hmember : Member nestedDirectory 0 outerThenInner 1 := ⟨2, rfl, .direct (by decide)⟩
  have hmissed : (doGetUserGroup nestedDirectory userOfNested outerThenInner noGroups).2 1
      = 0xff := by
    decide
  refine ⟨by decide, hmember, hmissed, fun h => ?_⟩
  have hfound := (h.resolves.1 1).mpr hmember
  rw [hmissed] at hfound
  exact absurd hfound (by decide)

end Ldap

end BmcAccount
