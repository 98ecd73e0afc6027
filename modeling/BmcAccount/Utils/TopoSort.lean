import BmcAccount.Lib.Kahn
import BmcAccount.Lib.LuaTable
import BmcAccount.Lib.Table

/-!
# The order in which settings are imported

A setting may name others that are imported before it, and `topo_sort` puts the names in order. It
takes a result that is shorter than the table of in-degrees for the sign of a cycle. But the keys
of this table are names, and the length of a table without integer keys is `0`: no cycle is
reported, and the names on it and after it are missing from the result. So are the names after one
that is not a key of the table.
-/

namespace BmcAccount

namespace TopoSort

/-- The errors of the sort. -/
inductive SortErr where
  | internalError
  | arithmeticOnNil
deriving DecidableEq

/-- The tables that the sort begins with. -/
structure Links where
  indegree : Table String ℤ
  graph : Table String (List String)

/-- `if not graph[node] then graph[node] = {} end` -/
def ensure (node : String) (graph : Table String (List String)) : Table String (List String) :=
  if (graph.lookup node).isSome then graph else graph.insert node []

/-- The body of the loop over the prerequisites of a node. -/
def addPre (node : String) (s : Links) (pre : String) : Links where
  graph := (ensure pre s.graph).modify pre (· ++ [node])
  indegree := s.indegree.modify node (· + 1)

/-- The body of the loop over the table of prerequisites. -/
def addNode (s : Links) (e : Sigma fun _ : String => List String) : Links :=
  e.2.foldl (addPre e.1) ⟨s.indegree.insert e.1 0, ensure e.1 s.graph⟩

/-- The tables after the loop; `pairs` gives the entries in the order of the table. -/
def link (deps : Table String (List String)) : Links :=
  deps.entries.foldl addNode ⟨∅, ∅⟩

/-- `graph[node] or {}` -/
def children (graph : Table String (List String)) (node : String) : List String :=
  (graph.lookup node).getD []

/-- The state of the loop over the queue. -/
structure Loop where
  indegree : Table String ℤ
  queue : List String
  result : List String

/-- The body of the loop over the children of a node. -/
def release (s : Loop) (child : String) : Except SortErr Loop :=
  match s.indegree.lookup child with
  | none => .error .arithmeticOnNil
  | some d => .ok
    { s with
      indegree := s.indegree.insert child (d - 1)
      queue := if d - 1 = 0 then s.queue ++ [child] else s.queue }

/-- `while #queue > 0`, for at most `fuel` times; there is no value when the queue is not empty
by then. -/
def loop (graph : Table String (List String)) (fuel : ℕ) (s : Loop) :
    Option (Except SortErr Loop) :=
  match fuel, s.queue with
  | _, [] => some (.ok s)
  | 0, _ :: _ => none
  | fuel + 1, node :: queue =>
    match (children graph node).foldlM release
        { s with queue := queue, result := s.result ++ [node] } with
    | .error e => some (.error e)
    | .ok s' => loop graph fuel s'

/-- `#t` of a table whose keys are strings. -/
def lengthOfNamed (_ : Table String ℤ) : ℕ := 0

/-- `topo_sort`. The second traversal of a table, by `pairs(indegree)`, goes through the keys in
the given order. -/
def topoSort (deps : Table String (List String)) (order : List String) :
    Option (Except SortErr (List String)) :=
  let s := link deps
  let queue := order.filter fun node => s.indegree.lookup node = some 0
  (loop s.graph deps.keys.length ⟨s.indegree, queue, []⟩).map fun r => r.bind fun s' =>
    if s'.result.length < lengthOfNamed s'.indegree then .error .internalError else .ok s'.result

/-- A table without integer keys has no other length. -/
theorem isBorder_iff (n : ℕ) :
  LuaTable.IsBorder (fun _ => (none : Option ℤ)) n ↔ n = 0
  := by
  simp [LuaTable.IsBorder]

/-! ## The tables -/

@[simp]
theorem children_ensure (node : String) (graph : Table String (List String)) :
  children (ensure node graph) = children graph
  := by
  funext p
  unfold ensure
  split_ifs with h
  · rfl
  · by_cases hp : p = node
    · subst hp
      rw [Option.not_isSome_iff_eq_none] at h
      simp [children, h]
    · simp [children, AList.lookup_insert_ne hp]

theorem isSome_lookup_ensure (node : String) (graph : Table String (List String)) :
  ((ensure node graph).lookup node).isSome = true
  := by
  unfold ensure
  split_ifs with h
  · exact h
  · simp

theorem children_addPre (node : String) (s : Links) (pre p : String) :
  children (addPre node s pre).graph p
    = children s.graph p ++ if p = pre then [node] else []
  := by
  by_cases hp : p = pre
  · subst hp
    obtain ⟨l, hl⟩ := Option.isSome_iff_exists.mp (isSome_lookup_ensure p s.graph)
    have hchildren := congrFun (children_ensure p s.graph) p
    simp only [children, hl, Option.getD_some] at hchildren
    simp [children, addPre, hl, hchildren]
  · have hchildren := congrFun (children_ensure pre s.graph) p
    rw [if_neg hp, List.append_nil, ← hchildren]
    simp [children, addPre, Table.lookup_modify_ne hp]

/-- The loop over the prerequisites of a node: how often a node is a child of another. -/
theorem count_children_foldl_addPre (node : String) (pres : List String) (s : Links)
    (p c : String) :
  (children (pres.foldl (addPre node) s).graph p).count c
    = (children s.graph p).count c + if c = node then pres.count p else 0
  := by
  induction pres generalizing s with
  | nil => simp
  | cons pre pres ih =>
    rw [List.foldl_cons, ih, children_addPre, List.count_append, List.count_cons]
    by_cases hc : c = node
    · subst hc
      by_cases hp : p = pre
      · subst hp
        simp
        omega
      · simp [hp, Ne.symm hp]
    · have hne : ¬ node = c := Ne.symm hc
      split_ifs <;> simp [hne]

theorem lookup_foldl_addPre (node : String) (pres : List String) (s : Links) (c : String) :
  (pres.foldl (addPre node) s).indegree.lookup c
    = (s.indegree.lookup c).map (· + if c = node then (pres.length : ℤ) else 0)
  := by
  induction pres generalizing s with
  | nil => simp
  | cons pre pres ih =>
    rw [List.foldl_cons, ih]
    by_cases hc : c = node
    · subst hc
      simp only [addPre, Table.lookup_modify_self, Option.map_map, if_true, List.length_cons,
        Nat.cast_add, Nat.cast_one]
      congr 1
      funext d
      simp only [Function.comp_apply]
      omega
    · simp [addPre, Table.lookup_modify_ne hc, hc]

/-- One node: its in-degree is the number of its prerequisites, and it is a child of each. -/
theorem addNode_spec (s : Links) (e : Sigma fun _ : String => List String) (p c : String) :
  (children (addNode s e).graph p).count c
      = (children s.graph p).count c + (if c = e.1 then e.2.count p else 0) ∧
    (addNode s e).indegree.lookup c
      = if c = e.1 then some (e.2.length : ℤ) else s.indegree.lookup c
  := by
  unfold addNode
  constructor
  · rw [count_children_foldl_addPre, children_ensure]
  · rw [lookup_foldl_addPre]
    by_cases hc : c = e.1
    · subst hc
      rw [AList.lookup_insert]
      simp
    · simp [hc, AList.lookup_insert_ne hc]

/-- The tables after the entries `l`. -/
theorem foldl_addNode {l : List (Sigma fun _ : String => List String)} (hl : l.NodupKeys)
    (s : Links) (p c : String) :
  (children (l.foldl addNode s).graph p).count c
      = (children s.graph p).count c + ((l.dlookup c).getD []).count p ∧
    (l.foldl addNode s).indegree.lookup c
      = ((l.dlookup c).map fun pres => (pres.length : ℤ)).or (s.indegree.lookup c)
  := by
  induction l generalizing s with
  | nil => simp
  | cons e l ih =>
    obtain ⟨hnotin, hl⟩ := List.nodupKeys_cons.mp hl
    obtain ⟨hcount, hlookup⟩ := ih hl (addNode s e)
    obtain ⟨hcount', hlookup'⟩ := addNode_spec s e p c
    rw [List.foldl_cons, hcount, hcount', hlookup, hlookup']
    obtain ⟨node, pres⟩ := e
    by_cases hc : c = node
    · subst hc
      have hnone : l.dlookup c = none := List.dlookup_eq_none.mpr hnotin
      simp [hnone]
    · simp [hc, List.dlookup_cons_ne]

variable (deps : Table String (List String))

/-- The prerequisites of a node. -/
def prerequisites (node : String) : List String :=
  (deps.lookup node).getD []

theorem count_children_link (p c : String) :
  (children (link deps).graph p).count c = (prerequisites deps c).count p
  := by
  have h := (foldl_addNode deps.nodupKeys ⟨∅, ∅⟩ p c).1
  rwa [show children (⟨∅, ∅⟩ : Links).graph p = [] from rfl, List.count_nil, Nat.zero_add] at h

theorem lookup_indegree_link (c : String) :
  (link deps).indegree.lookup c = (deps.lookup c).map fun pres => (pres.length : ℤ)
  := by
  have h := (foldl_addNode deps.nodupKeys ⟨∅, ∅⟩ c c).2
  rwa [show (⟨∅, ∅⟩ : Links).indegree.lookup c = none from rfl, Option.or_none] at h

/-! ## The loop -/

/-- The in-degree of a node in a table. -/
def degree (indegree : Table String ℤ) (node : String) : ℤ :=
  (indegree.lookup node).getD 0

/-- The children of a node are released. -/
theorem foldlM_release {cs : List String} (s : Loop) (hcs : ∀ c ∈ cs, c ∈ s.indegree) :
  ∃ s' new, cs.foldlM release s = .ok s' ∧ s'.result = s.result ∧ s'.queue = s.queue ++ new ∧
    (∀ c, c ∈ s'.indegree ↔ c ∈ s.indegree) ∧
    (∀ c ∈ s.indegree, degree s'.indegree c = degree s.indegree c - cs.count c) ∧
    new.Nodup ∧
    ∀ c, c ∈ new ↔ 0 < degree s.indegree c ∧ degree s.indegree c ≤ cs.count c
  := by
  induction cs generalizing s with
  | nil => 
    refine ⟨s, [], rfl, rfl, by simp, by simp, by simp, List.nodup_nil, ?_⟩
    intro c
    simp
  | cons a cs ih =>
    rw [List.forall_mem_cons] at hcs
    obtain ⟨d, hd⟩ := Option.isSome_iff_exists.mp (AList.lookup_isSome.mpr hcs.1)
    have hda : degree s.indegree a = d := by
      rw [degree, hd, Option.getD_some]
    let s₁ : Loop :=
      { s with
        indegree := s.indegree.insert a (d - 1)
        queue := if d - 1 = 0 then s.queue ++ [a] else s.queue }
    have hstep : release s a = .ok s₁ := by
      rw [release, hd]
    have hmem (c : String) : c ∈ s₁.indegree ↔ c ∈ s.indegree := by
      rw [AList.mem_insert]
      exact or_iff_right_of_imp fun h => h ▸ hcs.1
    have hself : degree s₁.indegree a = d - 1 := by
      rw [degree, AList.lookup_insert, Option.getD_some]
    have hother {c : String} (hc : c ≠ a) : degree s₁.indegree c = degree s.indegree c := by
      rw [degree, AList.lookup_insert_ne hc, degree]
    obtain ⟨s', new, hfold, hresult, hqueue, hkeys, hdegree, hnodup, hnew⟩ :=
      ih s₁ fun c hc => (hmem c).mpr (hcs.2 c hc)
    refine ⟨s', (if d - 1 = 0 then [a] else []) ++ new, ?_, hresult, ?_, ?_, ?_, ?_, ?_⟩
    · rw [List.foldlM_cons, hstep]
      exact hfold
    · rw [hqueue, ← List.append_assoc]
      congr 1
      change (if d - 1 = 0 then s.queue ++ [a] else s.queue) = _
      split_ifs <;> simp
    · exact fun c => (hkeys c).trans (hmem c)
    · intro c hc
      rw [hdegree c ((hmem c).mpr hc), List.count_cons]
      by_cases hca : c = a
      · subst hca
        rw [hself, hda, beq_self_eq_true, if_pos rfl]
        omega
      · rw [hother hca, if_neg (by simpa using Ne.symm hca), Nat.add_zero]
    · split_ifs with hzero
      · rw [List.singleton_append, List.nodup_cons]
        refine ⟨?_, hnodup⟩
        rw [hnew, hself, hzero]
        exact fun h => lt_irrefl 0 h.1
      · exact hnodup
    · intro c
      rw [List.mem_append, hnew, List.count_cons]
      by_cases hca : c = a
      · subst hca
        rw [hself, hda, beq_self_eq_true, if_pos rfl]
        split_ifs with hzero <;> simp <;> omega
      · have hnot : c ∉ if d - 1 = 0 then [a] else [] := by
          split_ifs <;> simp [hca]
        have hac : (a == c) = false := beq_false_of_ne (Ne.symm hca)
        rw [or_iff_right hnot, hother hca, hac, if_neg Bool.false_ne_true, Nat.add_zero]

/-- The nodes of the table, and the children are nodes. -/
theorem mem_of_mem_children {p c : String} (h : c ∈ children (link deps).graph p) :
  c ∈ deps ∧ p ∈ prerequisites deps c
  := by
  rw [← List.count_pos_iff, count_children_link, List.count_pos_iff] at h
  refine ⟨?_, h⟩
  rw [← AList.lookup_isSome]
  by_contra hnone
  rw [Option.not_isSome_iff_eq_none] at hnone
  rw [prerequisites, hnone] at h
  exact absurd h List.not_mem_nil

/-- The invariant of the loop. -/
structure Sorting (s : Loop) : Prop where
  mem_iff : ∀ c, c ∈ s.indegree ↔ c ∈ deps
  progress : Kahn.Progress deps.keys (prerequisites deps) s.result s.queue (degree s.indegree)

/-- The loop goes through when it has as many turns as there are keys out of the result. -/
theorem loop_spec {fuel : ℕ} {s : Loop} (hs : Sorting deps s)
    (hfuel : deps.keys.length ≤ s.result.length + fuel) :
  ∃ s', loop (link deps).graph fuel s = some (.ok s') ∧ Sorting deps s' ∧ s'.queue = []
  := by
  induction fuel generalizing s with
  | zero =>
    have hle := hs.progress.length_le
    have hqueue : s.queue = [] := List.length_eq_zero_iff.mp (by omega)
    refine ⟨s, ?_, hs, hqueue⟩
    unfold loop
    rw [hqueue]
  | succ fuel ih =>
    cases hqueue : s.queue with
    | nil =>
      refine ⟨s, ?_, hs, hqueue⟩
      unfold loop
      rw [hqueue]
    | cons node queue =>
      have hchildren : ∀ c ∈ children (link deps).graph node, c ∈ s.indegree :=
        fun c hc => (hs.mem_iff c).mpr (mem_of_mem_children deps hc).1
      obtain ⟨s₁, new, hfold, hresult, hqueue₁, hmem, hdegree, hnodup, hnew⟩ :=
        foldlM_release { s with queue := queue, result := s.result ++ [node] } hchildren
      have hprogress := hs.progress
      rw [hqueue] at hprogress
      have hs₁ : Sorting deps s₁ := by
        refine ⟨fun c => (hmem c).trans (hs.mem_iff c), ?_⟩
        rw [hresult, hqueue₁]
        apply hprogress.move
        · intro c hc
          rw [hdegree c ((hs.mem_iff c).mpr (AList.mem_keys.mpr hc)), count_children_link]
        · exact hnodup
        · intro c
          rw [hnew, count_children_link]
          refine (and_iff_right_of_imp fun h => ?_).symm
          rw [← AList.mem_keys, ← hs.mem_iff]
          by_contra hno
          rw [degree, AList.lookup_eq_none.mpr hno] at h
          exact lt_irrefl 0 h.1
      obtain ⟨s', hloop, hs', hempty⟩ := ih hs₁ (by rw [hresult]; simp; omega)
      refine ⟨s', ?_, hs', hempty⟩
      unfold loop
      rw [hqueue]
      simp only [hfold]
      exact hloop

/-! ## The sort -/

/-- The loop begins with the nodes without prerequisites. -/
theorem sorting_start {order : List String} (horder : order.Perm deps.keys) :
  Sorting deps ⟨(link deps).indegree,
    order.filter fun node => (link deps).indegree.lookup node = some 0, []⟩
  := by
  have hmem (c : String) : c ∈ (link deps).indegree ↔ c ∈ deps := by
    rw [← AList.lookup_isSome, ← AList.lookup_isSome, lookup_indegree_link, Option.isSome_map]
  have hdegree {c : String} (hc : c ∈ deps) :
      (link deps).indegree.lookup c = some ((prerequisites deps c).length : ℤ) := by
    obtain ⟨pres, hpres⟩ := Option.isSome_iff_exists.mp (AList.lookup_isSome.mpr hc)
    rw [lookup_indegree_link, prerequisites, hpres, Option.map_some, Option.getD_some]
  refine ⟨hmem, ?_⟩
  apply Kahn.Progress.start
  · exact (horder.nodup_iff.mpr deps.keys_nodup).filter _
  · intro c
    rw [List.mem_filter, horder.mem_iff, decide_eq_true_eq]
    apply and_congr_right
    intro hc
    rw [degree, hdegree (AList.mem_keys.mpr hc), Option.getD_some, Option.some_inj]
  · intro c hc
    rw [degree, hdegree (AList.mem_keys.mpr hc), Option.getD_some]

/-- The sort goes through, without an error. -/
theorem topoSort_spec {order : List String} (horder : order.Perm deps.keys) :
  ∃ s, topoSort deps order = some (.ok s.result) ∧ Sorting deps s ∧ s.queue = []
  := by
  obtain ⟨s, hloop, hs, hqueue⟩ := loop_spec deps (sorting_start deps horder) (Nat.le_add_left _ _)
  refine ⟨s, ?_, hs, hqueue⟩
  unfold topoSort
  simp only [hloop, Option.map_some]
  rfl

/-- What `topo_sort` is for: it returns the keys in order, or it raises an error and the graph on
the keys has a cycle. -/
def Sorts (deps : Table String (List String)) (order : List String) : Prop :=
  (∃ l, topoSort deps order = some (.ok l) ∧
      Kahn.IsTopologicalSort deps.keys (prerequisites deps) l ∧
      Kahn.Acyclic deps.keys (prerequisites deps)) ∨
    ∃ e, topoSort deps order = some (.error e) ∧ ¬ Kahn.Acyclic deps.keys (prerequisites deps)

/-- The sort does what it is for when there is no cycle and all prerequisites are keys. -/
theorem sorts_iff {order : List String} (horder : order.Perm deps.keys) :
  Sorts deps order ↔
    Kahn.Acyclic deps.keys (prerequisites deps) ∧
      ∀ node ∈ deps.keys, ∀ pre ∈ prerequisites deps node, pre ∈ deps.keys
  := by
  obtain ⟨s, hsort, hs, hqueue⟩ := topoSort_spec deps horder
  have hprogress := hs.progress
  rw [hqueue] at hprogress
  rw [← hprogress.sorted_iff]
  constructor
  · rintro (⟨l, hl, hsorted, hacyclic⟩ | ⟨e, he, -⟩)
    · rw [hsort, Option.some_inj, Except.ok.injEq] at hl
      exact ⟨hacyclic, hl ▸ hsorted⟩
    · rw [hsort] at he
      cases he
  · rintro ⟨hacyclic, hsorted⟩
    exact Or.inl ⟨s.result, hsort, hsorted, hacyclic⟩

/-! ### Settings -/

/-- One setting is imported after another. -/
def oneAfter : Table String (List String) :=
  (AList.singleton "b" ["a"]).insert "a" []

theorem sorts_oneAfter_iff :
  Sorts oneAfter ["b", "a"] ↔
    Kahn.Acyclic oneAfter.keys (prerequisites oneAfter) ∧
      ∀ node ∈ oneAfter.keys, ∀ pre ∈ prerequisites oneAfter node, pre ∈ oneAfter.keys
  := sorts_iff oneAfter (by decide)

/-- A setting that is imported after itself is left out, and no error is raised. -/
def afterItself : Table String (List String) :=
  AList.singleton "a" ["a"]

theorem not_sorts_afterItself :
  topoSort afterItself ["a"] = some (.ok []) ∧ ¬ Sorts afterItself ["a"]
  := by
  have hsort : topoSort afterItself ["a"] = some (.ok []) := by decide
  refine ⟨hsort, ?_⟩
  rintro (⟨l, hl, hsorted, -⟩ | ⟨e, he, -⟩)
  · rw [hsort, Option.some_inj, Except.ok.injEq] at hl
    subst hl
    exact absurd ((hsorted.mem_iff "a").mpr (by decide)) List.not_mem_nil
  · rw [hsort] at he
    cases he

end TopoSort

end BmcAccount
