import BmcAccount.Lib.Run
import BmcAccount.Lib.Table

/-!
# The numbers of channels

The numbers of channels can be customised: an object at some path maps an outer number to an
inner one. The account service follows the objects by their signals. It keeps the outer
number of each path, and a map from outer to inner numbers, but it does not keep the inner
number of a path: when the outer number of a path changes, the inner one is read through the
map.

So two paths that have the same outer number, however briefly, share an entry of the map,
and when one of them leaves the number the entry of the other is lost. In runs where this
does not happen, and where no path is added again under another number, the map is exact
(`run_exact`).
-/

namespace BmcAccount

namespace ChannelMappings

variable {Path : Type} [DecidableEq Path]

/-- The class `channel_number_mappings`. -/
structure Mappings (Path : Type) where
  chNumMaps : Table ℕ ℕ
  pathToChNum : Table Path ℕ
  multiChannelStatus : ℕ

/-- The state after `ctor`. -/
def Mappings.empty : Mappings Path where
  chNumMaps := ∅
  pathToChNum := ∅
  multiChannelStatus := 0

/-- `on_channel_number_mappings_interfaces_added`. -/
def Mappings.interfacesAdded (path : Path) (external internal : ℕ) (m : Mappings Path) :
    Mappings Path where
  chNumMaps := m.chNumMaps.assign external (some internal)
  pathToChNum := m.pathToChNum.assign path (some external)
  multiChannelStatus := 1

/-- `on_channel_number_mappings_properties_changed`, for the value of `External` if it is
among the properties that changed. The handler raises for a path that is not known. -/
def Mappings.propertiesChanged (path : Path) (external : Option ℕ) (m : Mappings Path) :
    Option (Mappings Path) :=
  match external, m.pathToChNum.lookup path with
  | none, _ => some m
  | some _, none => none
  | some new, some old => some
      { m with
        chNumMaps := (m.chNumMaps.assign old none).assign new (m.chNumMaps.lookup old)
        pathToChNum := m.pathToChNum.assign path (some new) }

/-- `on_channel_number_mappings_interfaces_removed`, which raises for a path that is not
known. -/
def Mappings.interfacesRemoved (path : Path) (m : Mappings Path) : Option (Mappings Path) :=
  match m.pathToChNum.lookup path with
  | none => none
  | some old =>
    let pathToChNum := m.pathToChNum.assign path none
    some
      { chNumMaps := m.chNumMaps.assign old none
        pathToChNum
        multiChannelStatus := if pathToChNum.keys = [] then 0 else m.multiChannelStatus }

/-- `init_ch_num_maps`: the objects with their outer and inner numbers, in the order in which
they are visited. -/
def Mappings.initChNumMaps (objs : Table Path (ℕ × ℕ)) (m : Mappings Path) : Mappings Path :=
  if objs.entries = [] then m
  else
    { objs.entries.foldl (fun m e =>
        { m with
          chNumMaps := m.chNumMaps.assign e.2.1 (some e.2.2)
          pathToChNum := m.pathToChNum.assign e.1 (some e.2.1) }) m with
      multiChannelStatus := 1 }

/-! ## The objects -/

/-- The signals. -/
inductive Event (Path : Type) where
  | added (path : Path) (external internal : ℕ)
  | changed (path : Path) (external : Option ℕ)
  | removed (path : Path)

/-- The outer and inner numbers of the paths that are live. -/
abbrev Live (Path : Type) : Type :=
  Path → Option (ℕ × ℕ)

/-- What a signal says about the objects. -/
def Live.step (live : Live Path) : Event Path → Live Path
  | .added path external internal => Function.update live path (some (external, internal))
  | .changed path external =>
    Function.update live path ((live path).map fun n => (external.getD n.1, n.2))
  | .removed path => Function.update live path none

/-- No two live paths have the same outer number. -/
def Live.Distinct (live : Live Path) : Prop :=
  ∀ p q e i j, live p = some (e, i) → live q = some (e, j) → p = q

/-- The state of the account service together with the objects. -/
structure Tracked (Path : Type) where
  mappings : Mappings Path
  live : Live Path

/-- A handler that raises changes nothing. -/
def Mappings.step (m : Mappings Path) : Event Path → Mappings Path
  | .added path external internal => m.interfacesAdded path external internal
  | .changed path external => (m.propertiesChanged path external).getD m
  | .removed path => (m.interfacesRemoved path).getD m

def Tracked.step (x : Tracked Path) (ev : Event Path) : Tracked Path where
  mappings := x.mappings.step ev
  live := x.live.step ev

/-- The state after `init_ch_num_maps` with the given objects. -/
def Tracked.start (objs : Table Path (ℕ × ℕ)) : Tracked Path where
  mappings := Mappings.empty.initChNumMaps objs
  live := objs.lookup

/-- The map is exact when the outer numbers are distinct, and the status says whether there
are objects. -/
structure Tracked.Exact (x : Tracked Path) : Prop where
  maps : x.live.Distinct →
    ∀ e i, x.mappings.chNumMaps.lookup e = some i ↔ ∃ p, x.live p = some (e, i)
  status : x.mappings.multiChannelStatus = 1 ↔ ∃ p, (x.live p).isSome

/-- A path leaves its outer number only when it is the only one that has it, and a path that
is added again keeps its number, or leaves the entry to another path that the entry is
right for. -/
def Tracked.Orderly (x : Tracked Path) : Event Path → Prop
  | .added p e _ => ∀ e₀ i₀, x.live p = some (e₀, i₀) → e₀ ≠ e →
    ∃ q j, q ≠ p ∧ x.live q = some (e₀, j) ∧ x.mappings.chNumMaps.lookup e₀ = some j
  | .changed p external => ∀ e₀ i₀, x.live p = some (e₀, i₀) → external.getD e₀ ≠ e₀ →
    ∀ q j, x.live q = some (e₀, j) → q = p
  | .removed p => ∀ e₀ i₀, x.live p = some (e₀, i₀) → ∀ q j, x.live q = some (e₀, j) → q = p

/-! ## The invariant -/

/-- The outer numbers of the paths are known, and the map has an entry for each of them that
comes from one of the paths. -/
structure Tracked.Mirrors (x : Tracked Path) : Prop where
  path : ∀ p, x.mappings.pathToChNum.lookup p = (x.live p).map (·.1)
  multi : (∃ p, (x.live p).isSome) → x.mappings.multiChannelStatus = 1
  single : (¬ ∃ p, (x.live p).isSome) → x.mappings.multiChannelStatus = 0
  known : ∀ e i, x.mappings.chNumMaps.lookup e = some i → ∃ p, x.live p = some (e, i)
  present : ∀ p e i, x.live p = some (e, i) → ∃ j, x.mappings.chNumMaps.lookup e = some j

theorem Tracked.Mirrors.exact {x : Tracked Path} (h : x.Mirrors) :
  x.Exact where
  maps hdistinct e i := by
    refine ⟨h.known e i, ?_⟩
    rintro ⟨p, hp⟩
    obtain ⟨j, hj⟩ := h.present p e i hp
    obtain ⟨q, hq⟩ := h.known e j hj
    obtain rfl := hdistinct p q e i j hp hq
    rw [hp, Option.some_inj, Prod.mk.injEq] at hq
    rw [hj, hq.2]
  status := by
    by_cases hex : ∃ p, (x.live p).isSome
    · exact iff_of_true (h.multi hex) hex
    · rw [h.single hex]
      exact iff_of_false (by decide) hex

variable {x : Tracked Path}

theorem mirrors_empty :
  Tracked.Mirrors (⟨.empty, fun _ => none⟩ : Tracked Path) where
  path _ := rfl
  multi := by simp
  single _ := rfl
  known := by simp [Mappings.empty]
  present := by simp

theorem mirrors_added (h : x.Mirrors) {p : Path} {e i : ℕ} (ho : x.Orderly (.added p e i)) :
  (x.step (.added p e i)).Mirrors where
  path q := by
    simp only [Tracked.step, Mappings.step, Mappings.interfacesAdded, Live.step,
      Table.lookup_assign, Function.update_apply]
    split_ifs
    · rfl
    · exact h.path q
  multi _ := rfl
  single hnone := by
    refine absurd ⟨p, ?_⟩ hnone
    simp [Tracked.step, Live.step]
  known e' i' hlookup := by
    simp only [Tracked.step, Mappings.step, Mappings.interfacesAdded, Live.step,
      Table.lookup_assign] at hlookup ⊢
    by_cases he : e' = e
    · rw [if_pos he, Option.some_inj] at hlookup
      exact ⟨p, by rw [Function.update_self, he, hlookup]⟩
    · rw [if_neg he] at hlookup
      obtain ⟨q, hq⟩ := h.known e' i' hlookup
      by_cases hqp : q = p
      · subst hqp
        obtain ⟨q', j, hne, hq', hj⟩ := ho e' i' hq he
        rw [hlookup, Option.some_inj] at hj
        exact ⟨q', by rw [Function.update_of_ne hne, hq', hj]⟩
      · exact ⟨q, by rw [Function.update_of_ne hqp, hq]⟩
  present q e' i' hq := by
    simp only [Tracked.step, Mappings.step, Mappings.interfacesAdded, Live.step,
      Table.lookup_assign, Function.update_apply] at hq ⊢
    by_cases he : e' = e
    · exact ⟨i, if_pos he⟩
    · rw [if_neg he]
      by_cases hqp : q = p
      · rw [if_pos hqp, Option.some_inj, Prod.mk.injEq] at hq
        exact absurd hq.1.symm he
      · rw [if_neg hqp] at hq
        exact h.present q e' i' hq

/-- The inner number of a path whose outer number is known. -/
theorem live_of_lookup (h : x.Mirrors) {p : Path} {e : ℕ}
    (hp : x.mappings.pathToChNum.lookup p = some e) :
  ∃ i, x.live p = some (e, i)
  := by
  rw [h.path, Option.map_eq_some_iff] at hp
  obtain ⟨⟨e', i⟩, hlive, rfl⟩ := hp
  exact ⟨i, hlive⟩

/-- A handler raises for a path that is not live. -/
theorem live_of_lookup_none (h : x.Mirrors) {p : Path}
    (hp : x.mappings.pathToChNum.lookup p = none) :
  x.live p = none
  := by
  rw [h.path, Option.map_eq_none_iff] at hp
  exact hp

/-- A path gets another outer number. -/
theorem mirrors_renumbered (h : x.Mirrors) {p : Path} {old i new : ℕ}
    (hp : x.live p = some (old, i)) (hlookup : x.mappings.pathToChNum.lookup p = some old)
    (ho : new ≠ old → ∀ q j, x.live q = some (old, j) → q = p) :
  (x.step (.changed p (some new))).Mirrors
  := by
  have hmaps : (x.mappings.step (.changed p (some new))).chNumMaps
      = (x.mappings.chNumMaps.assign old none).assign new (x.mappings.chNumMaps.lookup old) := by
    simp only [Mappings.step, Mappings.propertiesChanged, hlookup, Option.getD_some]
  have hpath : (x.mappings.step (.changed p (some new))).pathToChNum
      = x.mappings.pathToChNum.assign p (some new) := by
    simp only [Mappings.step, Mappings.propertiesChanged, hlookup, Option.getD_some]
  have hstatus : (x.mappings.step (.changed p (some new))).multiChannelStatus
      = x.mappings.multiChannelStatus := by
    simp only [Mappings.step, Mappings.propertiesChanged, hlookup, Option.getD_some]
  have hlive : x.live.step (.changed p (some new))
      = Function.update x.live p (some (new, i)) := by
    simp only [Live.step, hp, Option.map_some, Option.getD_some]
  exact
    { path := by
        intro q
        simp only [Tracked.step, hpath, hlive, Table.lookup_assign, Function.update_apply]
        split_ifs
        · rfl
        · exact h.path q
      multi := by
        intro _
        simp only [Tracked.step, hstatus]
        exact h.multi ⟨p, by rw [hp]; rfl⟩
      single := by
        intro hnone
        refine absurd ⟨p, ?_⟩ hnone
        simp [Tracked.step, hlive]
      known := by
        intro e j hj
        simp only [Tracked.step, hmaps, hlive, Table.lookup_assign] at hj ⊢
        by_cases hnew : e = new
        · rw [if_pos hnew] at hj
          obtain ⟨q, hq⟩ := h.known old j hj
          by_cases hqp : q = p
          · rw [hqp, hp, Option.some_inj, Prod.mk.injEq] at hq
            exact ⟨p, by rw [Function.update_self, hnew, hq.2]⟩
          · have hsame : new = old := by
              by_contra hne
              exact hqp (ho hne q j hq)
            exact ⟨q, by rw [Function.update_of_ne hqp, hq, hnew, hsame]⟩
        · rw [if_neg hnew] at hj
          by_cases hold : e = old
          · simp [hold] at hj
          · rw [if_neg hold] at hj
            obtain ⟨q, hq⟩ := h.known e j hj
            have hqp : q ≠ p := by
              rintro rfl
              rw [hp, Option.some_inj, Prod.mk.injEq] at hq
              exact hold hq.1.symm
            exact ⟨q, by rw [Function.update_of_ne hqp, hq]⟩
      present := by
        intro q e j hq
        simp only [Tracked.step, hmaps, hlive, Table.lookup_assign, Function.update_apply]
          at hq ⊢
        by_cases hnew : e = new
        · rw [if_pos hnew]
          exact h.present p old i hp
        · rw [if_neg hnew]
          by_cases hqp : q = p
          · rw [if_pos hqp, Option.some_inj, Prod.mk.injEq] at hq
            exact absurd hq.1.symm hnew
          · rw [if_neg hqp] at hq
            have hold : e ≠ old := by
              rintro rfl
              exact hqp (ho (fun h => hnew h.symm) q j hq)
            rw [if_neg hold]
            exact h.present q e j hq }

theorem mirrors_changed (h : x.Mirrors) {p : Path} {external : Option ℕ}
    (ho : x.Orderly (.changed p external)) :
  (x.step (.changed p external)).Mirrors
  := by
  cases external with
  | none =>
    have hlive : x.live.step (.changed p none) = x.live := by
      simp [Live.step]
    have hsame : x.step (.changed p none) = x := by
      simp only [Tracked.step, hlive, Mappings.step, Mappings.propertiesChanged, Option.getD_some]
    rw [hsame]
    exact h
  | some new =>
    cases hp : x.mappings.pathToChNum.lookup p with
    | none =>
      have hlive : x.live.step (.changed p (some new)) = x.live := by
        simp only [Live.step, live_of_lookup_none h hp, Option.map_none]
        rw [← live_of_lookup_none h hp, Function.update_eq_self]
      have hsame : x.step (.changed p (some new)) = x := by
        simp only [Tracked.step, hlive, Mappings.step, Mappings.propertiesChanged, hp,
          Option.getD_none]
      rw [hsame]
      exact h
    | some old =>
      obtain ⟨i, hi⟩ := live_of_lookup h hp
      exact mirrors_renumbered h hi hp (ho old i hi)

theorem mirrors_removed (h : x.Mirrors) {p : Path} (ho : x.Orderly (.removed p)) :
  (x.step (.removed p)).Mirrors
  := by
  cases hp : x.mappings.pathToChNum.lookup p with
  | none =>
    have hlive : x.live.step (.removed p) = x.live := by
      simp only [Live.step]
      rw [← live_of_lookup_none h hp, Function.update_eq_self]
    have hsame : x.step (.removed p) = x := by
      simp only [Tracked.step, hlive, Mappings.step, Mappings.interfacesRemoved, hp,
        Option.getD_none]
    rw [hsame]
    exact h
  | some old =>
    obtain ⟨i, hi⟩ := live_of_lookup h hp
    have hmaps : (x.step (.removed p)).mappings =
        { chNumMaps := x.mappings.chNumMaps.assign old none
          pathToChNum := x.mappings.pathToChNum.assign p none
          multiChannelStatus := if (x.mappings.pathToChNum.assign p none).keys = [] then 0
            else x.mappings.multiChannelStatus } := by
      simp only [Tracked.step, Mappings.step, Mappings.interfacesRemoved, hp, Option.getD_some]
    have hpath : ∀ q, (x.mappings.pathToChNum.assign p none).lookup q
        = ((x.step (.removed p)).live q).map (·.1) := by
      intro q
      simp only [Tracked.step, Live.step, Table.lookup_assign, Function.update_apply]
      split_ifs
      · rfl
      · exact h.path q
    have hempty : (x.mappings.pathToChNum.assign p none).keys = []
        ↔ ¬ ∃ q, ((x.step (.removed p)).live q).isSome := by
      rw [Table.keys_eq_nil_iff]
      simp [hpath]
    exact
      { path := by
          rw [hmaps]
          exact hpath
        multi := by
          intro hex
          rw [hmaps]
          simp only [if_neg (mt hempty.mp (not_not.mpr hex))]
          exact h.multi ⟨p, by rw [hi]; rfl⟩
        single := by
          intro hnone
          rw [hmaps]
          simp only [if_pos (hempty.mpr hnone)]
        known := by
          intro e j hj
          rw [hmaps] at hj
          simp only [Table.lookup_assign] at hj
          by_cases hold : e = old
          · simp [hold] at hj
          · rw [if_neg hold] at hj
            obtain ⟨q, hq⟩ := h.known e j hj
            have hqp : q ≠ p := by
              rintro rfl
              rw [hi, Option.some_inj, Prod.mk.injEq] at hq
              exact hold hq.1.symm
            exact ⟨q, by simp only [Tracked.step, Live.step, Function.update_of_ne hqp, hq]⟩
        present := by
          intro q e j hq
          simp only [Tracked.step, Live.step, Function.update_apply] at hq
          by_cases hqp : q = p
          · simp [hqp] at hq
          · rw [if_neg hqp] at hq
            have hold : e ≠ old := by
              rintro rfl
              exact hqp (ho e i hi q j hq)
            rw [hmaps]
            simp only [Table.lookup_assign, if_neg hold]
            exact h.present q e j hq }

theorem mirrors_step (h : x.Mirrors) {ev : Event Path} (ho : x.Orderly ev) :
  (x.step ev).Mirrors
  := by
  cases ev with
  | added p e i => exact mirrors_added h ho
  | changed p external => exact mirrors_changed h ho
  | removed p => exact mirrors_removed h ho

/-! ## The start -/

/-- The objects that are there at the start are entered one after the other. -/
def Tracked.enter (x : Tracked Path) (objs : List (Sigma fun _ : Path => ℕ × ℕ)) :
    Tracked Path :=
  objs.foldl (fun x e => x.step (.added e.1 e.2.1 e.2.2)) x

theorem mirrors_enter {objs : List (Sigma fun _ : Path => ℕ × ℕ)} (hnodup : objs.NodupKeys)
    {x : Tracked Path} (h : x.Mirrors) (hfresh : ∀ e ∈ objs, x.live e.1 = none) :
  (x.enter objs).Mirrors
  := by
  induction objs generalizing x with
  | nil => exact h
  | cons e objs ih =>
    obtain ⟨hnotin, hnodup⟩ := List.nodupKeys_cons.mp hnodup
    apply ih hnodup
    · apply mirrors_added h
      intro e₀ i₀ hlive
      rw [hfresh e List.mem_cons_self] at hlive
      cases hlive
    · intro e' he'
      have hne : e'.1 ≠ e.1 := fun heq => hnotin (heq ▸ List.mem_keys_of_mem he')
      simp only [Tracked.step, Live.step, Function.update_of_ne hne]
      exact hfresh e' (List.mem_cons_of_mem e he')

theorem live_enter {objs : List (Sigma fun _ : Path => ℕ × ℕ)} (hnodup : objs.NodupKeys)
    (x : Tracked Path) (p : Path) :
  (x.enter objs).live p = (objs.dlookup p).or (x.live p)
  := by
  induction objs generalizing x with
  | nil => rfl
  | cons e objs ih =>
    obtain ⟨hnotin, hnodup⟩ := List.nodupKeys_cons.mp hnodup
    change ((x.step (.added e.1 e.2.1 e.2.2)).enter objs).live p = _
    rw [ih hnodup]
    obtain ⟨q, n⟩ := e
    by_cases hq : p = q
    · subst hq
      rw [List.dlookup_eq_none.mpr hnotin, List.dlookup_cons_eq]
      simp [Tracked.step, Live.step]
    · rw [List.dlookup_cons_ne _ _ hq]
      simp [Tracked.step, Live.step, hq]

/-- Setting the status once is setting it for each object. -/
theorem mappings_enter (objs : List (Sigma fun _ : Path => ℕ × ℕ)) (x : Tracked Path)
    (m : Mappings Path) (h : x.mappings = { m with multiChannelStatus := 1 }) :
  (x.enter objs).mappings =
    { objs.foldl (fun m e =>
        { m with
          chNumMaps := m.chNumMaps.assign e.2.1 (some e.2.2)
          pathToChNum := m.pathToChNum.assign e.1 (some e.2.1) }) m with
      multiChannelStatus := 1 }
  := by
  induction objs generalizing x m with
  | nil => exact h
  | cons e objs ih =>
    apply ih (x.step (.added e.1 e.2.1 e.2.2))
    simp only [Tracked.step, Mappings.step, Mappings.interfacesAdded, h]

theorem start_eq_enter (objs : Table Path (ℕ × ℕ)) :
  Tracked.start objs = Tracked.enter ⟨.empty, fun _ => none⟩ objs.entries
  := by
  have hlive : (Tracked.start objs).live
      = (Tracked.enter ⟨.empty, fun _ => none⟩ objs.entries).live := by
    funext p
    rw [live_enter objs.nodupKeys]
    simp [Tracked.start, AList.lookup]
  have hmaps : (Tracked.start objs).mappings
      = (Tracked.enter ⟨.empty, fun _ => none⟩ objs.entries).mappings := by
    simp only [Tracked.start, Mappings.initChNumMaps]
    cases objs.entries with
    | nil => rfl
    | cons e l =>
      rw [if_neg (List.cons_ne_nil e l), List.foldl_cons]
      exact (mappings_enter l _ _ rfl).symm
  exact congrArg₂ Tracked.mk hmaps hlive

theorem mirrors_start (objs : Table Path (ℕ × ℕ)) :
  (Tracked.start objs).Mirrors
  := by
  rw [start_eq_enter]
  apply mirrors_enter objs.nodupKeys mirrors_empty
  intro e _
  rfl

/-- In every run in which paths leave their numbers in order, the map is exact in every
state. -/
theorem run_exact (objs : Table Path (ℕ × ℕ)) (events : List (Event Path))
    (h : Run.Along Tracked.step Tracked.Orderly (Tracked.start objs) events) :
  ∀ x ∈ Run.states Tracked.step (Tracked.start objs) events, x.Exact
  := by
  intro x hx
  have hinv := Run.invariant (I := Tracked.Mirrors) (fun _ _ h ho => mirrors_step h ho)
    (mirrors_start objs) h x hx
  exact hinv.exact

/-! ### Two numbers that cross -/

/-- Two channels exchange their outer numbers, and so have the same number in between. -/
def exchange : List (Event Bool) :=
  [.added false 1 11, .added true 2 12, .changed false (some 2), .changed true (some 1)]

/-- In the end the numbers are distinct again, and one of the entries is lost. -/
theorem exchange_loses_entry :
  ¬ ∀ (objs : Table Bool (ℕ × ℕ)) (events : List (Event Bool)),
    ∀ x ∈ Run.states Tracked.step (Tracked.start objs) events, x.Exact
  := by
  intro h
  have hlast := h ∅ exchange (exchange.foldl Tracked.step (Tracked.start ∅)) (by
    simp [exchange, Run.states])
  have hfalse : (exchange.foldl Tracked.step (Tracked.start ∅)).live false = some (2, 11) := by
    decide
  have htrue : (exchange.foldl Tracked.step (Tracked.start ∅)).live true = some (1, 12) := by
    decide
  have hdistinct : (exchange.foldl Tracked.step (Tracked.start ∅)).live.Distinct := by
    intro p q e i j hp hq
    cases p <;> cases q <;> simp_all
  have hentry := (hlast.maps hdistinct 2 11).mpr ⟨false, hfalse⟩
  revert hentry
  decide

/-- One channel changes its outer number through a third one. -/
theorem run_exact_detour :
  Run.Along Tracked.step Tracked.Orderly (Tracked.start ∅)
      [.added false 1 11, .added true 2 12, .changed false (some 3), .changed true (some 1),
        .changed false (some 2)]
    ∧ ∀ x ∈ Run.states Tracked.step (Tracked.start ∅)
      [.added false 1 11, .added true 2 12, .changed false (some 3), .changed true (some 1),
        .changed false (some 2)], x.Exact
  := by
  suffices h : Run.Along Tracked.step Tracked.Orderly (Tracked.start ∅)
      [.added false 1 11, .added true 2 12, .changed false (some 3), .changed true (some 1),
        .changed false (some 2)] from ⟨h, run_exact _ _ h⟩
  simp only [Run.Along, Tracked.Orderly, Tracked.step, Live.step, Tracked.start]
  refine ⟨?_, ?_, ?_, ?_, ?_, trivial⟩
  all_goals simp [AList.lookup_empty]

end ChannelMappings

end BmcAccount
