import BmcAccount.LoginRule.Cache

/-!
# The login rules in runs

In a run the properties of the rules are written, the signals of it are on their way, and the
passes of the cache go on at the same time. The cache is a mirror of the objects (`simulates`), and
the objects are those of the table as long as the file can be written (`Published`). Therefore the
cache admits the logins that the account service admits, once a pass has ended and no signal is in
flight, and the PAM modules find the same rules in the file (`rules_agree_of_run`).
-/

namespace BmcAccount

namespace LoginRule

open Fields Raise CheckLoginRule

variable {net : NetworkCore}

/-! ## Runs -/

/-- The account service with the objects of its rules, the signals that are in flight, and the cache
with the rules that its pass has still to come to. -/
structure RuleSystem (net : NetworkCore) where
  service : RuleService net
  objects : Fin 3 → Option RuleObject
  inFlight : List (Fin 3 × Mirror.News RuleProperty)
  cache : LoginRuleCache net
  unread : Finset (Fin 3)

/-- The account service creates the object of a rule; a property is written; a signal arrives; the
pass of `sync_rule_info` begins, comes to a rule, or ends. Where an object is to be read, the
reading may fail. -/
inductive RuleEvent where
  | create (i : Fin 3)
  | write (i : Fin 3) (p : RuleProperty) (a : FileAccess)
  | deliver (reads : Bool)
  | clear
  | read (i : Fin 3) (reads : Bool)
  | clean
  deriving DecidableEq

/-- The handler of a signal. -/
def LoginRuleCache.hear (c : LoginRuleCache net) (reads : Bool) (object : Option RuleObject)
    (i : Fin 3) : Mirror.News RuleProperty → LoginRuleCache net
  | .added =>
    match object with
    | some o => if reads = true then c.newRuleCache i o else c
    | none => c
  | .removed => c.delRuleCache i
  | .changed p => c.editRuleCache i p

section Steps

variable (s : RuleSystem net)

/-- `create_rule_mdb_tree`. -/
def RuleSystem.create (i : Fin 3) : RuleSystem net :=
  { s with
    objects := Function.update s.objects i (some (s.service.collection.rule i).mLoginRule.object)
    inFlight := s.inFlight ++ [(i, .added)] }

/-- A property is written, and is changed if its hook raises no error. -/
def RuleSystem.write (i : Fin 3) (p : RuleProperty) (a : FileAccess) : RuleSystem net :=
  match s.objects i with
  | none => s
  | some o =>
    match exec (watchPropertyHook a i p) s.service with
    | (.ok _, service) =>
      { s with
        service := service
        objects := Function.update s.objects i (some (p.write o))
        inFlight := s.inFlight ++ [(i, .changed p)] }
    | (.error _, service) => { s with service := service }

/-- The signal that was sent first arrives. -/
def RuleSystem.deliver (reads : Bool) : RuleSystem net :=
  match s.inFlight with
  | [] => s
  | (i, n) :: rest =>
    { s with cache := s.cache.hear reads (s.objects i) i n, inFlight := rest }

/-- The pass comes to a rule. -/
def RuleSystem.read (i : Fin 3) (reads : Bool) : RuleSystem net :=
  { s with
    cache := if reads = true then (s.objects i).elim s.cache (s.cache.syncRule i) else s.cache
    unread := s.unread.erase i }

/-- The state after an event. -/
def RuleSystem.after : RuleEvent → RuleSystem net
  | .create i => s.create i
  | .write i p a => s.write i p a
  | .deliver reads => s.deliver reads
  | .clear => { s with cache := s.cache.clearCacheFlushState, unread := Finset.univ }
  | .read i reads => s.read i reads
  | .clean => { s with cache := s.cache.cleanRedundantCache }

end Steps

/-- The file can be written, objects can be read, and a pass ends when it has come to every rule. -/
def RuleSystem.Fair (s : RuleSystem net) : RuleEvent → Prop
  | .write _ _ a => a.Writes
  | .deliver reads => reads = true
  | .read _ reads => reads = true
  | .clean => s.unread = ∅
  | _ => True

instance (a : FileAccess) : Decidable a.Writes := inferInstanceAs (Decidable (_ ∧ _ ∧ _))

instance (s : RuleSystem net) (e : RuleEvent) : Decidable (s.Fair e) :=
  match e with
  | .write _ _ a => inferInstanceAs (Decidable a.Writes)
  | .deliver reads => inferInstanceAs (Decidable (reads = true))
  | .read _ reads => inferInstanceAs (Decidable (reads = true))
  | .clean => inferInstanceAs (Decidable (s.unread = ∅))
  | .create _ | .clear => inferInstanceAs (Decidable True)

/-- The account service has loaded its rules and written its file, and nothing else has happened. -/
def RuleSystem.start (c : LoginRuleCollection net) (order : List (Fin 3)) : RuleSystem net where
  service := ⟨c, c.getLines order⟩
  objects _ := none
  inFlight := []
  cache _ := none
  unread := Finset.univ

/-! ## The cache is a mirror -/

theorem lawful_write : Mirror.Lawful RuleProperty.write where
  idem p v := by
    cases p <;> rfl
  congr p q v v' h := by
    cases p <;> cases q <;> simp_all [RuleProperty.write]

/-- What the cache holds of the objects. -/
def LoginRuleCache.view (c : LoginRuleCache net) (i : Fin 3) : Option (RuleObject × Bool) :=
  (c i).map fun m => (m.object, m.isFlush)

/-- The objects of the rules, and what the cache holds of them. -/
def RuleSystem.mirror (s : RuleSystem net) : Mirror.State (Fin 3) RuleObject RuleProperty where
  original := s.objects
  inFlight := s.inFlight
  copy := s.cache.view
  unread := s.unread

/-- What an event is to the mirror. -/
def RuleSystem.image (s : RuleSystem net) :
    RuleEvent → Option (Mirror.Event (Fin 3) RuleObject RuleProperty)
  | .create i => some (.add i (s.service.collection.rule i).mLoginRule.object)
  | .write i p a =>
    match s.objects i, (exec (watchPropertyHook a i p) s.service).1 with
    | some _, .ok _ => some (.change i p)
    | _, _ => none
  | .deliver reads => some (.deliver reads)
  | .clear => some .clear
  | .read i reads => some (.read i reads)
  | .clean => some .clean

section Views

variable (c : LoginRuleCache net)

theorem LoginRuleCache.view_update (i : Fin 3) (e : Option (LoginRuleManagerCache net)) :
  LoginRuleCache.view (Function.update c i e)
    = Function.update c.view i (e.map fun m => (m.object, m.isFlush))
  := by
  funext j
  unfold view
  by_cases hj : j = i
  · subst hj
    rw [Function.update_self, Function.update_self]
  · rw [Function.update_of_ne hj, Function.update_of_ne hj]

/-- What the handler of a signal does to it. -/
theorem LoginRuleCache.view_hear (reads : Bool) (object : Option RuleObject) (i : Fin 3)
    (n : Mirror.News RuleProperty) :
  (c.hear reads object i n).view
    = Function.update c.view i (n.arrive RuleProperty.write reads object (c.view i))
  := by
  cases n with
  | added =>
    cases object with
    | none =>
      cases reads <;> exact (Function.update_eq_self i c.view).symm
    | some o =>
      cases reads with
      | false => exact (Function.update_eq_self i c.view).symm
      | true => exact c.view_update i _
  | removed => exact c.view_update i none
  | changed p =>
    change LoginRuleCache.view (Function.update c i _) = _
    rw [view_update]
    congr 1
    unfold view
    rw [Option.map_map]
    cases c i with
    | none => rfl
    | some m =>
      obtain ⟨hobject, hflush⟩ := m.object_propertyChangeCb p
      change some (_, _) = some (_, _)
      rw [hobject, hflush]

/-- What a pass does to it when it comes to a rule. -/
theorem LoginRuleCache.view_syncRule (i : Fin 3) (o : RuleObject) :
  (c.syncRule i o).view = Function.update c.view i (some (o, true))
  := by
  unfold syncRule
  cases c i with
  | none => exact c.view_update i _
  | some m => exact c.view_update i _

theorem LoginRuleCache.view_clearCacheFlushState :
  c.clearCacheFlushState.view = fun i => (c.view i).map fun e => (e.1, false)
  := by
  funext i
  unfold clearCacheFlushState view
  rw [Option.map_map, Option.map_map]
  rfl

theorem LoginRuleCache.view_cleanRedundantCache :
  c.cleanRedundantCache.view = fun i => (c.view i).filter fun e => e.2
  := by
  funext i
  change ((c i).filter fun m => m.isFlush).map (fun m => (m.object, m.isFlush))
    = ((c i).map fun m => (m.object, m.isFlush)).filter fun e => e.2
  cases c i with
  | none => rfl
  | some m =>
    rw [Option.filter_some, Option.map_some, Option.filter_some]
    cases hflush : m.isFlush with
    | false => rfl
    | true => rw [if_pos rfl, if_pos rfl, Option.map_some, hflush]

end Views

section Steps

variable (s : RuleSystem net)

/-- What is written to a property is the change of the object, if the hook raises no error. -/
theorem RuleSystem.mirror_write (i : Fin 3) (p : RuleProperty) (a : FileAccess) :
  (s.write i p a).mirror
    = (s.image (.write i p a)).elim s.mirror (s.mirror.after RuleProperty.write Set.univ)
  := by
  simp only [write, image]
  cases ho : s.objects i with
  | none => rfl
  | some o =>
    rcases exec (watchPropertyHook a i p) s.service with ⟨e | _, service⟩
    · rfl
    · have hmap : (s.objects i).map p.write = some (p.write o) := by
        rw [ho]
        rfl
      simp only [Option.elim_some, Mirror.State.after, Mirror.State.send, mirror, hmap]

theorem RuleSystem.mirror_deliver (reads : Bool) :
  (s.deliver reads).mirror = s.mirror.after RuleProperty.write Set.univ (.deliver reads)
  := by
  unfold deliver
  cases hflight : s.inFlight with
  | nil =>
    symm
    exact Mirror.after_deliver_of_nil (s := s.mirror) hflight
  | cons e rest =>
    obtain ⟨i, n⟩ := e
    rw [Mirror.after_deliver_of_cons (s := s.mirror) hflight]
    unfold mirror
    simp only [LoginRuleCache.view_hear]
    rfl

theorem RuleSystem.mirror_read (i : Fin 3) (reads : Bool) :
  (s.read i reads).mirror = s.mirror.after RuleProperty.write Set.univ (.read i reads)
  := by
  have hview : LoginRuleCache.view (if reads = true then
        (s.objects i).elim s.cache (s.cache.syncRule i) else s.cache)
      = Function.update s.cache.view i (if reads = true then
        ((s.objects i).map (·, true)).or (s.cache.view i) else s.cache.view i) := by
    cases reads with
    | false => exact (Function.update_eq_self i s.cache.view).symm
    | true =>
      cases s.objects i with
      | none => exact (Function.update_eq_self i s.cache.view).symm
      | some o => exact s.cache.view_syncRule i o
  have hunread : ((s.unread.erase i : Finset (Fin 3)) : Set (Fin 3)) = ↑s.unread \ {i} :=
    Finset.coe_erase i s.unread
  unfold mirror read
  simp only [hview, hunread]
  rfl

end Steps

/-- The cache is a mirror of the objects of the rules. -/
theorem simulates :
  Mirror.Simulates (@RuleSystem.after net) RuleSystem.Fair RuleProperty.write Set.univ
    RuleSystem.mirror RuleSystem.image
  where
  view_step s e _ := by
    cases e with
    | create i => rfl
    | write i p a => exact s.mirror_write i p a
    | deliver reads => exact s.mirror_deliver reads
    | clear =>
      change Mirror.State.mk s.objects s.inFlight s.cache.clearCacheFlushState.view
        ((Finset.univ : Finset (Fin 3)) : Set (Fin 3)) = _
      rw [s.cache.view_clearCacheFlushState, Finset.coe_univ]
      rfl
    | read i reads => exact s.mirror_read i reads
    | clean =>
      change Mirror.State.mk s.objects s.inFlight s.cache.cleanRedundantCache.view _ = _
      rw [s.cache.view_cleanRedundantCache]
      rfl
  fair s e hok e' he' := by
    cases e with
    | create i =>
      cases he'
      exact ⟨trivial, trivial⟩
    | write i p a =>
      simp only [RuleSystem.image] at he'
      split at he'
      · cases he'
        exact ⟨trivial, trivial⟩
      · cases he'
    | deliver reads =>
      cases he'
      exact ⟨trivial, hok⟩
    | clear =>
      cases he'
      exact ⟨trivial, trivial⟩
    | read i reads =>
      cases he'
      exact ⟨trivial, hok⟩
    | clean =>
      cases he'
      have hempty : s.mirror.unread = ∅ := by
        change ((s.unread : Finset (Fin 3)) : Set (Fin 3)) = ∅
        rw [show s.unread = ∅ from hok, Finset.coe_empty]
      exact ⟨hempty, trivial⟩

/-! ## The objects are those of the table -/

/-- The objects show the rules of the table, and so does the file. -/
structure RuleSystem.Published (s : RuleSystem net) : Prop where
  objects : ∀ i, ∀ o ∈ s.objects i, o = (s.service.collection.rule i).object
  written : s.service.Written

theorem published_start (c : LoginRuleCollection net) {order : List (Fin 3)}
    (horder : order.Perm (List.finRange 3)) :
  (RuleSystem.start c order).Published
  where
  objects i o ho := by cases ho
  written := ⟨order, horder, rfl⟩

theorem RuleSystem.Published.create {s : RuleSystem net} (h : s.Published) (i : Fin 3) :
  (s.create i).Published
  where
  objects j o ho := by
    change o ∈ Function.update s.objects i _ j at ho
    by_cases hj : j = i
    · subst hj
      rw [Function.update_self, LoginRuleManager.object_row] at ho
      exact (Option.some.inj ho).symm
    · rw [Function.update_of_ne hj] at ho
      exact h.objects j o ho
  written := h.written

/-- A write changes the object as it changes the table. -/
theorem RuleSystem.Published.write {s : RuleSystem net} (h : s.Published) (i : Fin 3)
    (p : RuleProperty) {a : FileAccess} (ha : a.Writes) :
  (s.write i p a).Published
  := by
  unfold RuleSystem.write
  cases ho : s.objects i with
  | none => exact h
  | some o =>
    have hobject := h.objects i o ho
    rw [watchPropertyHook_eq_setRule, exec_setRule ha]
    cases hset : s.service.collection.setProperty i p with
    | error e => exact h
    | ok c =>
      obtain ⟨hi, hother⟩ := LoginRuleCollection.setProperty_eq_ok hset
      refine ⟨?_, a.order, a.perm, rfl⟩
      intro j o' ho'
      change o' ∈ Function.update s.objects i (some (p.write o)) j at ho'
      change o' = (c.rule j).object
      by_cases hj : j = i
      · subst hj
        rw [Function.update_self] at ho'
        rw [hi, ← hobject]
        exact (Option.some.inj ho').symm
      · rw [Function.update_of_ne hj] at ho'
        rw [hother j hj]
        exact h.objects j o' ho'

theorem published_after (s : RuleSystem net) (e : RuleEvent) (h : s.Published) (hfair : s.Fair e) :
  (s.after e).Published
  := by
  cases e with
  | create i => exact h.create i
  | write i p a => exact h.write i p hfair
  | deliver reads =>
    change (s.deliver reads).Published
    unfold RuleSystem.deliver
    split
    · exact h
    · exact ⟨h.objects, h.written⟩
  | clear => exact ⟨h.objects, h.written⟩
  | read i reads => exact ⟨h.objects, h.written⟩
  | clean => exact ⟨h.objects, h.written⟩

/-! ## The object of a rule stays -/

theorem isSome_objects_after {s : RuleSystem net} {i : Fin 3} (h : (s.objects i).isSome = true)
    (e : RuleEvent) :
  ((s.after e).objects i).isSome = true
  := by
  have hupdate : ∀ (j : Fin 3) (o : RuleObject),
      (Function.update s.objects j (some o) i).isSome = true := by
    intro j o
    by_cases hj : i = j
    · subst hj
      rw [Function.update_self, Option.isSome_some]
    · rw [Function.update_of_ne hj]
      exact h
  cases e with
  | create j => exact hupdate j _
  | write j p a =>
    change ((s.write j p a).objects i).isSome = true
    unfold RuleSystem.write
    split
    · exact h
    · split
      · exact hupdate j _
      · exact h
  | deliver reads =>
    change ((s.deliver reads).objects i).isSome = true
    unfold RuleSystem.deliver
    split <;> exact h
  | clear | clean => exact h
  | read j reads => exact h

/-- The state after events. -/
def RuleSystem.run (s : RuleSystem net) (es : List RuleEvent) : RuleSystem net :=
  es.foldl RuleSystem.after s

theorem isSome_objects_run {s : RuleSystem net} {i : Fin 3} (h : (s.objects i).isSome = true)
    (es : List RuleEvent) :
  ((s.run es).objects i).isSome = true
  := by
  induction es generalizing s with
  | nil => exact h
  | cons e es ih => exact ih (isSome_objects_after h e)

theorem isSome_objects_of_create {s : RuleSystem net} {i : Fin 3} {es : List RuleEvent}
    (h : .create i ∈ es) :
  ((s.run es).objects i).isSome = true
  := by
  induction es generalizing s with
  | nil => cases h
  | cons e es ih =>
    rcases List.mem_cons.mp h with rfl | h
    · have hcreated : ((s.after (.create i)).objects i).isSome = true := by
        change (Function.update s.objects i (some _) i).isSome = true
        rw [Function.update_self, Option.isSome_some]
      exact isSome_objects_run hcreated es
    · exact ih h

/-! ## The checks agree -/

/-- In every run in which the objects are created and a pass of the cache ends, when no signal is in
flight: the cache admits the logins that the account service admits, and the PAM modules read the
rules of the account service from the file. -/
theorem rules_agree_of_run (hnet : net.Agrees) (c : LoginRuleCollection net)
    {order : List (Fin 3)} (horder : order.Perm (List.finRange 3)) {es : List RuleEvent}
    (hfair : Run.Along RuleSystem.after RuleSystem.Fair (RuleSystem.start c order) es)
    (hcreate : ∀ i, .create i ∈ es) (hclean : .clean ∈ es)
    (hquiet : ((RuleSystem.start c order).run es).inFlight = []) :
  (∀ host now ids ip,
    ((RuleSystem.start c order).run es).cache.checkLoginRule host now ids ip
      = some (((RuleSystem.start c order).run es).service.collection.checkLoginRule
          host now ids ip))
    ∧ getLoginRules ((RuleSystem.start c order).run es).service.file
      = some fun i => infoOf (((RuleSystem.start c order).run es).service.collection.rule i)
  := by
  have hpublished : ((RuleSystem.start c order).run es).Published :=
    Run.invariant published_after (published_start c horder) hfair _
      (Run.foldl_mem_states _ _ _)
  constructor
  · intro host now ids ip
    apply LoginRuleCache.checkLoginRule_eq
    intro i
    have hsound : (RuleSystem.start c order).mirror.Sound RuleProperty.write i :=
      Mirror.sound_start rfl rfl (Finset.mem_coe.mpr (Finset.mem_univ i))
    have hnews : ((RuleSystem.start c order).run es).mirror.news i = [] := by
      change ((((RuleSystem.start c order).run es).inFlight).filter _).map _ = []
      rw [hquiet]
      rfl
    have hcopy := simulates.copy_eq lawful_write (Set.mem_univ i) hfair hsound hclean
      (fun _ => rfl) hnews
    obtain ⟨o, ho⟩ := Option.isSome_iff_exists.mp
      (isSome_objects_of_create (s := RuleSystem.start c order) (hcreate i))
    rw [← hpublished.objects i o ho, ← ho]
    change Option.map Prod.fst (Option.map _ _) = _ at hcopy
    rw [Option.map_map] at hcopy
    exact hcopy
  · obtain ⟨order', horder', hfile⟩ := hpublished.written
    rw [hfile, getLoginRules_getLines hnet _ horder']

/-- The table as it is set up. -/
def emptyTable : LoginRuleCollection sameNetworkCore where
  rule i := .new sameNetworkCore (i + 1)
  ruleId_eq _ := rfl

/-- The file can be written, in the order of the rules. -/
def openFile : FileAccess where
  opens := true
  opensTmp := true
  moves := true
  order := List.finRange 3
  perm := List.Perm.refl _

/-- While a pass over three rules goes on, the first of them is enabled, and is to check an address
that is none. -/
def enableEvents (i j k : Fin 3) : List RuleEvent :=
  [.create i, .create j, .clear, .deliver true, .read i true, .create k,
    .write i (.enabled true) openFile, .write i (.ipRule ['x']) openFile, .read j true,
    .deliver true, .read k true, .clean, .deliver true, .deliver true]

theorem rules_agree_of_run_enable :
  (∀ host now ids ip,
    ((RuleSystem.start emptyTable [0, 1, 2]).run
        (enableEvents 0 1 2)).cache.checkLoginRule host now ids ip
      = some (((RuleSystem.start emptyTable [0, 1, 2]).run
          (enableEvents 0 1 2)).service.collection.checkLoginRule host now ids ip))
    ∧ getLoginRules ((RuleSystem.start emptyTable [0, 1, 2]).run
        (enableEvents 0 1 2)).service.file
      = some fun i => infoOf (((RuleSystem.start emptyTable [0, 1, 2]).run
          (enableEvents 0 1 2)).service.collection.rule i)
  := rules_agree_of_run ⟨fun _ => rfl, fun _ => rfl⟩ emptyTable (by decide) (by decide) (by decide)
    (by decide) (by decide)

end LoginRule

end BmcAccount
