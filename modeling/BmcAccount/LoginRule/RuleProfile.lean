import BmcAccount.LoginRule.CacheRuns
import BmcAccount.Lib.Profile

/-!
# The profile of the login rules

The addresses and times of the login rules are exported with the rest of the configuration, but not
whether the rules are enabled. A rule that is imported is set as if it were written to its object on
the bus: the table and the file are set, then the object, and a signal of it is sent.

What another controller exports has been accepted there, so it is accepted here, and it is laid over
the rules in whatever order it is listed (`import_export_rules`). The file of the rules and the
objects are again those of the table.
-/

namespace BmcAccount

namespace LoginRule

open Fields Raise Profile CheckLoginRule

/-! ## Properties -/

/-- The properties of `PermitRule`. -/
inductive RuleField where
  | ipRuleInfo
  | macRuleInfo
  | timeRuleInfo
  deriving DecidableEq

def RuleField.name : RuleField → String
  | .ipRuleInfo => "IpRuleInfo"
  | .macRuleInfo => "MacRuleInfo"
  | .timeRuleInfo => "TimeRuleInfo"

/-- The property with its value, as it is set. -/
def RuleField.property : RuleField → Text → RuleProperty
  | .ipRuleInfo, value => .ipRule value
  | .macRuleInfo, value => .macRule value
  | .timeRuleInfo, value => .timeRule value

/-- The error of a rule, or `CollectingConfigurationErrorDesc` with a place in the file. -/
inductive RuleProfileErr where
  | rule (e : RuleErr)
  | collectingConfiguration (place : String)

variable {net : NetworkCore}

/-- `update_rule_mdb_tree`. -/
def RuleSystem.updateRuleMdbTree (s : RuleSystem net) (i : Fin 3) (p : RuleProperty) :
    RuleSystem net :=
  match s.objects i with
  | none => s
  | some o =>
    { s with
      objects := Function.update s.objects i (some (p.write o))
      inFlight := s.inFlight ++ [(i, .changed p)] }

namespace LoginRuleProfile

/-- What the functions have in common that export a rule. -/
def exportRule (shown : RuleObject → Text) (s : RuleSystem net) (i : Fin 3) : Option Text :=
  some (shown (s.service.collection.rule i).mLoginRule.object)

/-- What the functions have in common that import a rule. -/
def importRule (p : Text → RuleProperty) (a : FileAccess) (i : Fin 3) (value : Text) :
    Prog RuleProfileErr (RuleSystem net) Unit := do
  let s ← get
  let (result, service) := exec (watchPropertyHook a i (p value)) s.service
  set { s with service := service }
  outcome (result.mapError .rule)
  modify fun s => s.updateRuleMdbTree i (p value)

def getIpRule (s : RuleSystem net) (i : Fin 3) := exportRule RuleObject.ipRule s i
def getMacRule (s : RuleSystem net) (i : Fin 3) := exportRule RuleObject.macRule s i
def getTimeRule (s : RuleSystem net) (i : Fin 3) := exportRule RuleObject.timeRule s i

def setIpRule (a : FileAccess) (i : Fin 3) (value : Text) :
    Prog RuleProfileErr (RuleSystem net) Unit := importRule .ipRule a i value
def setMacRule (a : FileAccess) (i : Fin 3) (value : Text) :
    Prog RuleProfileErr (RuleSystem net) Unit := importRule .macRule a i value
def setTimeRule (a : FileAccess) (i : Fin 3) (value : Text) :
    Prog RuleProfileErr (RuleSystem net) Unit := importRule .timeRule a i value

end LoginRuleProfile

/-- `PermitRule` in `profile_adapter`. -/
def permitRuleAdapter (access : Fin 3 × RuleField → FileAccess) :
    Adapter (RuleSystem net) RuleProfileErr (Fin 3 × RuleField) Text where
  exports s k :=
    match k.2 with
    | .ipRuleInfo => LoginRuleProfile.getIpRule s k.1
    | .macRuleInfo => LoginRuleProfile.getMacRule s k.1
    | .timeRuleInfo => LoginRuleProfile.getTimeRule s k.1
  imports k value :=
    match k.2 with
    | .ipRuleInfo => LoginRuleProfile.setIpRule (access k) k.1 value
    | .macRuleInfo => LoginRuleProfile.setMacRule (access k) k.1 value
    | .timeRuleInfo => LoginRuleProfile.setTimeRule (access k) k.1 value
  failure k := .collectingConfiguration
    ("/PermitRule/Rule" ++ toString (k.1.val + 1) ++ "/" ++ k.2.name)

/-! ## Files -/

/-- An instance of `PermitRule`, with its properties in the order of `pairs`. -/
structure RuleInstance where
  id : Setting (Fin 3)
  rules : List (RuleField × Setting Text)

section File

variable (access : Fin 3 × RuleField → FileAccess)

/-- The part of `import_handle` for one instance. -/
def importRuleInstance (x : RuleInstance) : Prog RuleProfileErr (RuleSystem net) Unit :=
  onlyIf x.id.imported
    ((permitRuleAdapter access).importAll (x.rules.map fun y => ((x.id.value, y.1), y.2)))

/-- `on_import` of a file with login rules only. -/
def importRules (l : List RuleInstance) : Prog RuleProfileErr (RuleSystem net) Unit :=
  l.forM (importRuleInstance access)

variable (s : RuleSystem net) (order : Fin 3 → List RuleField)

/-- The instance of a rule, as a file has it. -/
def RuleSystem.exportInstance (i : Fin 3) : RuleInstance where
  id := ⟨true, i⟩
  rules := (order i).filterMap fun f =>
    ((permitRuleAdapter access).exports s (i, f)).map fun v => (f, ⟨true, v⟩)

/-- `on_export` of the login rules. -/
def RuleSystem.exportRules : List RuleInstance :=
  (List.finRange 3).map (s.exportInstance access order)

end File

/-! ## Importing a file of another controller -/

section Takes

variable {access : Fin 3 × RuleField → FileAccess} {s there : RuleSystem net}

/-- What is shown of a rule. -/
def RuleField.shown : RuleField → RuleObject → Text
  | .ipRuleInfo => RuleObject.ipRule
  | .macRuleInfo => RuleObject.macRule
  | .timeRuleInfo => RuleObject.timeRule

theorem exports_permitRuleAdapter (s : RuleSystem net) (i : Fin 3) (f : RuleField) :
  (permitRuleAdapter access).exports s (i, f)
    = some (f.shown (s.service.collection.rule i).object)
  := by
  rw [← LoginRuleManager.object_row]
  cases f <;> rfl

theorem imports_permitRuleAdapter (k : Fin 3 × RuleField) (value : Text) :
  (permitRuleAdapter access : Adapter (RuleSystem net) _ _ _).imports k value
    = LoginRuleProfile.importRule k.2.property (access k) k.1 value
  := by
  obtain ⟨i, f⟩ := k
  cases f <;> rfl

/-- What is shown of another rule can be set. -/
theorem LoginRuleManager.exists_setProperty (m there : LoginRuleManager net) (f : RuleField) :
  ∃ m', m.setProperty (f.property (f.shown there.object)) = .ok m'
  := by
  cases f with
  | ipRuleInfo => exact ⟨_, dif_pos there.mIpRule.valid⟩
  | macRuleInfo => exact ⟨_, dif_pos there.mMacRule.valid⟩
  | timeRuleInfo => exact ⟨_, dif_pos there.mTimeRule.valid⟩

theorem LoginRuleCollection.exists_setProperty (c : LoginRuleCollection net)
    (there : LoginRuleManager net) (i : Fin 3) (f : RuleField) :
  ∃ c', c.setProperty i (f.property (f.shown there.object)) = .ok c'
  := by
  obtain ⟨m, hm⟩ := (c.rule i).exists_setProperty there f
  unfold setProperty
  split
  next e he =>
    rw [hm] at he
    cases he
  next m' hm' => exact ⟨_, rfl⟩

/-- A rule that is accepted is set in the table and the file, and then in the object. -/
theorem exec_importRule {p : Text → RuleProperty} {a : FileAccess} (ha : a.Writes) {i : Fin 3}
    {value : Text} {c : LoginRuleCollection net}
    (hset : s.service.collection.setProperty i (p value) = .ok c) :
  exec (LoginRuleProfile.importRule p a i value) s
    = (.ok (), { s with service := ⟨c, c.getLines a.order⟩ }.updateRuleMdbTree i (p value))
  := by
  have hexec : exec (watchPropertyHook a i (p value)) s.service
      = (.ok (), ⟨c, c.getLines a.order⟩) := by
    rw [watchPropertyHook_eq_setRule, exec_setRule ha, hset]
  unfold LoginRuleProfile.importRule
  rw [exec_bind_ok (exec_get s), hexec]
  rfl

theorem RuleSystem.updateRuleMdbTree_frame (s : RuleSystem net) (i : Fin 3) (p : RuleProperty) :
  (s.updateRuleMdbTree i p).service = s.service ∧ (s.updateRuleMdbTree i p).cache = s.cache
  := by
  unfold updateRuleMdbTree
  split <;> exact ⟨rfl, rfl⟩

/-- The objects are again those of the table. -/
theorem RuleSystem.Published.import (h : s.Published) {i : Fin 3} {p : RuleProperty}
    {a : FileAccess} {c : LoginRuleCollection net}
    (hset : s.service.collection.setProperty i p = .ok c) :
  ({ s with service := ⟨c, c.getLines a.order⟩ }.updateRuleMdbTree i p).Published
  := by
  obtain ⟨hi, hother⟩ := LoginRuleCollection.setProperty_eq_ok hset
  unfold updateRuleMdbTree
  split
  next hnone =>
    refine ⟨fun j o ho => ?_, a.order, a.perm, rfl⟩
    have hj : j ≠ i := by
      rintro rfl
      change o ∈ s.objects j at ho
      rw [show s.objects j = none from hnone] at ho
      cases ho
    change o = (c.rule j).object
    rw [hother j hj]
    exact h.objects j o ho
  next o hsome =>
    refine ⟨fun j o' ho' => ?_, a.order, a.perm, rfl⟩
    change o' ∈ Function.update s.objects i (some (p.write o)) j at ho'
    change o' = (c.rule j).object
    by_cases hj : j = i
    · subst hj
      rw [Function.update_self] at ho'
      rw [hi, ← h.objects j o hsome]
      exact (Option.some.inj ho').symm
    · rw [Function.update_of_ne hj] at ho'
      rw [hother j hj]
      exact h.objects j o' ho'

theorem RuleField.shown_write (f g : RuleField) (value : Text) (o : RuleObject) :
  g.shown ((f.property value).write o) = if g = f then value else g.shown o
  := by
  cases f <;> cases g <;> rfl

theorem RuleField.enabled_write (f : RuleField) (value : Text) (o : RuleObject) :
  ((f.property value).write o).enabled = o.enabled
  := by
  cases f <;> rfl

/-- What an import keeps: the table is published, the rules are enabled as they were, and the cache
hears of the rest by signals. -/
structure RuleSystem.Imports (s₀ s : RuleSystem net) : Prop where
  published : s.Published
  enabled : ∀ i, (s.service.collection.rule i).object.enabled
    = (s₀.service.collection.rule i).object.enabled
  cache : s.cache = s₀.cache

theorem takes_permitRuleAdapter (haccess : ∀ k, (access k).Writes) {s₀ : RuleSystem net}
    (k : Fin 3 × RuleField) {value : Text}
    (hvalue : (permitRuleAdapter access).exports there k = some value) :
  (permitRuleAdapter access).Takes (RuleSystem.Imports s₀) k value
  := by
  obtain ⟨i, f⟩ := k
  rw [exports_permitRuleAdapter] at hvalue
  obtain rfl := Option.some.inj hvalue
  intro s hs _
  obtain ⟨c, hset⟩ := s.service.collection.exists_setProperty (there.service.collection.rule i) i f
  obtain ⟨hi, hother⟩ := LoginRuleCollection.setProperty_eq_ok hset
  obtain ⟨hservice, hcache⟩ := RuleSystem.updateRuleMdbTree_frame
    { s with service := ⟨c, c.getLines (access (i, f)).order⟩ } i
    (f.property (f.shown (there.service.collection.rule i).object))
  have hexec := exec_importRule (haccess (i, f)) hset
  refine ⟨_, (congrFun (congrArg exec (imports_permitRuleAdapter (i, f) _)) s).trans hexec, ?_, ?_⟩
  · refine ⟨hs.published.import hset, fun j => ?_, hcache.trans hs.cache⟩
    rw [hservice]
    change (c.rule j).object.enabled = _
    rw [← hs.enabled j]
    by_cases hj : j = i
    · subst hj
      rw [hi, RuleField.enabled_write]
    · rw [hother j hj]
  · funext k
    obtain ⟨j, g⟩ := k
    rw [exports_permitRuleAdapter, hservice]
    change some (g.shown (c.rule j).object) = _
    by_cases hj : j = i
    · subst hj
      rw [hi, RuleField.shown_write]
      by_cases hg : g = f
      · subst hg
        rw [if_pos rfl, Function.update_self]
      · have hk : (j, g) ≠ (j, f) := fun hk => hg (Prod.mk.inj hk).2
        rw [if_neg hg, Function.update_of_ne hk, exports_permitRuleAdapter]
    · have hk : (j, g) ≠ (i, f) := fun hk => hj (Prod.mk.inj hk).1
      rw [hother j hj, Function.update_of_ne hk, exports_permitRuleAdapter]

/-- The file is what the properties export, one rule after the other. -/
theorem exec_importRules (order : Fin 3 → List RuleField) :
  exec (importRules access (there.exportRules access order)) s
    = exec ((permitRuleAdapter access).importAll ((permitRuleAdapter access).exportAll there
      ((List.finRange 3).flatMap fun i => (order i).map fun f => (i, f)))) s
  := by
  have hentries : (permitRuleAdapter access).exportAll there
        ((List.finRange 3).flatMap fun i => (order i).map fun f => (i, f))
      = (List.finRange 3).flatMap fun i =>
        (there.exportInstance access order i).rules.map fun y => ((i, y.1), y.2) := by
    unfold Adapter.exportAll RuleSystem.exportInstance
    rw [List.filterMap_flatMap]
    congr 1
    funext i
    rw [List.filterMap_map, List.map_filterMap]
    congr 1
    funext f
    rw [Option.map_map]
    rfl
  rw [hentries, Adapter.importAll_flatMap]
  unfold importRules RuleSystem.exportRules
  rw [List.forM_eq_forM, List.forM_eq_forM, List.forM_map]
  rfl

/-- If the files can be written, then the file that another controller exports can be imported, in
whatever order it lists the properties. The rules are then those of the other controller, and they
are enabled as they were. The table is shown by the objects and written to the file, and the cache
is as it was. -/
theorem import_export_rules (haccess : ∀ k, (access k).Writes) (hs : s.Published)
    {order : Fin 3 → List RuleField} (horder : ∀ i f, f ∈ order i) (there : RuleSystem net) :
  ∃ s', exec (importRules access (there.exportRules access order)) s = (.ok (), s')
    ∧ s'.Published ∧ s'.cache = s.cache
    ∧ ∀ i, (s'.service.collection.rule i).object
      = { (there.service.collection.rule i).object with
          enabled := (s.service.collection.rule i).object.enabled }
  := by
  have htakes : ∀ k ∈ (List.finRange 3).flatMap fun i => (order i).map fun f => (i, f),
      ∀ v ∈ (permitRuleAdapter access).exports there k,
        (permitRuleAdapter access).Takes (RuleSystem.Imports s) k v :=
    fun k _ v hv => takes_permitRuleAdapter haccess k hv
  obtain ⟨s', hexec, himports, hexports⟩ :=
    Adapter.exec_importAll_exportAll htakes ⟨hs, fun _ => rfl, rfl⟩
  refine ⟨s', (exec_importRules order).trans hexec, himports.published, himports.cache, fun i => ?_⟩
  have hshown : ∀ f : RuleField, f.shown (s'.service.collection.rule i).object
      = f.shown (there.service.collection.rule i).object := by
    intro f
    have hk : (i, f) ∈ (List.finRange 3).flatMap fun i => (order i).map fun f => (i, f) :=
      List.mem_flatMap.mpr ⟨i, List.mem_finRange i, List.mem_map_of_mem (horder i f)⟩
    have hvalue := hexports (i, f)
    rw [if_pos hk, exports_permitRuleAdapter, exports_permitRuleAdapter, Option.some_or] at hvalue
    exact Option.some.inj hvalue
  have hip := hshown .ipRuleInfo
  have hmac := hshown .macRuleInfo
  have htime := hshown .timeRuleInfo
  have henabled := himports.enabled i
  revert hip hmac htime henabled
  generalize (s'.service.collection.rule i).object = o
  obtain ⟨enabled, ip, mac, time⟩ := o
  rintro rfl rfl rfl rfl
  rfl

end Takes

/-- A table whose rules have a time. -/
def timedTable : LoginRuleCollection sameNetworkCore where
  rule i :=
    { (LoginRuleManager.new sameNetworkCore (i + 1)) with
      mLoginRule := { ruleId := i + 1, timeRule := "08:00/18:00".toList }
      mTimeRule := ⟨"08:00/18:00".toList, by decide⟩
      ip_eq := rfl
      mac_eq := rfl
      time_eq := rfl }
  ruleId_eq _ := rfl

theorem import_export_rules_timedTable :
  ∃ s', exec (importRules (fun _ => openFile) ((RuleSystem.start timedTable [0, 1, 2]).exportRules
        (fun _ => openFile) fun _ => [.timeRuleInfo, .ipRuleInfo, .macRuleInfo]))
      (RuleSystem.start emptyTable [0, 1, 2]) = (.ok (), s')
    ∧ s'.Published ∧ s'.cache = (RuleSystem.start emptyTable [0, 1, 2]).cache
    ∧ ∀ i, (s'.service.collection.rule i).object
      = { (timedTable.rule i).object with enabled := (emptyTable.rule i).object.enabled }
  := import_export_rules (fun _ => by decide) (published_start emptyTable (by decide))
    (fun _ f => by cases f <;> decide) (RuleSystem.start timedTable [0, 1, 2])

end LoginRule

end BmcAccount
