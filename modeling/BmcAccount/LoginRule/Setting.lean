import BmcAccount.LoginRule.Agree
import BmcAccount.Lib.Raise

/-!
# Setting the login rules

The account service shows each login rule as an object on the bus. What is written to a property of
the object is set in the table of rules, which refuses what it cannot read, and the file of the
rules is written again. The file is written beside the old one and moved in its place; if it cannot
be opened then the property is not changed, although the table is.
-/

namespace BmcAccount

namespace LoginRule

open Fields Raise CheckLoginRule

/-! ## Objects -/

/-- What the object of a rule shows. -/
structure RuleObject where
  enabled : Bool
  ipRule : Text
  macRule : Text
  timeRule : Text
  deriving DecidableEq

/-- A property of the object, with a value. -/
inductive RuleProperty where
  | enabled (value : Bool)
  | ipRule (value : Text)
  | macRule (value : Text)
  | timeRule (value : Text)
  deriving DecidableEq

/-- The object with the value of the property. -/
def RuleProperty.write (p : RuleProperty) (o : RuleObject) : RuleObject :=
  match p with
  | .enabled value => { o with enabled := value }
  | .ipRule value => { o with ipRule := value }
  | .macRule value => { o with macRule := value }
  | .timeRule value => { o with timeRule := value }

/-- `create_rule_mdb_tree`, where `IpRule` goes before `Ipv6Rule`. -/
def Row.object (r : Row) : RuleObject where
  enabled := r.enabled
  ipRule := if r.ipRule ≠ [] then r.ipRule else r.ipv6Rule
  macRule := r.macRule
  timeRule := r.timeRule

section Manager

variable {net : NetworkCore}

/-- The rules of a manager, as they are checked. -/
def LoginRuleManager.object (m : LoginRuleManager net) : RuleObject where
  enabled := m.mLoginRule.enabled
  ipRule := m.mIpRule.rule
  macRule := m.mMacRule.rule
  timeRule := m.mTimeRule.rule

/-- The object that is created of a row shows the rules that are checked. -/
theorem LoginRuleManager.object_row (m : LoginRuleManager net) :
  m.mLoginRule.object = m.object
  := by
  have hchosen := chosenIpRule_infoOf m
  unfold chosenIpRule infoOf at hchosen
  simp only [List.length_eq_zero_iff] at hchosen
  have hip : (if m.mLoginRule.ipRule ≠ [] then m.mLoginRule.ipRule else m.mLoginRule.ipv6Rule)
      = m.mIpRule.rule := by
    rw [← hchosen]
    by_cases h4 : m.mLoginRule.ipRule = []
    · by_cases h6 : m.mLoginRule.ipv6Rule = [] <;> simp [h4, h6]
    · simp [h4]
  unfold Row.object LoginRuleManager.object
  rw [hip, m.mac_eq, m.time_eq]

/-- What is set of a manager. -/
def LoginRuleManager.setProperty (m : LoginRuleManager net) :
    RuleProperty → Except FormatError (LoginRuleManager net)
  | .enabled value => .ok (m.setEnabled value)
  | .ipRule value => m.setIpRule value
  | .macRule value => m.setMacRule value
  | .timeRule value => m.setTimeRule value

theorem LoginRuleManager.setProperty_eq_ok {m m' : LoginRuleManager net} {p : RuleProperty}
    (h : m.setProperty p = .ok m') :
  m'.object = p.write m.object ∧ m'.mLoginRule.ruleId = m.mLoginRule.ruleId
  := by
  cases p with
  | enabled value =>
    cases h
    exact ⟨rfl, rfl⟩
  | ipRule value =>
    change (if h : IpRule.checkFormat net value = true then Except.ok _ else .error _) = _ at h
    split at h
    · cases h
      exact ⟨rfl, rfl⟩
    · cases h
  | macRule value =>
    change (if h : MacRule.checkFormat value = true then Except.ok _ else .error _) = _ at h
    split at h
    · cases h
      exact ⟨rfl, rfl⟩
    · cases h
  | timeRule value =>
    change (if h : TimeRule.checkFormat value = true then Except.ok _ else .error _) = _ at h
    split at h
    · cases h
      exact ⟨rfl, rfl⟩
    · cases h

end Manager

/-! ## The table and its file -/

/-- `PropertyValueFormatError`, or `InternalError`. -/
inductive RuleErr where
  | format (e : FormatError)
  | internal
  deriving DecidableEq

/-- What writing the file meets: whether the file and the one beside it can be opened and moved, and
the order of `pairs`. -/
structure FileAccess where
  opens : Bool
  opensTmp : Bool
  moves : Bool
  order : List (Fin 3)
  perm : order.Perm (List.finRange 3)
  deriving DecidableEq

/-- The table of rules, and the file of them. -/
structure RuleService (net : NetworkCore) where
  collection : LoginRuleCollection net
  file : Text

section Service

variable {net : NetworkCore}

/-- The table with what is set of one rule. -/
def LoginRuleCollection.setProperty (c : LoginRuleCollection net) (i : Fin 3) (p : RuleProperty) :
    Except FormatError (LoginRuleCollection net) :=
  match h : (c.rule i).setProperty p with
  | .error e => .error e
  | .ok m => .ok {
      rule := Function.update c.rule i m
      ruleId_eq := fun j => by
        by_cases hj : j = i
        · subst hj
          rw [Function.update_self, (LoginRuleManager.setProperty_eq_ok h).2]
          exact c.ruleId_eq j
        · rw [Function.update_of_ne hj]
          exact c.ruleId_eq j }

theorem LoginRuleCollection.setProperty_eq_ok {c c' : LoginRuleCollection net} {i : Fin 3}
    {p : RuleProperty} (h : c.setProperty i p = .ok c') :
  (c'.rule i).object = p.write (c.rule i).object ∧ ∀ j, j ≠ i → c'.rule j = c.rule j
  := by
  unfold LoginRuleCollection.setProperty at h
  split at h
  · cases h
  next m hm =>
    obtain rfl := Except.ok.inj h
    refine ⟨?_, fun j hj => Function.update_of_ne hj ..⟩
    change (Function.update c.rule i m i).object = _
    rw [Function.update_self]
    exact (LoginRuleManager.setProperty_eq_ok hm).1

/-- `flush_loginrules_file`. -/
def flushLoginrulesFile (a : FileAccess) : Prog RuleErr (RuleService net) Unit := do
  refuse (!a.opens) .internal
  let s ← get
  onlyIf (s.file ≠ s.collection.getLines a.order) (do
    refuse (!a.opensTmp) .internal
    onlyIf a.moves (modify fun s => { s with file := s.collection.getLines a.order }))

/-- What the functions that set a rule have in common. -/
def setRule (a : FileAccess) (i : Fin 3) (p : RuleProperty) :
    Prog RuleErr (RuleService net) Unit := do
  let s ← get
  let c ← outcome ((s.collection.setProperty i p).mapError .format)
  modify fun s => { s with collection := c }
  flushLoginrulesFile a

/-- `LoginRuleCollection:set_enable`. -/
def setEnable (a : FileAccess) (i : Fin 3) (enable : Bool) : Prog RuleErr (RuleService net) Unit :=
  setRule a i (.enabled enable)

/-- `LoginRuleCollection:set_ip_rule`. -/
def setIpRule (a : FileAccess) (i : Fin 3) (rule : Text) : Prog RuleErr (RuleService net) Unit :=
  setRule a i (.ipRule rule)

/-- `LoginRuleCollection:set_mac_rule`. -/
def setMacRule (a : FileAccess) (i : Fin 3) (rule : Text) : Prog RuleErr (RuleService net) Unit :=
  setRule a i (.macRule rule)

/-- `LoginRuleCollection:set_time_rule`. -/
def setTimeRule (a : FileAccess) (i : Fin 3) (rule : Text) : Prog RuleErr (RuleService net) Unit :=
  setRule a i (.timeRule rule)

/-- `watch_property_hook`. -/
def watchPropertyHook (a : FileAccess) (i : Fin 3) :
    RuleProperty → Prog RuleErr (RuleService net) Unit
  | .enabled value => setEnable a i value
  | .ipRule value => setIpRule a i value
  | .macRule value => setMacRule a i value
  | .timeRule value => setTimeRule a i value

theorem watchPropertyHook_eq_setRule (a : FileAccess) (i : Fin 3) (p : RuleProperty) :
  (watchPropertyHook a i p : Prog RuleErr (RuleService net) Unit) = setRule a i p
  := by
  cases p <;> rfl

/-- The file is that of the table. -/
def RuleService.Written (s : RuleService net) : Prop :=
  ∃ order : List (Fin 3), order.Perm (List.finRange 3) ∧ s.file = s.collection.getLines order

/-- The file can be written. -/
def FileAccess.Writes (a : FileAccess) : Prop := a.opens = true ∧ a.opensTmp = true ∧ a.moves = true

/-- Where the file can be written, it becomes that of the table. -/
theorem exec_flushLoginrulesFile {a : FileAccess} (ha : a.Writes) (s : RuleService net) :
  exec (flushLoginrulesFile a) s = (.ok (), { s with file := s.collection.getLines a.order })
  := by
  obtain ⟨hopens, hopensTmp, hmoves⟩ := ha
  unfold flushLoginrulesFile
  rw [hopens, hopensTmp, hmoves, Bool.not_true, exec_bind_ok (exec_refuse_false _ s),
    exec_bind_ok (exec_get s)]
  by_cases hsame : s.file = s.collection.getLines a.order
  · rw [← hsame, decide_eq_false (not_not.mpr rfl), exec_onlyIf_false]
  · rw [decide_eq_true hsame]
    change exec (refuse false .internal >>= fun _ => modify fun s =>
      { s with file := s.collection.getLines a.order }) s = _
    rw [exec_bind_ok (exec_refuse_false _ s), exec_modify]

/-- A write sets the table and the file, or is refused and changes neither. -/
theorem exec_setRule {a : FileAccess} (ha : a.Writes) (s : RuleService net) (i : Fin 3)
    (p : RuleProperty) :
  exec (setRule a i p) s =
    match s.collection.setProperty i p with
    | .error e => (.error (.format e), s)
    | .ok c => (.ok (), ⟨c, c.getLines a.order⟩)
  := by
  unfold setRule
  rw [exec_bind_ok (exec_get s)]
  cases s.collection.setProperty i p with
  | error e => rfl
  | ok c => exact exec_flushLoginrulesFile ha { s with collection := c }

end Service

end LoginRule

end BmcAccount
