import BmcAccount.Account.Types
import BmcAccount.Lib.LuaTable
import BmcAccount.Lib.Raise
import BmcAccount.Lib.Run

/-!
# The inner sessions of Redfish

Besides its ordinary sessions Redfish has inner ones, at most one for each type. They are kept
in a table under the values of the types, `0` for the HMM and `1` for the BMA, and handled as
an array: its length is `1` or `0`, and says whether there is a session of the BMA.

The session of the HMM is out of the reach of what works with the length. It does not age, it
is not deleted together with all the others when it is alone, and it cannot be deleted while
there is a session of the BMA. `Sound` says when an operation does what it should all the same.
-/

namespace BmcAccount

namespace Redfish

open Raise

/-! ## Sessions -/

/-- `RedfishInnerSessionType`. -/
inductive InnerType where
  | hmm
  | bma
deriving DecidableEq

/-- The value of a type, which is its key. -/
def InnerType.key : InnerType → ℕ
  | .hmm => 0
  | .bma => 1

/-- A session. An inner session has its type where the others have that of the browser. -/
structure Session where
  sessionId : String
  username : String
  ip : String
  authType : ℕ
  browserType : ℕ
  roleId : ℕ
  privilege : List PrivilegeType
  createdTime : ℤ
  lastActiveTime : ℕ
  systemId : ℕ
deriving DecidableEq

/-- `m_inner_session_collection`. -/
@[ext]
structure InnerCollection where
  hmm : Option Session
  bma : Option Session
deriving DecidableEq

namespace InnerCollection

/-- The session of a type. -/
def get (c : InnerCollection) : InnerType → Option Session
  | .hmm => c.hmm
  | .bma => c.bma

/-- The collection with another entry for a type. -/
def put (c : InnerCollection) (t : InnerType) (x : Option Session) : InnerCollection :=
  match t with
  | .hmm => { c with hmm := x }
  | .bma => { c with bma := x }

/-- The collection as a table of Lua. -/
def toTable (c : InnerCollection) (k : ℕ) : Option Session :=
  if k = 0 then c.hmm else if k = 1 then c.bma else none

/-- The collection that a table of Lua is. -/
def ofTable (t : ℕ → Option Session) : InnerCollection := ⟨t 0, t 1⟩

/-- The length of the table. -/
def length (c : InnerCollection) : ℕ := if c.bma.isSome then 1 else 0

/-- `table.remove` at the key of a type. -/
def removeAt (c : InnerCollection) (t : InnerType) : Option InnerCollection :=
  (LuaTable.remove c.toTable c.length t.key).map ofTable

/-- The types that a loop from the length down to `1` comes to. -/
def counted (c : InnerCollection) : List InnerType :=
  [.bma, .hmm].filter fun t => 1 ≤ t.key && t.key ≤ c.length

@[ext]
theorem ext_get {c c' : InnerCollection} (h : ∀ t, c.get t = c'.get t) :
  c = c'
  := InnerCollection.ext (h .hmm) (h .bma)

@[simp]
theorem get_put (c : InnerCollection) (t : InnerType) (x : Option Session) :
  (c.put t x).get t = x
  := by
  cases t <;> rfl

theorem get_put_ne (c : InnerCollection) {t t' : InnerType} (x : Option Session) (h : t' ≠ t) :
  (c.put t x).get t' = c.get t'
  := by
  cases t <;> cases t' <;> first | rfl | exact absurd rfl h

/-- There is only one border. -/
theorem isBorder_iff (c : InnerCollection) (n : ℕ) :
  LuaTable.IsBorder c.toTable n ↔ n = c.length
  := by
  have htwo (k : ℕ) : c.toTable (k + 2) = none := rfl
  unfold LuaTable.IsBorder length
  cases hb : c.bma with
  | none =>
    rcases n with - | - | n <;> simp [toTable, hb]
  | some x =>
    rcases n with - | - | n <;> simp [toTable, hb]

theorem removeAt_hmm (c : InnerCollection) :
  c.removeAt .hmm = if c.bma.isSome then none else some (c.put .hmm none)
  := by
  unfold removeAt length
  cases hb : c.bma with
  | none =>
    change (LuaTable.remove c.toTable 0 0).map ofTable = some ⟨none, c.bma⟩
    rw [LuaTable.remove_length]
    rfl
  | some x =>
    change (LuaTable.remove c.toTable 1 0).map ofTable = none
    rw [LuaTable.remove_zero _ Nat.one_pos]
    rfl

theorem removeAt_bma (c : InnerCollection) :
  c.removeAt .bma = some (c.put .bma none)
  := by
  unfold removeAt length
  cases hb : c.bma with
  | none =>
    change (LuaTable.remove c.toTable 0 (0 + 1)).map ofTable = some ⟨c.hmm, none⟩
    rw [LuaTable.remove_succ_length]
    rfl
  | some x =>
    change (LuaTable.remove c.toTable 1 1).map ofTable = some ⟨c.hmm, none⟩
    rw [LuaTable.remove_length]
    rfl

end InnerCollection

/-! ## The session type -/

/-- The errors. -/
inductive SessionErr where
  | noValidSession
  | positionOutOfBounds
  | indexNil
deriving DecidableEq

/-- The state of `RedfishSession`: the ordinary sessions, the inner ones, and `SessionTimeout`
of its configuration. -/
structure State where
  sessionCollection : List Session
  inner : InnerCollection
  sessionTimeout : ℕ
deriving DecidableEq

/-- A program of the session type. -/
abbrev SessionM (α : Type) : Type := Prog SessionErr State α

/-- The order in which `pairs` comes to the inner sessions; the language does not say which. -/
inductive PairsOrder where
  | hmmFirst
  | bmaFirst
deriving DecidableEq

/-- The types in order. -/
def PairsOrder.types : PairsOrder → List InnerType
  | .hmmFirst => [.hmm, .bma]
  | .bmaFirst => [.bma, .hmm]

/-- Where a session is found. -/
inductive Place where
  | ordinary (index : ℕ)
  | inner (t : InnerType)
deriving DecidableEq

/-- What a request for an inner session has: the account, the session, and the time. -/
structure InnerRequest where
  username : String
  ip : String
  authType : ℕ
  roleId : ℕ
  now : ℤ

/-- `create_inner_session`; `rolePrivilege` has the roles of the cache, and `sessionId` is the
identifier that is generated. -/
def createInnerSession (rolePrivilege : ℕ → Option (List PrivilegeType)) (r : InnerRequest)
    (t : InnerType) (sessionId : String) : SessionM Unit := do
  let s ← get
  match s.inner.get t with
  | some x => do
    modify fun s => { s with inner := s.inner.put t (some { x with
      authType := r.authType, roleId := r.roleId }) }
    match rolePrivilege r.roleId with
    | none => throw .indexNil
    | some privilege =>
      modify fun s => { s with inner := s.inner.put t (some { x with
        authType := r.authType
        roleId := r.roleId
        privilege := privilege
        createdTime := r.now }) }
  | none =>
    match rolePrivilege r.roleId with
    | none => throw .indexNil
    | some privilege =>
      modify fun s => { s with inner := s.inner.put t (some {
        sessionId := sessionId
        username := r.username
        ip := r.ip
        authType := r.authType
        browserType := t.key
        roleId := r.roleId
        privilege := privilege
        createdTime := r.now
        lastActiveTime := 0
        systemId := 0 }) }

/-- Five seconds more without activity. -/
def Session.age (x : Session) : Session :=
  { x with lastActiveTime := x.lastActiveTime + 5 }

/-- `get_timeout_session_list`. -/
def getTimeoutSessionList (absoluteTimeout now : ℤ) : SessionM (List Session) := do
  let s ← get
  let inner := s.inner.counted.foldl (fun c t => c.put t ((c.get t).map Session.age)) s.inner
  let sessions := s.sessionCollection.map Session.age
  set { s with inner := inner, sessionCollection := sessions }
  pure ((s.inner.counted.filterMap inner.get).filter (fun x => 3600 < x.lastActiveTime)
    ++ sessions.reverse.filter fun x =>
      (s.sessionTimeout ≠ 0 && s.sessionTimeout ≤ x.lastActiveTime)
        || (absoluteTimeout ≠ 0 && x.createdTime < now - absoluteTimeout))

/-- `validate_session`, for the inner session of a type. -/
def validateInner (t : InnerType) : SessionM Unit :=
  modify fun s => { s with inner := s.inner.put t ((s.inner.get t).map fun x =>
    { x with lastActiveTime := 0 }) }

/-- `get_session_by_session_id`. -/
def State.getSessionBySessionId (s : State) (order : PairsOrder) (sessionId : String) :
    Option Place :=
  match s.sessionCollection.findIdx? fun x => x.sessionId = sessionId with
  | some i => some (.ordinary i)
  | none => (order.types.find? fun t =>
      (s.inner.get t).any fun x => x.sessionId = sessionId).map .inner

/-- `delete`. -/
def delete (order : PairsOrder) (sessionId : String) : SessionM Unit := do
  let s ← get
  match s.getSessionBySessionId order sessionId with
  | none => throw .noValidSession
  | some (.ordinary i) =>
    modify fun s => { s with sessionCollection := s.sessionCollection.eraseIdx i }
  | some (.inner t) =>
    match s.inner.removeAt t with
    | none => throw .positionOutOfBounds
    | some c => modify fun s => { s with inner := c }

/-- What a loop does with the session of a type, if it is there when the loop comes to it. -/
def visitInner (f : InnerType → Session → SessionM Unit) (t : InnerType) : SessionM Unit := do
  let s ← get
  match s.inner.get t with
  | none => pure ()
  | some x => f t x

/-- A loop over the inner sessions with `pairs`. -/
def forInner (order : PairsOrder) (f : InnerType → Session → SessionM Unit) : SessionM Unit :=
  order.types.forM (visitInner f)

/-- `delete_all_inner_session`. -/
def deleteAllInnerSession (order : PairsOrder) : SessionM Unit := do
  let s ← get
  onlyIf (s.inner.length != 0) (forInner order fun _ x => delete order x.sessionId)

/-- The values of `RoleType`, by name. -/
def roleTypes : List (String × ℕ) :=
  [("NoAccess", 0), ("CommonUser", 2), ("Operator", 3), ("Administrator", 4),
    ("CustomRole1", 5), ("CustomRole2", 6), ("CustomRole3", 7), ("CustomRole4", 8),
    ("CustomRole5", 9), ("CustomRole6", 10), ("CustomRole7", 11), ("CustomRole8", 12),
    ("CustomRole9", 13), ("CustomRole10", 14), ("CustomRole11", 15), ("CustomRole12", 16),
    ("CustomRole13", 17), ("CustomRole14", 18), ("CustomRole15", 19), ("CustomRole16", 20)]

/-- The names of the roles of the two channels. -/
structure ChanRoles where
  sms : Option String
  icmb : Option String

/-- The name of the role of the channel of a type. -/
def ChanRoles.name (tab : ChanRoles) : InnerType → Option String
  | .bma => tab.sms
  | .hmm => tab.icmb

/-- The value of the role of the channel of a type, if the role has one. -/
def ChanRoles.role (tab : ChanRoles) (t : InnerType) : Option ℕ := do
  let name ← tab.name t
  roleTypes.lookup (if name = "User" then "CommonUser" else name)

/-- A session is deleted if its role exceeds that of its channel. -/
def kickHighPriv (order : PairsOrder) (tab : ChanRoles) (t : InnerType) (x : Session) :
    SessionM Unit :=
  match tab.role t with
  | none => throw .indexNil
  | some role => onlyIf (role < x.roleId) (delete order x.sessionId)

/-- `delete_high_priv_inner_session`. -/
def deleteHighPrivInnerSession (order : PairsOrder) (tab : ChanRoles) : SessionM Unit :=
  forInner order (kickHighPriv order tab)

/-! ## Runs -/

/-- The operations on the inner sessions. -/
inductive Op where
  | createInnerSession (r : InnerRequest) (t : InnerType) (sessionId : String)
  | getTimeoutSessionList (absoluteTimeout now : ℤ)
  | validateInner (t : InnerType)
  | delete (order : PairsOrder) (sessionId : String)
  | deleteAllInnerSession (order : PairsOrder)
  | deleteHighPrivInnerSession (order : PairsOrder) (tab : ChanRoles)

/-- The state after an operation, whether it returns or raises. -/
def State.after (rolePrivilege : ℕ → Option (List PrivilegeType)) (s : State) : Op → State
  | .createInnerSession r t id => Raise.after (Redfish.createInnerSession rolePrivilege r t id) s
  | .getTimeoutSessionList absolute now =>
      Raise.after (Redfish.getTimeoutSessionList absolute now) s
  | .validateInner t => Raise.after (Redfish.validateInner t) s
  | .delete order id => Raise.after (Redfish.delete order id) s
  | .deleteAllInnerSession order => Raise.after (Redfish.deleteAllInnerSession order) s
  | .deleteHighPrivInnerSession order tab =>
      Raise.after (Redfish.deleteHighPrivInnerSession order tab) s

/-- The state, and for how many seconds the inner session of each type has been idle: five for
each pass of the monitor since it was created or used. -/
structure Watch where
  state : State
  idle : InnerType → ℕ

/-- One operation. -/
def Watch.step (rolePrivilege : ℕ → Option (List PrivilegeType)) (w : Watch) (op : Op) :
    Watch where
  state := w.state.after rolePrivilege op
  idle := match op with
    | .createInnerSession _ t _ =>
        if (w.state.inner.get t).isSome then w.idle else Function.update w.idle t 0
    | .getTimeoutSessionList _ _ => fun t => w.idle t + 5
    | .validateInner t => Function.update w.idle t 0
    | _ => w.idle

/-- No inner session is there yet. -/
def Watch.start (sessions : List Session) (sessionTimeout : ℕ) : Watch where
  state := ⟨sessions, ⟨none, none⟩, sessionTimeout⟩
  idle := fun _ => 0

/-- The identifier that is generated for a session is not that of another one. -/
def Watch.Fresh (w : Watch) : Op → Prop
  | .createInnerSession _ _ id =>
      (∀ x ∈ w.state.sessionCollection, x.sessionId ≠ id)
        ∧ ∀ t x, w.state.inner.get t = some x → x.sessionId ≠ id
  | _ => True

/-- Every inner session is under the key of its own type, and is the only one of the type. -/
def State.OnePerType (s : State) : Prop :=
  (∀ t x, s.inner.get t = some x → x.browserType = t.key)
    ∧ ∀ t t' x x', s.inner.get t = some x → s.inner.get t' = some x' →
      x.browserType = x'.browserType → x = x'

/-- The role of the session of a type exceeds the role of its channel. -/
def State.Exceeds (s : State) (tab : ChanRoles) (t : InnerType) : Prop :=
  ∃ x ∈ s.inner.get t, ∃ role ∈ tab.role t, role < x.roleId

instance (s : State) (tab : ChanRoles) (t : InnerType) : Decidable (s.Exceeds tab t) :=
  inferInstanceAs (Decidable (∃ x ∈ s.inner.get t, ∃ role ∈ tab.role t, role < x.roleId))

/-- What an operation is to do with the inner sessions. -/
def Watch.Does (w : Watch) : Op → Prop
  | .createInnerSession _ _ _ => True
  | .getTimeoutSessionList absolute now =>
      ∃ l s', exec (getTimeoutSessionList absolute now) w.state = (.ok l, s') ∧
        ∀ t x, w.state.inner.get t = some x → 3600 < w.idle t + 5 →
          ∃ y ∈ l, y.sessionId = x.sessionId
  | .validateInner _ => True
  | .delete order id =>
      ∀ t x, w.state.inner.get t = some x → x.sessionId = id →
        exec (delete order id) w.state
          = (.ok (), { w.state with inner := w.state.inner.put t none })
  | .deleteAllInnerSession order =>
      ∀ t, (Raise.after (deleteAllInnerSession order) w.state).inner.get t = none
  | .deleteHighPrivInnerSession order tab =>
      ∀ t, (Raise.after (deleteHighPrivInnerSession order tab) w.state).inner.get t =
        if w.state.Exceeds tab t then none else w.state.inner.get t

/-- When an operation does what it is to do: nothing is asked for the session of the HMM while
the session of the BMA is in its way, or while the session of the HMM is to be reached through
the length of the table. -/
def Watch.Sound (w : Watch) : Op → Prop
  | .createInnerSession _ _ _ => True
  | .getTimeoutSessionList _ _ => w.state.inner.hmm.isSome → w.idle .hmm + 5 ≤ 3600
  | .validateInner _ => True
  | .delete _ id =>
      (∃ x ∈ w.state.inner.hmm, x.sessionId = id) → w.state.inner.bma = none
  | .deleteAllInnerSession order =>
      w.state.inner.hmm.isSome → w.state.inner.bma.isSome ∧ order = .bmaFirst
  | .deleteHighPrivInnerSession order tab =>
      (w.state.Exceeds tab .hmm →
        w.state.inner.bma = none ∨ (order = .bmaFirst ∧ w.state.Exceeds tab .bma))
      ∧ (w.state.Exceeds tab .bma →
        w.state.inner.hmm = none ∨ order = .bmaFirst ∨ (tab.role .hmm).isSome)

/-! ## What the operations leave -/

/-- No two inner sessions have the same identifier, and no ordinary session has the identifier
of an inner one. -/
structure State.Distinct (s : State) : Prop where
  ordinary : ∀ t x, s.inner.get t = some x → ∀ y ∈ s.sessionCollection, y.sessionId ≠ x.sessionId
  inner : ∀ t t' x y, s.inner.get t = some x → s.inner.get t' = some y → t ≠ t' →
    x.sessionId ≠ y.sessionId

/-- Sessions have only been deleted. -/
structure State.Sub (s s' : State) : Prop where
  ordinary : ∀ x ∈ s'.sessionCollection, x ∈ s.sessionCollection
  inner : ∀ t x, s'.inner.get t = some x → s.inner.get t = some x

theorem State.Sub.refl (s : State) :
  s.Sub s
  := ⟨fun _ h => h, fun _ _ h => h⟩

theorem State.Sub.put_none {s s' : State} (h : s.Sub s') (t : InnerType) :
  s.Sub { s' with inner := s'.inner.put t none }
  := by
  refine ⟨h.ordinary, fun t' x hx => h.inner t' x ?_⟩
  by_cases ht : t' = t
  · subst ht
    simp at hx
  · rwa [InnerCollection.get_put_ne _ _ ht] at hx

/-- Removing at the key of a type clears its entry, where it does not raise. -/
theorem InnerCollection.removeAt_eq (c : InnerCollection) (t : InnerType) :
  c.removeAt t = if t = .hmm ∧ c.bma.isSome then none else some (c.put t none)
  := by
  cases t with
  | hmm =>
    rw [removeAt_hmm]
    simp
  | bma =>
    rw [removeAt_bma]
    simp

/-- An inner session is found under its type. -/
theorem State.Distinct.getSessionBySessionId {s : State} (h : s.Distinct) (order : PairsOrder)
    {t : InnerType} {x : Session} (hx : s.inner.get t = some x) :
  s.getSessionBySessionId order x.sessionId = some (.inner t)
  := by
  have hnone : s.sessionCollection.findIdx? (fun y => y.sessionId = x.sessionId) = none := by
    rw [List.findIdx?_eq_none_iff]
    exact fun y hy => decide_eq_false (h.ordinary t x hx y hy)
  have hother (t' : InnerType) (ht : t' ≠ t) :
      ((s.inner.get t').any fun y => y.sessionId = x.sessionId) = false := by
    cases hy : s.inner.get t' with
    | none => rfl
    | some y => exact decide_eq_false (h.inner t' t y x hy hx ht)
  have hself : ((s.inner.get t).any fun y => y.sessionId = x.sessionId) = true := by
    rw [hx]
    exact decide_eq_true rfl
  unfold State.getSessionBySessionId
  rw [hnone]
  cases t with
  | hmm =>
    have hbma := hother .bma (by decide)
    cases order <;> simp [PairsOrder.types, hself, hbma]
  | bma =>
    have hhmm := hother .hmm (by decide)
    cases order <;> simp [PairsOrder.types, hself, hhmm]

/-- An inner session is deleted, unless it is that of the HMM and there is one of the BMA. -/
theorem State.Distinct.exec_delete {s : State} (h : s.Distinct) (order : PairsOrder)
    {t : InnerType} {x : Session} (hx : s.inner.get t = some x) :
  exec (delete order x.sessionId) s =
    if t = .hmm ∧ s.inner.bma.isSome then (.error .positionOutOfBounds, s)
    else (.ok (), { s with inner := s.inner.put t none })
  := by
  unfold delete
  rw [exec_bind_ok (exec_get s), h.getSessionBySessionId order hx]
  simp only [InnerCollection.removeAt_eq]
  by_cases hblocked : t = .hmm ∧ s.inner.bma.isSome
  · simp only [if_pos hblocked]
    rfl
  · simp only [if_neg hblocked]
    rfl

theorem delete_keeps_sub (s : State) (order : PairsOrder) (sessionId : String) :
  Keeps s.Sub (delete order sessionId)
  := by
  intro s' h
  unfold delete
  rw [exec_bind_ok (exec_get s')]
  cases s'.getSessionBySessionId order sessionId with
  | none => exact h
  | some place =>
    cases place with
    | ordinary i =>
      exact ⟨fun x hx => h.ordinary x (List.mem_of_mem_eraseIdx hx), h.inner⟩
    | inner t =>
      simp only [InnerCollection.removeAt_eq]
      by_cases hblocked : t = .hmm ∧ s'.inner.bma.isSome
      · simp only [if_pos hblocked]
        exact h
      · simp only [if_neg hblocked]
        exact h.put_none t

theorem forInner_keeps_sub (s : State) (order : PairsOrder)
    {f : InnerType → Session → SessionM Unit} (hf : ∀ t x, Keeps s.Sub (f t x)) :
  Keeps s.Sub (forInner order f)
  := by
  unfold forInner
  apply Keeps.forM
  intro t _
  unfold visitInner
  apply Keeps.bind Keeps.get
  intro s'
  cases s'.inner.get t with
  | none => exact Keeps.pure
  | some x => exact hf t x

theorem deleteAllInnerSession_keeps_sub (s : State) (order : PairsOrder) :
  Keeps s.Sub (deleteAllInnerSession order)
  := by
  unfold deleteAllInnerSession
  apply Keeps.bind Keeps.get
  intro s'
  apply Keeps.onlyIf
  exact forInner_keeps_sub s order fun _ x => delete_keeps_sub s order x.sessionId

theorem deleteHighPrivInnerSession_keeps_sub (s : State) (order : PairsOrder) (tab : ChanRoles) :
  Keeps s.Sub (deleteHighPrivInnerSession order tab)
  := by
  unfold deleteHighPrivInnerSession
  apply forInner_keeps_sub
  intro t x
  unfold kickHighPriv
  cases tab.role t with
  | none => exact Keeps.throw
  | some role => exact Keeps.onlyIf (delete_keeps_sub s order x.sessionId)

/-- Creating a session changes what is under its type: it updates the session there, whose
identifier and activity stay, or enters a new one. -/
theorem after_createInnerSession (rolePrivilege : ℕ → Option (List PrivilegeType))
    (r : InnerRequest) (t : InnerType) (id : String) (s : State) :
  ∃ y, after (createInnerSession rolePrivilege r t id) s
      = { s with inner := s.inner.put t y } ∧
    ∀ z ∈ y, (∃ x ∈ s.inner.get t, z.sessionId = x.sessionId ∧ z.browserType = x.browserType
        ∧ z.lastActiveTime = x.lastActiveTime)
      ∨ (s.inner.get t = none ∧ z.sessionId = id ∧ z.browserType = t.key
        ∧ z.lastActiveTime = 0)
  := by
  unfold createInnerSession after
  rw [exec_bind_ok (exec_get s)]
  cases hx : s.inner.get t with
  | some x =>
    simp only
    rw [exec_bind_ok (exec_modify _ s)]
    cases rolePrivilege r.roleId with
    | none =>
      refine ⟨_, rfl, fun z hz => Or.inl ⟨x, rfl, ?_⟩⟩
      obtain rfl := Option.some.inj hz
      exact ⟨rfl, rfl, rfl⟩
    | some privilege =>
      refine ⟨some { x with
        authType := r.authType
        roleId := r.roleId
        privilege := privilege
        createdTime := r.now }, ?_, fun z hz => Or.inl ⟨x, rfl, ?_⟩⟩
      · cases t <;> rfl
      · obtain rfl := Option.some.inj hz
        exact ⟨rfl, rfl, rfl⟩
  | none =>
    simp only
    cases rolePrivilege r.roleId with
    | none =>
      refine ⟨none, ?_, fun z hz => by simp at hz⟩
      change s = _
      rw [← hx]
      cases t <;> rfl
    | some privilege =>
      refine ⟨_, rfl, fun z hz => Or.inr ⟨trivial, ?_⟩⟩
      obtain rfl := Option.some.inj hz
      exact ⟨rfl, rfl, rfl⟩

/-- The monitor comes to the session of the BMA only. -/
theorem exec_getTimeoutSessionList (absolute now : ℤ) (s : State) :
  ∃ l, exec (getTimeoutSessionList absolute now) s = (.ok l, { s with
      inner := { s.inner with bma := s.inner.bma.map Session.age }
      sessionCollection := s.sessionCollection.map Session.age }) ∧
    (∀ x, s.inner.bma = some x → 3600 < x.lastActiveTime + 5 → x.age ∈ l) ∧
    ∀ y ∈ l, (∃ x, s.inner.bma = some x ∧ y = x.age) ∨ ∃ x ∈ s.sessionCollection, y = x.age
  := by
  unfold getTimeoutSessionList
  rw [exec_bind_ok (exec_get s)]
  have hcounted : s.inner.counted = if s.inner.bma.isSome then [.bma] else [] := by
    unfold InnerCollection.counted InnerCollection.length
    cases s.inner.bma <;> rfl
  have haged : s.inner.counted.foldl (fun c t => c.put t ((c.get t).map Session.age)) s.inner
      = { s.inner with bma := s.inner.bma.map Session.age } := by
    rw [hcounted]
    cases hb : s.inner.bma with
    | none =>
      ext t
      cases t <;> simp [InnerCollection.get, hb]
    | some x => simp [InnerCollection.put, InnerCollection.get, hb]
  simp only [haged]
  refine ⟨_, rfl, ?_, ?_⟩
  · intro x hx htime
    apply List.mem_append_left
    rw [hcounted, hx]
    simpa [InnerCollection.get, Session.age] using htime
  · intro y hy
    obtain hy | hy := List.mem_append.mp hy
    · left
      rw [hcounted] at hy
      cases hb : s.inner.bma with
      | none => simp [hb] at hy
      | some x =>
        rw [hb] at hy
        have hy' := List.mem_of_mem_filter hy
        refine ⟨x, rfl, ?_⟩
        simpa [InnerCollection.get] using hy'
    · right
      have hy' := List.mem_reverse.mp (List.mem_of_mem_filter hy)
      obtain ⟨x, hx, rfl⟩ := List.mem_map.mp hy'
      exact ⟨x, hx, rfl⟩

/-! ## The invariant -/

/-- Every session comes from one with the same identifier, an inner session from one under the
same type. -/
structure State.Like (s s' : State) : Prop where
  ordinary : ∀ x' ∈ s'.sessionCollection, ∃ x ∈ s.sessionCollection, x'.sessionId = x.sessionId
  inner : ∀ t x', s'.inner.get t = some x' → ∃ x, s.inner.get t = some x ∧
    x'.sessionId = x.sessionId ∧ x'.browserType = x.browserType

theorem State.Sub.like {s s' : State} (h : s.Sub s') :
  s.Like s'
  := ⟨fun x hx => ⟨x, h.ordinary x hx, rfl⟩, fun t x hx => ⟨x, h.inner t x hx, rfl, rfl⟩⟩

theorem State.Distinct.like {s s' : State} (h : s.Distinct) (hlike : s.Like s') :
  s'.Distinct
  := by
  refine ⟨fun t x' hx' y' hy' => ?_, fun t t' x' y' hx' hy' => ?_⟩
  · obtain ⟨x, hx, hid, -⟩ := hlike.inner t x' hx'
    obtain ⟨y, hy, hid'⟩ := hlike.ordinary y' hy'
    rw [hid, hid']
    exact h.ordinary t x hx y hy
  · obtain ⟨x, hx, hid, -⟩ := hlike.inner t x' hx'
    obtain ⟨y, hy, hid', -⟩ := hlike.inner t' y' hy'
    rw [hid, hid']
    exact h.inner t t' x y hx hy

/-- The sessions are kept under their types, no two have the same identifier, and the session
of the BMA knows for how long it has been idle. -/
structure Watch.Inv (w : Watch) : Prop where
  type_eq : ∀ t x, w.state.inner.get t = some x → x.browserType = t.key
  distinct : w.state.Distinct
  idle_eq : ∀ x, w.state.inner.bma = some x → x.lastActiveTime = w.idle .bma

theorem Watch.Inv.start (sessions : List Session) (sessionTimeout : ℕ) :
  (Watch.start sessions sessionTimeout).Inv
  := by
  have hnone (t : InnerType) : (Watch.start sessions sessionTimeout).state.inner.get t = none := by
    cases t <;> rfl
  exact {
    type_eq := fun t x hx => by simp [hnone t] at hx
    distinct := ⟨fun t x hx => by simp [hnone t] at hx, fun t _ x _ hx => by simp [hnone t] at hx⟩
    idle_eq := fun x hx => by simp [Watch.start] at hx
  }

theorem Watch.Inv.like {w : Watch} (h : w.Inv) {s' : State} {idle : InnerType → ℕ}
    (hlike : w.state.Like s')
    (hidle : ∀ x, s'.inner.bma = some x → x.lastActiveTime = idle .bma) :
  (Watch.mk s' idle).Inv
  := by
  refine ⟨fun t x' hx' => ?_, h.distinct.like hlike, hidle⟩
  obtain ⟨x, hx, -, htype⟩ := hlike.inner t x' hx'
  exact htype.trans (h.type_eq t x hx)

theorem Watch.Inv.sub {w : Watch} (h : w.Inv) {s' : State} (hsub : w.state.Sub s') :
  (Watch.mk s' w.idle).Inv
  := h.like hsub.like fun x hx => h.idle_eq x (hsub.inner .bma x hx)

theorem Watch.Inv.createInnerSession {w : Watch} (h : w.Inv)
    (rolePrivilege : ℕ → Option (List PrivilegeType)) (r : InnerRequest) (t : InnerType)
    (id : String) (hfresh : w.Fresh (.createInnerSession r t id)) :
  (w.step rolePrivilege (.createInnerSession r t id)).Inv
  := by
  obtain ⟨y, hafter, hy⟩ := after_createInnerSession rolePrivilege r t id w.state
  have hother {t' : InnerType} (ht : t' ≠ t) :
      (w.state.inner.put t y).get t' = w.state.inner.get t' :=
    InnerCollection.get_put_ne _ y ht
  have hstate : (w.step rolePrivilege (.createInnerSession r t id)).state
      = { w.state with inner := w.state.inner.put t y } := hafter
  have hid (z : Session) (hz : z ∈ y) :
      (∃ x, w.state.inner.get t = some x ∧ z.sessionId = x.sessionId) ∨ z.sessionId = id := by
    obtain ⟨x, hx, hid, -⟩ | ⟨-, hid, -⟩ := hy z hz
    · exact Or.inl ⟨x, hx, hid⟩
    · exact Or.inr hid
  have hne {t' : InnerType} (ht : t' ≠ t) {x z : Session} (hx : w.state.inner.get t' = some x)
      (hz : z ∈ y) : x.sessionId ≠ z.sessionId := by
    obtain ⟨x', hx', hid⟩ | hid := hid z hz
    · rw [hid]
      exact h.distinct.inner t' t x x' hx hx' ht
    · rw [hid]
      exact hfresh.2 t' x hx
  refine ⟨?_, ⟨?_, ?_⟩, ?_⟩
  · rw [hstate]
    intro t' z hz
    by_cases ht : t' = t
    · subst ht
      rw [InnerCollection.get_put] at hz
      obtain ⟨x, hx, -, htype, -⟩ | ⟨-, -, htype, -⟩ := hy z hz
      · exact htype.trans (h.type_eq t' x hx)
      · exact htype
    · exact h.type_eq t' z ((hother ht).symm.trans hz)
  · rw [hstate]
    intro t' z hz x hx
    by_cases ht : t' = t
    · subst ht
      rw [InnerCollection.get_put] at hz
      obtain ⟨x', hx', hid⟩ | hid := hid z hz
      · rw [hid]
        exact h.distinct.ordinary t' x' hx' x hx
      · rw [hid]
        exact hfresh.1 x hx
    · exact h.distinct.ordinary t' z ((hother ht).symm.trans hz) x hx
  · rw [hstate]
    intro t₁ t₂ x z hx hz hdiff
    by_cases ht₁ : t₁ = t
    · subst ht₁
      rw [InnerCollection.get_put] at hx
      exact (hne hdiff.symm ((hother hdiff.symm).symm.trans hz) hx).symm
    · have hx' := (hother ht₁).symm.trans hx
      by_cases ht₂ : t₂ = t
      · subst ht₂
        rw [InnerCollection.get_put] at hz
        exact hne ht₁ hx' hz
      · exact h.distinct.inner t₁ t₂ x z hx' ((hother ht₂).symm.trans hz) hdiff
  · rw [hstate]
    intro z hz
    change (w.state.inner.put t y).get .bma = some z at hz
    by_cases ht : InnerType.bma = t
    · subst ht
      rw [InnerCollection.get_put] at hz
      obtain ⟨x, hx, -, -, hlast⟩ | ⟨hx, -, -, hlast⟩ := hy z hz
      · have hx' : w.state.inner.get .bma = some x := hx
        rw [hlast, h.idle_eq x hx']
        simp [Watch.step, hx']
      · rw [hlast]
        simp [Watch.step, hx]
    · have hold := h.idle_eq z ((hother ht).symm.trans hz)
      rw [hold]
      simp only [Watch.step]
      split
      · rfl
      · exact (Function.update_of_ne ht 0 w.idle).symm

theorem Watch.Inv.getTimeoutSessionList {w : Watch} (h : w.Inv)
    (rolePrivilege : ℕ → Option (List PrivilegeType)) (absolute now : ℤ) :
  (w.step rolePrivilege (.getTimeoutSessionList absolute now)).Inv
  := by
  obtain ⟨l, hexec, -, -⟩ := exec_getTimeoutSessionList absolute now w.state
  have hstate : w.state.after rolePrivilege (.getTimeoutSessionList absolute now)
      = { w.state with
        inner := { w.state.inner with bma := w.state.inner.bma.map Session.age }
        sessionCollection := w.state.sessionCollection.map Session.age } :=
    congrArg Prod.snd hexec
  apply h.like
  · rw [hstate]
    constructor
    · intro x' hx'
      obtain ⟨x, hx, rfl⟩ := List.mem_map.mp hx'
      exact ⟨x, hx, rfl⟩
    · intro t x' hx'
      cases t with
      | hmm => exact ⟨x', hx', rfl, rfl⟩
      | bma =>
        obtain ⟨x, hx, rfl⟩ := Option.map_eq_some_iff.mp hx'
        exact ⟨x, hx, rfl, rfl⟩
  · rw [hstate]
    intro x' hx'
    obtain ⟨x, hx, rfl⟩ := Option.map_eq_some_iff.mp hx'
    exact congrArg (· + 5) (h.idle_eq x hx)

theorem Watch.Inv.validateInner {w : Watch} (h : w.Inv)
    (rolePrivilege : ℕ → Option (List PrivilegeType)) (t : InnerType) :
  (w.step rolePrivilege (.validateInner t)).Inv
  := by
  have hput (t' : InnerType) (x' : Session)
      (hx' : (w.state.after rolePrivilege (.validateInner t)).inner.get t' = some x') :
      ∃ x, w.state.inner.get t' = some x ∧
        x' = if t' = t then { x with lastActiveTime := 0 } else x := by
    have hx'' : (w.state.inner.put t ((w.state.inner.get t).map fun x =>
        { x with lastActiveTime := 0 })).get t' = some x' := hx'
    by_cases ht : t' = t
    · subst ht
      rw [InnerCollection.get_put] at hx''
      obtain ⟨x, hx, rfl⟩ := Option.map_eq_some_iff.mp hx''
      exact ⟨x, hx, (if_pos rfl).symm⟩
    · rw [InnerCollection.get_put_ne _ _ ht] at hx''
      exact ⟨x', hx'', (if_neg ht).symm⟩
  apply h.like
  · refine ⟨fun x hx => ⟨x, hx, rfl⟩, fun t' x' hx' => ?_⟩
    obtain ⟨x, hx, rfl⟩ := hput t' x' hx'
    refine ⟨x, hx, ?_⟩
    split <;> exact ⟨rfl, rfl⟩
  · intro x' hx'
    change x'.lastActiveTime = Function.update w.idle t 0 .bma
    obtain ⟨x, hx, rfl⟩ := hput .bma x' hx'
    by_cases ht : InnerType.bma = t
    · subst ht
      simp
    · rw [if_neg ht, Function.update_of_ne ht]
      exact h.idle_eq x hx

/-- Every operation keeps the invariant. -/
theorem Watch.Inv.step {w : Watch} (h : w.Inv)
    (rolePrivilege : ℕ → Option (List PrivilegeType)) (op : Op) (hfresh : w.Fresh op) :
  (w.step rolePrivilege op).Inv
  := by
  cases op with
  | createInnerSession r t id => exact h.createInnerSession rolePrivilege r t id hfresh
  | getTimeoutSessionList absolute now => exact h.getTimeoutSessionList rolePrivilege absolute now
  | validateInner t => exact h.validateInner rolePrivilege t
  | delete order id =>
    exact h.sub ((delete_keeps_sub w.state order id).after (State.Sub.refl _))
  | deleteAllInnerSession order =>
    exact h.sub ((deleteAllInnerSession_keeps_sub w.state order).after (State.Sub.refl _))
  | deleteHighPrivInnerSession order tab =>
    exact h.sub ((deleteHighPrivInnerSession_keeps_sub w.state order tab).after
      (State.Sub.refl _))

theorem Watch.Inv.onePerType {w : Watch} (h : w.Inv) :
  w.state.OnePerType
  := by
  refine ⟨h.type_eq, fun t t' x x' hx hx' htype => ?_⟩
  have hkey : t.key = t'.key := (h.type_eq t x hx).symm.trans (htype.trans (h.type_eq t' x' hx'))
  have ht : t = t' := by
    cases t <;> cases t' <;> first | rfl | exact absurd hkey (by decide)
  subst ht
  exact Option.some.inj (hx.symm.trans hx')

/-! ## What the operations are to do -/

theorem exec_forInner (order : PairsOrder) {t₁ t₂ : InnerType} (h : order.types = [t₁, t₂])
    (f : InnerType → Session → SessionM Unit) (s : State) :
  exec (forInner order f) s = exec (visitInner f t₁ >>= fun _ => visitInner f t₂) s
  := by
  have hlast : (visitInner f t₂ >>= fun _ => pure ()) = visitInner f t₂ := bind_pure_unit
  unfold forInner
  rw [h]
  change exec (visitInner f t₁ >>= fun _ => visitInner f t₂ >>= fun _ => pure ()) s = _
  rw [hlast]

theorem exec_visitInner_none {f : InnerType → Session → SessionM Unit} {s : State} {t : InnerType}
    (h : s.inner.get t = none) :
  exec (visitInner f t) s = (.ok (), s)
  := by
  unfold visitInner
  rw [exec_bind_ok (exec_get s), h]
  rfl

theorem exec_visitInner_some {f : InnerType → Session → SessionM Unit} {s : State} {t : InnerType}
    {x : Session} (h : s.inner.get t = some x) :
  exec (visitInner f t) s = exec (f t x) s
  := by
  unfold visitInner
  rw [exec_bind_ok (exec_get s), h]

/-- Past the session of a type that exceeds its role, or that does not. -/
theorem State.Distinct.exec_kick {s : State} (h : s.Distinct) (order : PairsOrder)
    (tab : ChanRoles) (t : InnerType) :
  exec (visitInner (kickHighPriv order tab) t) s =
    if s.Exceeds tab t then
      if t = .hmm ∧ s.inner.bma.isSome then (.error .positionOutOfBounds, s)
      else (.ok (), { s with inner := s.inner.put t none })
    else
      if (s.inner.get t).isSome ∧ tab.role t = none then (.error .indexNil, s) else (.ok (), s)
  := by
  cases hx : s.inner.get t with
  | none =>
    have hexceeds : ¬ s.Exceeds tab t := by
      rintro ⟨x, hx', -⟩
      rw [hx] at hx'
      cases hx'
    rw [exec_visitInner_none hx, if_neg hexceeds, if_neg (fun h => by simp at h)]
  | some x =>
    rw [exec_visitInner_some hx]
    unfold kickHighPriv
    cases hrole : tab.role t with
    | none =>
      have hexceeds : ¬ s.Exceeds tab t := by
        rintro ⟨-, -, role, hrole', -⟩
        rw [hrole] at hrole'
        cases hrole'
      rw [if_neg hexceeds, if_pos ⟨rfl, rfl⟩]
      rfl
    | some role =>
      change exec (onlyIf (role < x.roleId) (delete order x.sessionId)) s = _
      by_cases hlt : role < x.roleId
      · have hexceeds : s.Exceeds tab t := ⟨x, hx, role, hrole, hlt⟩
        rw [if_pos hexceeds, decide_eq_true hlt]
        exact h.exec_delete order hx
      · have hexceeds : ¬ s.Exceeds tab t := by
          rintro ⟨x', hx', role', hrole', hlt'⟩
          obtain rfl := Option.some.inj (hx.symm.trans hx')
          obtain rfl := Option.some.inj (hrole.symm.trans hrole')
          exact hlt hlt'
        rw [if_neg hexceeds, decide_eq_false hlt, if_neg (fun h => by simp at h)]
        rfl

/-- An operation on one type leaves the other one. -/
theorem State.exceeds_put_none {s : State} {tab : ChanRoles} {t t' : InnerType} (ht : t' ≠ t) :
  ({ s with inner := s.inner.put t none } : State).Exceeds tab t' ↔ s.Exceeds tab t'
  := by
  unfold State.Exceeds
  rw [InnerCollection.get_put_ne _ _ ht]

theorem Watch.Inv.delete_iff {w : Watch} (h : w.Inv) (order : PairsOrder) (id : String) :
  w.Does (.delete order id) ↔ w.Sound (.delete order id)
  := by
  constructor
  · rintro hdoes ⟨x, hx, rfl⟩
    have hexec := hdoes .hmm x hx rfl
    rw [h.distinct.exec_delete order (t := .hmm) hx] at hexec
    by_contra hbma
    rw [if_pos ⟨rfl, Option.isSome_iff_ne_none.mpr hbma⟩] at hexec
    simp at hexec
  · rintro hsound t x hx rfl
    rw [h.distinct.exec_delete order hx]
    apply if_neg
    rintro ⟨rfl, hbma⟩
    rw [hsound ⟨x, hx, rfl⟩] at hbma
    simp at hbma

theorem Watch.Inv.getTimeoutSessionList_iff {w : Watch} (h : w.Inv) (absolute now : ℤ) :
  w.Does (.getTimeoutSessionList absolute now) ↔ w.Sound (.getTimeoutSessionList absolute now)
  := by
  obtain ⟨l, hexec, hlisted, honly⟩ := exec_getTimeoutSessionList absolute now w.state
  constructor
  · rintro ⟨l', s', hexec', hall⟩ hsome
    obtain ⟨rfl, -⟩ := Prod.ext_iff.mp (hexec.symm.trans hexec') |>.imp Except.ok.inj id
    obtain ⟨x, hx⟩ := Option.isSome_iff_exists.mp hsome
    by_contra hlate
    obtain ⟨y, hy, hid⟩ := hall .hmm x hx (by omega)
    obtain ⟨z, hz, rfl⟩ | ⟨z, hz, rfl⟩ := honly y hy
    · exact h.distinct.inner .bma .hmm z x hz hx (by decide) hid
    · exact h.distinct.ordinary .hmm x hx z hz hid
  · intro hsound
    refine ⟨l, _, hexec, fun t x hx hlate => ?_⟩
    cases t with
    | hmm =>
      have hidle := hsound (Option.isSome_iff_exists.mpr ⟨x, hx⟩)
      omega
    | bma =>
      have hactive := h.idle_eq x hx
      exact ⟨x.age, hlisted x hx (by omega), rfl⟩

theorem InnerCollection.put_self (c : InnerCollection) {t : InnerType} {x : Option Session}
    (h : c.get t = x) :
  c.put t x = c
  := by
  subst h
  cases t <;> rfl

/-- Past the session of a type that is to be deleted. -/
theorem State.Distinct.exec_visit_delete {s : State} (h : s.Distinct) (order : PairsOrder)
    (t : InnerType) :
  exec (visitInner (fun _ x => delete order x.sessionId) t) s =
    if t = .hmm ∧ s.inner.hmm.isSome ∧ s.inner.bma.isSome then (.error .positionOutOfBounds, s)
    else (.ok (), { s with inner := s.inner.put t none })
  := by
  cases hx : s.inner.get t with
  | none =>
    have hfree : ¬ (t = .hmm ∧ s.inner.hmm.isSome ∧ s.inner.bma.isSome) := by
      rintro ⟨rfl, hhmm, -⟩
      change s.inner.hmm = none at hx
      simp [hx] at hhmm
    rw [exec_visitInner_none hx, if_neg hfree, InnerCollection.put_self _ hx]
  | some x =>
    rw [exec_visitInner_some hx, h.exec_delete order hx]
    congr 1
    apply propext
    constructor
    · rintro ⟨rfl, hbma⟩
      exact ⟨rfl, Option.isSome_iff_exists.mpr ⟨x, hx⟩, hbma⟩
    · exact fun hblocked => ⟨hblocked.1, hblocked.2.2⟩

theorem Watch.Inv.deleteAllInnerSession_iff {w : Watch} (h : w.Inv) (order : PairsOrder) :
  w.Does (.deleteAllInnerSession order) ↔ w.Sound (.deleteAllInnerSession order)
  := by
  obtain ⟨⟨sessions, ⟨hmm, bma⟩, timeout⟩, idle⟩ := w
  have hempty (c : InnerCollection) : (∀ t, c.get t = none) ↔ c.hmm = none ∧ c.bma = none :=
    ⟨fun h => ⟨h .hmm, h .bma⟩, fun h t => by cases t; exacts [h.1, h.2]⟩
  unfold Watch.Does Watch.Sound Redfish.deleteAllInnerSession Raise.after
  simp only [hempty]
  rw [exec_bind_ok (exec_get _)]
  cases bma with
  | none =>
    change (hmm = none ∧ (none : Option Session) = none) ↔ _
    cases hmm <;> simp
  | some b =>
    change ((exec (forInner order fun _ x => delete order x.sessionId) _).2.inner.hmm = none
      ∧ (exec (forInner order fun _ x => delete order x.sessionId) _).2.inner.bma = none) ↔ _
    have hdist := h.distinct
    cases order with
    | hmmFirst =>
      rw [exec_forInner _ rfl]
      cases hmm with
      | none =>
        have hfirst := hdist.exec_visit_delete .hmmFirst .hmm
        rw [if_neg (fun h => by simp at h)] at hfirst
        have hdist' := hdist.like ((State.Sub.refl _).put_none .hmm).like
        rw [exec_bind_ok hfirst, hdist'.exec_visit_delete, if_neg (fun h => by simp at h)]
        simp [InnerCollection.put]
      | some a =>
        have hfirst := hdist.exec_visit_delete .hmmFirst .hmm
        rw [if_pos ⟨rfl, rfl, rfl⟩] at hfirst
        rw [exec_bind_error hfirst]
        simp
    | bmaFirst =>
      rw [exec_forInner _ rfl]
      have hfirst := hdist.exec_visit_delete .bmaFirst .bma
      rw [if_neg (fun h => by simp at h)] at hfirst
      have hdist' := hdist.like ((State.Sub.refl _).put_none .bma).like
      rw [exec_bind_ok hfirst, hdist'.exec_visit_delete,
        if_neg (fun h => by simp [InnerCollection.put] at h)]
      simp [InnerCollection.put]

/-- What is asked of `delete_high_priv_inner_session`, by the two entries. -/
theorem Watch.does_deleteHighPriv_iff {w : Watch} {order : PairsOrder} {tab : ChanRoles}
    {s' : State} (h : Raise.after (Redfish.deleteHighPrivInnerSession order tab) w.state = s') :
  w.Does (.deleteHighPrivInnerSession order tab) ↔
    s'.inner.hmm = (if w.state.Exceeds tab .hmm then none else w.state.inner.hmm)
      ∧ s'.inner.bma = (if w.state.Exceeds tab .bma then none else w.state.inner.bma)
  := by
  subst h
  exact ⟨fun h => ⟨h .hmm, h .bma⟩, fun h t => by cases t; exacts [h.1, h.2]⟩

theorem State.Exceeds.isSome {s : State} {tab : ChanRoles} {t : InnerType} (h : s.Exceeds tab t) :
  (s.inner.get t).isSome ∧ (tab.role t).isSome
  := by
  obtain ⟨x, hx, role, hrole, -⟩ := h
  exact ⟨Option.isSome_iff_exists.mpr ⟨x, hx⟩, Option.isSome_iff_exists.mpr ⟨role, hrole⟩⟩

theorem Watch.Inv.deleteHighPriv_bmaFirst {w : Watch} (h : w.Inv) (tab : ChanRoles) :
  w.Does (.deleteHighPrivInnerSession .bmaFirst tab)
    ↔ w.Sound (.deleteHighPrivInnerSession .bmaFirst tab)
  := by
  have hfirst := h.distinct.exec_kick .bmaFirst tab .bma
  have hrun := exec_forInner .bmaFirst rfl (kickHighPriv .bmaFirst tab) w.state
  by_cases hb : w.state.Exceeds tab .bma
  · rw [if_pos hb, if_neg (fun h => by simp at h)] at hfirst
    have hdist' := h.distinct.like ((State.Sub.refl _).put_none .bma).like
    have hsecond := hdist'.exec_kick .bmaFirst tab .hmm
    have hsame : ({ w.state with inner := w.state.inner.put .bma none } : State).Exceeds tab .hmm
        ↔ w.state.Exceeds tab .hmm := State.exceeds_put_none (by decide)
    rw [exec_bind_ok hfirst, hsecond] at hrun
    rw [Watch.does_deleteHighPriv_iff (congrArg Prod.snd hrun)]
    by_cases hh : w.state.Exceeds tab .hmm
    · rw [if_pos (hsame.mpr hh)]
      simp [hh, hb, InnerCollection.put, Watch.Sound]
    · rw [if_neg (mt hsame.mp hh)]
      split <;> simp [hh, hb, InnerCollection.put, Watch.Sound]
  · rw [if_neg hb] at hfirst
    have hsecond := h.distinct.exec_kick .bmaFirst tab .hmm
    by_cases hrole : (w.state.inner.get .bma).isSome ∧ tab.role .bma = none
    · rw [if_pos hrole] at hfirst
      rw [exec_bind_error hfirst] at hrun
      rw [Watch.does_deleteHighPriv_iff (congrArg Prod.snd hrun)]
      have hbma : w.state.inner.bma ≠ none := Option.isSome_iff_ne_none.mp hrole.1
      by_cases hh : w.state.Exceeds tab .hmm
      · have hhmm : w.state.inner.hmm ≠ none := Option.isSome_iff_ne_none.mp hh.isSome.1
        simp [hh, hb, hbma, hhmm, Watch.Sound]
      · simp [hh, hb, Watch.Sound]
    · rw [if_neg hrole] at hfirst
      rw [exec_bind_ok hfirst, hsecond] at hrun
      rw [Watch.does_deleteHighPriv_iff (congrArg Prod.snd hrun)]
      by_cases hh : w.state.Exceeds tab .hmm
      · have hhmm : w.state.inner.hmm ≠ none := Option.isSome_iff_ne_none.mp hh.isSome.1
        cases hbma : w.state.inner.bma <;>
          simp [hh, hb, hbma, hhmm, InnerCollection.put, Watch.Sound]
      · rw [if_neg hh]
        split <;> simp [hh, hb, Watch.Sound]

theorem Watch.Inv.deleteHighPriv_hmmFirst {w : Watch} (h : w.Inv) (tab : ChanRoles) :
  w.Does (.deleteHighPrivInnerSession .hmmFirst tab)
    ↔ w.Sound (.deleteHighPrivInnerSession .hmmFirst tab)
  := by
  have hfirst := h.distinct.exec_kick .hmmFirst tab .hmm
  have hrun := exec_forInner .hmmFirst rfl (kickHighPriv .hmmFirst tab) w.state
  by_cases hh : w.state.Exceeds tab .hmm
  · have hhmm : w.state.inner.hmm ≠ none := Option.isSome_iff_ne_none.mp hh.isSome.1
    rw [if_pos hh] at hfirst
    cases hbma : w.state.inner.bma with
    | some b =>
      rw [if_pos ⟨rfl, by rw [hbma]; rfl⟩] at hfirst
      rw [exec_bind_error hfirst] at hrun
      rw [Watch.does_deleteHighPriv_iff (congrArg Prod.snd hrun)]
      simp [hh, hbma, hhmm, Watch.Sound]
    | none =>
      have hb : ¬ w.state.Exceeds tab .bma := fun hb => by
        have hlive : w.state.inner.bma.isSome := hb.isSome.1
        simp [hbma] at hlive
      rw [if_neg (fun h => by simp [hbma] at h)] at hfirst
      have hbma' : (w.state.inner.put .hmm none).get .bma = none := hbma
      rw [exec_bind_ok hfirst, exec_visitInner_none hbma'] at hrun
      rw [Watch.does_deleteHighPriv_iff (congrArg Prod.snd hrun)]
      simp [hh, hb, hbma, InnerCollection.put, Watch.Sound]
  · rw [if_neg hh] at hfirst
    by_cases hrole : (w.state.inner.get .hmm).isSome ∧ tab.role .hmm = none
    · rw [if_pos hrole] at hfirst
      rw [exec_bind_error hfirst] at hrun
      rw [Watch.does_deleteHighPriv_iff (congrArg Prod.snd hrun)]
      have hhmm : w.state.inner.hmm ≠ none := Option.isSome_iff_ne_none.mp hrole.1
      by_cases hb : w.state.Exceeds tab .bma
      · have hbma : w.state.inner.bma ≠ none := Option.isSome_iff_ne_none.mp hb.isSome.1
        simp [hh, hb, hbma, hhmm, hrole.2, Watch.Sound]
      · simp [hh, hb, Watch.Sound]
    · rw [if_neg hrole] at hfirst
      have hsecond := h.distinct.exec_kick .hmmFirst tab .bma
      rw [exec_bind_ok hfirst, hsecond] at hrun
      rw [Watch.does_deleteHighPriv_iff (congrArg Prod.snd hrun)]
      by_cases hb : w.state.Exceeds tab .bma
      · have hfree : w.state.inner.hmm = none ∨ (tab.role .hmm).isSome := by
          cases hhmm : w.state.inner.hmm with
          | none => exact Or.inl rfl
          | some x =>
            right
            rw [Option.isSome_iff_ne_none]
            exact fun hnone => hrole ⟨Option.isSome_iff_exists.mpr ⟨x, hhmm⟩, hnone⟩
        simp [hh, hb, hfree, InnerCollection.put, Watch.Sound]
      · rw [if_neg hb]
        split <;> simp [hh, hb, Watch.Sound]

/-- An operation does what it is to do exactly when it is sound. -/
theorem Watch.Inv.does_iff {w : Watch} (h : w.Inv) (op : Op) :
  w.Does op ↔ w.Sound op
  := by
  cases op with
  | createInnerSession r t id => exact Iff.rfl
  | getTimeoutSessionList absolute now => exact h.getTimeoutSessionList_iff absolute now
  | validateInner t => exact Iff.rfl
  | delete order id => exact h.delete_iff order id
  | deleteAllInnerSession order => exact h.deleteAllInnerSession_iff order
  | deleteHighPrivInnerSession order tab =>
    cases order with
    | hmmFirst => exact h.deleteHighPriv_hmmFirst tab
    | bmaFirst => exact h.deleteHighPriv_bmaFirst tab

/-! ## Runs from the start -/

/-- An operation does what it is to do, and leaves at most one inner session of each type,
under the key of the type. -/
def Watch.Right (rolePrivilege : ℕ → Option (List PrivilegeType)) (w : Watch) (op : Op) : Prop :=
  (w.step rolePrivilege op).state.OnePerType ∧ w.Does op

/-- Every operation of a run does what it is to do exactly when every operation is sound. -/
theorem innerSessions_right_iff (rolePrivilege : ℕ → Option (List PrivilegeType))
    (sessions : List Session) (sessionTimeout : ℕ) (ops : List Op)
    (hfresh : Run.Along (Watch.step rolePrivilege) Watch.Fresh
      (Watch.start sessions sessionTimeout) ops) :
  Run.Along (Watch.step rolePrivilege) (Watch.Right rolePrivilege)
      (Watch.start sessions sessionTimeout) ops
    ↔ Run.Along (Watch.step rolePrivilege) Watch.Sound (Watch.start sessions sessionTimeout) ops
  := by
  apply Run.along_iff (fun w op h hf => h.step rolePrivilege op hf) _
    (Watch.Inv.start sessions sessionTimeout) hfresh
  intro w op h hf
  constructor
  · exact fun hright => (h.does_iff op).mp hright.2
  · exact fun hsound => ⟨(h.step rolePrivilege op hf).onePerType, (h.does_iff op).mpr hsound⟩

/-- A request for a session with the role of the operator. -/
def operatorRequest : InnerRequest where
  username := "hmm"
  ip := "127.0.0.1"
  authType := 0
  roleId := 3
  now := 0

/-- A session of the HMM, one of the BMA, and the first one is deleted. -/
def deleteHmm : List Op :=
  [.createInnerSession operatorRequest .hmm "h", .createInnerSession operatorRequest .bma "b",
    .delete .bmaFirst "h"]

theorem fresh_deleteHmm :
  Run.Along (Watch.step fun _ => some []) Watch.Fresh (Watch.start [] 300) deleteHmm
  := by
  have hempty (t : InnerType) : (Watch.start [] 300).state.inner.get t = none := by
    cases t <;> rfl
  refine ⟨⟨by simp [Watch.start], fun t x hx => by simp [hempty] at hx⟩,
    ⟨by rintro x ⟨⟩, fun t x hx => ?_⟩, trivial, trivial⟩
  cases t with
  | hmm =>
    obtain rfl := Option.some.inj hx
    decide
  | bma => cases hx

theorem innerSessions_right_two :
  Run.Along (Watch.step fun _ => some []) (Watch.Right fun _ => some []) (Watch.start [] 300)
      deleteHmm
    ↔ Run.Along (Watch.step fun _ => some []) Watch.Sound (Watch.start [] 300) deleteHmm
  := innerSessions_right_iff _ [] 300 deleteHmm fresh_deleteHmm

/-- The session of the HMM cannot be deleted while there is one of the BMA. -/
theorem hmm_not_deleted :
  ¬ ∀ (rolePrivilege : ℕ → Option (List PrivilegeType)) (sessions : List Session)
      (sessionTimeout : ℕ) (ops : List Op),
    Run.Along (Watch.step rolePrivilege) Watch.Fresh (Watch.start sessions sessionTimeout) ops →
      Run.Along (Watch.step rolePrivilege) (Watch.Right rolePrivilege)
        (Watch.start sessions sessionTimeout) ops
  := by
  intro h
  obtain ⟨-, -, hdelete, -⟩ := h (fun _ => some []) [] 300 deleteHmm fresh_deleteHmm
  have hexec := hdelete.2 .hmm _ rfl rfl
  exact absurd (congrArg (fun r => r.1.isOk) hexec) (by decide)

end Redfish

end BmcAccount
