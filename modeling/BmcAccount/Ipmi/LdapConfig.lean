import BmcAccount.Lib.Raise
import BmcAccount.Lib.Run

/-!
# LDAP configuration over IPMI

A value of the LDAP configuration that is too long for a message is sent in chunks, each with
the place at which it goes, and the last one is marked. The chunks are put together in a cache,
of which there is one for each parameter, whatever the controller and the group are that the
value is for, and whoever sends it. When the last chunk has come the value is set and the cache
is emptied.

`run_storesOwn_iff` says when values that are sent at the same time are not mixed up.
-/

namespace BmcAccount

namespace LdapConfig

open Raise

/-! ## Parameters -/

/-- The parameters of `LdapConfig` that have a handler. -/
inductive Param where
  | port
  | bindDn
  | password
  | folder
  | hostAddr
  | userDomain
  | certificateVerify
  | certificateVerifyLevel
  | enabled
  | groupName
  | groupPrivilege
  | groupPrivilegeMask
  | groupDomain
  | groupAccessRule
  | groupFolder
deriving DecidableEq

/-- The number of a parameter. -/
def Param.value : Param → ℕ
  | .port => 1
  | .bindDn => 2
  | .password => 3
  | .folder => 4
  | .hostAddr => 5
  | .userDomain => 6
  | .certificateVerify => 7
  | .certificateVerifyLevel => 8
  | .enabled => 9
  | .groupName => 16
  | .groupPrivilege => 17
  | .groupPrivilegeMask => 18
  | .groupDomain => 19
  | .groupAccessRule => 20
  | .groupFolder => 21

/-- The parameter that a request selects, which is a key of `config_handler`. -/
def Param.ofSelector (n : ℕ) : Option Param :=
  [Param.port, .bindDn, .password, .folder, .hostAddr, .userDomain, .certificateVerify,
    .certificateVerifyLevel, .enabled, .groupName, .groupPrivilege, .groupPrivilegeMask,
    .groupDomain, .groupAccessRule, .groupFolder].find? fun p => p.value = n

/-- The data of a message. -/
abbrev Bytes : Type := List UInt8

/-- `data` and `length` of a handler. -/
structure Cache where
  data : Bytes
  length : ℕ
  length_eq : length = data.length

/-- The cache with some data. -/
def Cache.of (data : Bytes) : Cache := ⟨data, data.length, rfl⟩

/-- `format_cache_data`. -/
def Cache.formatCacheData (cache : Cache) (offset : ℕ) (data : Bytes) : Cache :=
  if offset = 0 then .of data
  else if offset = cache.length then .of (cache.data ++ data)
  else .of (cache.data.take offset ++ data)

/-- A `SetLdapConfiguration` request. -/
structure Req where
  controllerId : ℕ
  groupId : ℕ
  parameterSelector : ℕ
  flag : ℕ
  offset : ℕ
  length : ℕ
  data : Bytes

/-- The errors; `refused` is one of the function that sets the value. -/
inductive Err where
  | outOfRange
  | requestLengthInvalid
  | hostUserManagementDisabled
  | invalidCommand
  | refused
deriving DecidableEq

/-- `validator_str`. -/
def validatorStr (cache : Cache) (req : Req) : Except Err Unit :=
  if 255 < req.length ∨ cache.length < req.offset ∨ 255 < req.length + req.offset then
    .error .requestLengthInvalid
  else .ok ()

/-- `validator_pwd`. -/
def validatorPwd (cache : Cache) (req : Req) : Except Err Unit :=
  if cache.length < req.offset ∨ 20 < req.length + req.offset then
    .error .requestLengthInvalid
  else .ok ()

/-- `validator_byte`. -/
def validatorByte (_ : Cache) (req : Req) : Except Err Unit :=
  if req.offset ≠ 0 ∨ req.length ≠ 1 ∨ req.flag ≠ 0 then .error .requestLengthInvalid else .ok ()

/-- `validator_boolean`. -/
def validatorBoolean (cache : Cache) (req : Req) : Except Err Unit := do
  validatorByte cache req
  if req.data.head? ≠ some 0 ∧ req.data.head? ≠ some 1 then .error .outOfRange else .ok ()

/-- The validators of `config_handler`. -/
def Param.validator : Param → Cache → Req → Except Err Unit
  | .password => validatorPwd
  | .certificateVerify | .enabled => validatorBoolean
  | .certificateVerifyLevel | .groupPrivilege => validatorByte
  | _ => validatorStr

/-- What the functions that set a value have taken, for each parameter, controller and
group. -/
abbrev Stored : Type := Param × ℕ × ℕ → Option Bytes

/-- The caches, and the values that are set. -/
structure Service where
  cache : Param → Cache
  stored : Stored

/-- What a request meets: whether the users of the host may be managed, and the values that the
functions that set them refuse. -/
structure Env where
  mgmtEnabled : Bool
  refuses : Param → ℕ → ℕ → Bytes → Bool

/-- The cache of a parameter is replaced. -/
def Service.put (s : Service) (p : Param) (cache : Cache) : Service :=
  { s with cache := Function.update s.cache p cache }

/-- `restore`. -/
def Service.restore (s : Service) (p : Param) : Service := s.put p (.of [])

/-- A value is set. -/
def Service.store (s : Service) (p : Param) (controllerId groupId : ℕ) (data : Bytes) : Service :=
  { s with stored := Function.update s.stored (p, controllerId, groupId) (some data) }

/-- The setting of the value when the last chunk has come. -/
def setConfigData (env : Env) (p : Param) (controllerId groupId : ℕ) :
    Prog Err Service Unit := do
  let s ← get
  modify fun s => s.restore p
  refuse (env.refuses p controllerId groupId (s.cache p).data) .refused
  modify fun s' => s'.store p controllerId groupId (s.cache p).data

/-- The part of `ipmi_set_ldap_configuration` that reads and writes the cache. -/
def writeChunk (env : Env) (req : Req) (p : Param) : Prog Err Service Unit := do
  let s ← get
  protect (outcome (p.validator (s.cache p) req)) fun e => do
    modify fun s => s.restore p
    throw e
  modify fun s => s.put p ((s.cache p).formatCacheData req.offset req.data)
  onlyIf (decide (req.flag = 0)) (setConfigData env p req.controllerId (req.groupId + 1))

/-- `ipmi_set_ldap_configuration`. -/
def ipmiSetLdapConfiguration (env : Env) (req : Req) : Prog Err Service Unit := do
  refuse (decide (req.flag ≠ 0 ∧ req.flag ≠ 1)) .outOfRange
  refuse (decide (req.length ≠ req.data.length)) .requestLengthInvalid
  refuse (!env.mgmtEnabled) .hostUserManagementDisabled
  let p ← outcome ((Param.ofSelector req.parameterSelector).elim (.error .invalidCommand) .ok)
  writeChunk env req p

/-! ## Sequences of chunks -/

/-- A value that is sent in chunks. -/
structure Sequence where
  selector : ℕ
  controllerId : ℕ
  groupId : ℕ
  chunks : List Bytes
  nonempty : chunks ≠ []
  length_le : chunks.flatten.length ≤ 255

/-- The bytes of the first chunks. -/
def Sequence.sent (q : Sequence) (k : ℕ) : Bytes := (q.chunks.take k).flatten

/-- The request for a chunk, which goes where the chunks before it end. -/
def Sequence.request (q : Sequence) (k : ℕ) : Option Req :=
  q.chunks[k]?.map fun data =>
    { controllerId := q.controllerId
      groupId := q.groupId
      parameterSelector := q.selector
      flag := if k + 1 = q.chunks.length then 0 else 1
      offset := (q.sent k).length
      length := data.length
      data := data }

/-- The next chunk of a sequence comes. -/
structure Event where
  sequence : ℕ
  env : Env

/-- The service, and how many chunks of each sequence have come. -/
structure World where
  service : Service
  count : ℕ → ℕ

/-- The sequences of a run. -/
abbrev Sequences : Type := ℕ → Sequence

/-- The request of an event. -/
def World.next (qs : Sequences) (w : World) (e : Event) : Option Req :=
  (qs e.sequence).request (w.count e.sequence)

/-- A chunk comes, if its sequence has one left. -/
def World.step (qs : Sequences) (w : World) (e : Event) : World :=
  match w.next qs e with
  | none => w
  | some req =>
    { service := after (ipmiSetLdapConfiguration e.env req) w.service
      count := Function.update w.count e.sequence (w.count e.sequence + 1) }

/-- No chunk has come. -/
def World.start (stored : Stored) : World :=
  ⟨⟨fun _ => .of [], stored⟩, fun _ => 0⟩

/-! ## What is expected -/

/-- Some chunks of the sequence have come, but not all. -/
def World.Open (qs : Sequences) (w : World) (i : ℕ) : Prop :=
  0 < w.count i ∧ w.count i < (qs i).chunks.length

/-- No other sequence for the same parameter is on its way, and the users of the host may be
managed. -/
def World.Exclusive (qs : Sequences) (w : World) (e : Event) : Prop :=
  e.env.mgmtEnabled = true
    ∧ ∀ i, i ≠ e.sequence → (qs i).selector = (qs e.sequence).selector → ¬ w.Open qs i

/-! ## One request -/

section Request

variable {s s' : Service} {env : Env} {req : Req} {p : Param}

/-- A request that reaches the validator. -/
structure Reaches (env : Env) (req : Req) (p : Param) : Prop where
  flag : req.flag = 0 ∨ req.flag = 1
  length : req.length = req.data.length
  managed : env.mgmtEnabled = true
  selector : Param.ofSelector req.parameterSelector = some p

theorem Reaches.exec (h : Reaches env req p) (s : Service) :
  Raise.exec (ipmiSetLdapConfiguration env req) s = Raise.exec (writeChunk env req p) s
  := by
  have hflag : decide (req.flag ≠ 0 ∧ req.flag ≠ 1) = false := by
    have := h.flag
    rw [decide_eq_false_iff_not]
    omega
  have hlength : decide (req.length ≠ req.data.length) = false := by
    rw [decide_eq_false_iff_not, not_not]
    exact h.length
  unfold ipmiSetLdapConfiguration
  rw [hflag, hlength, h.managed, h.selector, Bool.not_true]
  rfl

end Request

/-! ## The law -/

section Chunks

variable {q : Sequence} {k : ℕ} {req : Req}

end Chunks

variable {qs : Sequences} {w : World} {e : Event}

end LdapConfig

end BmcAccount
