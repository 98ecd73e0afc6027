import BmcAccount.Account.Collection

/-!
# Creation of accounts and changes of passwords

The operations that enter passwords: creating an account, changing its password, and
changing the number of passwords that are remembered.
-/

namespace BmcAccount

open Raise

/-- Raise what a check raises. -/
def require (r : Except Err Unit) : M Unit :=
  match r with
  | .error e => throw e
  | .ok _ => pure ()

theorem require_keeps {I : State → Prop} (r : Except Err Unit) :
  Keeps I (require r)
  := by
  cases r with
  | error e => exact Keeps.throw
  | ok u => exact Keeps.pure

/-! ## New accounts -/

/-- `get_valid_account_id`: the identifier asked for, or the first free one for `0`. -/
def getValidAccountId (s : State) (id : ℕ) (oem : Bool) : Except Err ℕ :=
  let minId := if oem then 101 else minUserNum
  let maxId := if oem then 115 else maxUserNum
  if (s.accounts.lookup id).isSome then .error .propertyValueError
  else if id = 0 then
    match (List.range' minId (maxId + 1 - minId)).find? fun i => (s.accounts.lookup i).isNone with
    | some i => .ok i
    | none => .error .createLimitReachedForResource
  else if id < minId || maxId < id then .error .propertyValueOutOfRange
  else .ok id

/-- An identifier that is asked for is the one that is taken. -/
theorem getValidAccountId_eq_of_ne {s : State} {id i : ℕ} {oem : Bool} (hzero : id ≠ 0)
    (h : getValidAccountId s id oem = .ok i) :
  i = id
  := by
  unfold getValidAccountId at h
  by_cases hsome : (s.accounts.lookup id).isSome
  · simp [hsome] at h
  · rw [if_neg hsome, if_neg hzero] at h
    cases hrange : (decide (id < if oem then 101 else minUserNum)
        || decide ((if oem then 115 else maxUserNum) < id)) with
    | true => simp [hrange] at h
    | false => simpa [hrange, eq_comm] using h

/-- The identifier of a new account is free. -/
theorem lookup_of_getValidAccountId {s : State} {id i : ℕ} {oem : Bool}
    (h : getValidAccountId s id oem = .ok i) :
  s.accounts.lookup i = none
  := by
  by_cases hzero : id = 0
  · unfold getValidAccountId at h
    by_cases hsome : (s.accounts.lookup id).isSome
    · simp [hsome] at h
    · rw [if_neg hsome, if_pos hzero] at h
      split at h
      · rename_i j hj
        obtain rfl := Except.ok.inj h
        simpa using List.find?_some hj
      · cases h
  · obtain rfl := getValidAccountId_eq_of_ne hzero h
    unfold getValidAccountId at h
    by_cases hsome : (s.accounts.lookup i).isSome
    · simp [hsome] at h
    · simpa using hsome

/-- `check_username_exist`. -/
def State.checkUsernameExist (s : State) (name : String) : Bool :=
  s.accounts.entries.any fun e => e.2.data.userName = name

/-- `new_account_channel_config_to_db_and_mdb`: local accounts get the default channels. -/
def State.newAccountChannels (id roleId : ℕ) (s : State) : State :=
  if minUserNum ≤ id && id ≤ maxUserNum then
    { s with channels := s.channels.insert id (defaultChannels.foldl (fun t ch =>
        t.insert ch ⟨ch, (Account.privilegeOfRole roleId).value, 0, 0, true, true⟩)
        ((s.channels.lookup id).getD ∅)) }
  else s

/-- Whether the password of an account is younger than it has to be to be changed. -/
def Account.withinMinPasswordDays (env : Env) (cfg : Config) (a : Account) : Bool :=
  cfg.minPasswordValidDays != 0
    && env.now ≤ a.data.passwordValidStartTime + cfg.minPasswordValidDays * daySecondCount

/-- `update_within_min_password_days_status`. -/
def updateWithinMinPasswordDaysStatus (env : Env) : M Unit :=
  modify fun s =>
    { s with accounts := s.accounts.map fun _ a =>
      (a.setWithinMinPasswordDaysStatus (a.withinMinPasswordDays env s.config)) }

/-- The account that `new_ccount_to_db_and_mdb` enters into the collection: its history
holds its password. -/
def Account.entered (env : Env) (cfg : Config) (a : Account) : Account :=
  { a with
    history := History.insert a.data.password a.data.kdfPassword cfg.historyPasswordCount []
  }.updatePrivileges env cfg none

/-- `new_ccount_to_db_and_mdb`. -/
def newAccountToDbAndMdb (env : Env) (id : ℕ) (info : Account.Info) (isIpmiOrSnmp : Bool) :
    M Unit := do
  let s ← get
  onlyIf (!isIpmiOrSnmp) (require
    ((Account.blank info).passwordValidator env s.config info.name info.password true false))
  match Account.init env info with
  | .error e => throw e
  | .ok a => do
    modify fun s => { s with accounts := s.accounts.insert id (a.entered env s.config) }
    modify (State.newAccountChannels id info.roleId)
    updateAccount id (Account.updateInactiveUserStartTime env)
    updateDeletable
    updateWithinMinPasswordDaysStatus env

/-- `new_account`; returns the identifier of the account. -/
def newAccount (env : Env) (info : Account.Info) (isIpmiOrSnmp : Bool) : M ℕ := do
  match env.checkUserName (if info.oem then .oem else .localUser) info.name with
  | none => throw .indexNil
  | some allowed => do
    refuse (!allowed) .invalidUserName
    refuse (env.roles info.roleId).isNone (.propertyValueNotInList .roleId)
    let s ← get
    match getValidAccountId s info.id info.oem with
    | .error e => throw e
    | .ok id => do
      refuse (s.checkUsernameExist info.name) .resourceAlreadyExists
      newAccountToDbAndMdb env id info isIpmiOrSnmp
      pure id

/-! ## Passwords -/

/-- `AccountCollection:set_account_password`, by the account `handler`. -/
def setAccountPassword (env : Env) (handler id : ℕ) (password : String) : M Unit := do
  let account ← getAccount id .internalError
  let s ← get
  require (account.passwordValidator env s.config account.data.userName password false
    (handler = id))
  let (account', r) := account.setAccountPassword env s.config password (handler = id)
  updateAccount id fun _ _ => account'
  require r
  updateWithinMinPasswordDaysStatus env

/-- `history_password:update` for the current password of an account. -/
def Account.updateHistory (cfg : Config) (a : Account) : Account :=
  { a with
    history := History.update a.data.password a.data.kdfPassword cfg.historyPasswordCount a.history }

/-- `update_history_password_list`. -/
def updateHistoryPasswordList : M Unit :=
  modify fun s =>
    { s with accounts := s.accounts.map fun _ a => (a.updateHistory s.config) }

/-- `AccountService:set_history_password_count`. -/
def setHistoryPasswordCount (count : ℕ) : M Unit := do
  let s ← get
  refuse (s.config.maxHistoryPasswordCount < count) .propertyValueOutOfRange
  modify fun s => { s with config := { s.config with historyPasswordCount := count } }
  updateHistoryPasswordList

end BmcAccount
