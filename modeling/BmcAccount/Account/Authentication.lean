import BmcAccount.Account.Emergency

/-!
# Authentication of local accounts

The four entry points through which a local account is authenticated: by name and password,
by IPMI in the same way, and by the authentication codes of RMCP+ and RMCP. Each of them has
its own list of checks. An account can be restricted by the age of its password, by login
rules and by its login interfaces; the emergency account is to be exempt from these.

Every refusal carries the reason for it, which the source writes to its log; the messages it
returns are coarser.
-/

namespace BmcAccount

open Raise

/-- Why an authentication is refused. -/
inductive Reason where
  | userName
  | passwordLength
  | unknownUser
  | locked
  | password
  | disabled
  | loginRule
  | loginInterface
  | noAccess
  | noPrivilege
  | passwordExpired
  | address
  | accountId
  | internal
deriving DecidableEq

/-- The refusal is by the age of the password, a login rule or the login interfaces. -/
def Reason.isRestriction : Reason → Bool
  | .loginRule | .loginInterface | .passwordExpired => true
  | _ => false

/-- What an authentication sees of the rest of the system. -/
structure AuthEnv where
  env : Env
  /-- `base_check_user_name`. -/
  baseCheckUserName : String → Bool
  /-- The verdict of the login rule collection on a mask of rules and an address. -/
  loginRules : ℕ → String → Bool
  /-- The codes for the request at hand; making them may raise. -/
  rmcp20Codes : Account → Option (String × String × String)
  rmcp15Code : Account → Option String

/-- Where a request comes from. -/
structure AuthCtx where
  clientAddr : Option String
  interface : Option String

/-- What else `authenticate` is to do. -/
structure ExtConfig where
  isAuthPassword : Bool
  recordLoginInfo : Bool
  updateActiveTime : Bool

/-- Programs of the authentication service. -/
abbrev AuthM (α : Type) : Type := Prog Reason State α

namespace Account

/-- `check_login_rule` of an account object; classes without rules refuse. -/
def checkLoginRule (auth : AuthEnv) (ip : String) (a : Account) : Bool :=
  match a.cls with
  | .localAccount | .oemAccount | .vncAccount => auth.loginRules a.data.loginRuleIds ip
  | _ => false

/-- `__auth_password`: the password hashed with the salt of the stored hash. -/
def authPassword (env : Env) (password : String) (a : Account) : Bool :=
  match History.saltOf a.data.password with
  | none => false
  | some salt => env.crypt password salt == a.data.password

/-- `test_password_operation`: the IPMI password is used where there is one. -/
def testPasswordOperation (env : Env) (password : String) (a : Account) : Option Bool :=
  match a.data.ipmiPassword.getD "" with
  | "" => some (a.authPassword env password)
  | cipher => (env.decryptPassword cipher).map (· == password)

/-- `user_judge_priv_and_enable_valid`. -/
def userJudgePrivAndEnableValid (a : Account) : Bool :=
  a.data.enabled && IpmiPrivilege.user.value ≤ a.getIpmiUserPrivilege.value
    && a.getIpmiUserPrivilege.value ≤ IpmiPrivilege.admin.value

/-- The IPMI interface is open to the account. -/
def ipmiAllowed (a : Account) : Bool :=
  a.data.loginInterface &&& LoginInterface.ipmi.value = LoginInterface.ipmi.value

end Account

/-- `AccountCollection:check_login_rule`: the emergency account passes. -/
def State.checkLoginRule (s : State) (auth : AuthEnv) (id : ℕ) (a : Account) (ip : String) : Bool :=
  s.checkIsEmergencyUser id || a.checkLoginRule auth ip

/-- `get_account_by_name`, with the account. -/
def State.findAccount (s : State) (order : List ℕ) (name : String) : Option (ℕ × Account) :=
  (s.getAccountByName order name).bind fun id => (s.accounts.lookup id).map fun a => (id, a)

/-- `record_login_time_ip` and `record_last_login_interface`, not yet written to the row. -/
def recordLogin (env : Env) (id : ℕ) (ip : Option String) (interface : Option LoginInterface) :
    AuthM Unit :=
  modify (State.modifyAccount id fun a =>
    { a with tmpLastLogin :=
      { lastLoginTime := if ip.isSome then some env.now else a.tmpLastLogin.lastLoginTime
        lastLoginIP := ip.or a.tmpLastLogin.lastLoginIP
        lastLoginInterface := interface.or a.tmpLastLogin.lastLoginInterface } })

/-- `ext_record_operation`. -/
def extRecordOperation (auth : AuthEnv) (ctx : AuthCtx) (ext : ExtConfig) (id : ℕ) :
    AuthM Unit := do
  onlyIf ext.recordLoginInfo
    (recordLogin auth.env id ctx.clientAddr (ctx.interface.bind LoginInterface.ofName))
  onlyIf ext.updateActiveTime (modify fun s =>
    s.modifyAccount id (Account.updateInactiveUserStartTime auth.env s.config))

/-- The check of the login interface of a request, if it has one. -/
def checkLoginInterface (ctx : AuthCtx) (account : Account) : AuthM Unit :=
  match ctx.interface with
  | none => pure ()
  | some interfaceName =>
    match LoginInterface.ofName interfaceName with
    | none => throw .internal
    | some interface =>
      refuse (interface.value &&& account.data.loginInterface = 0) .loginInterface

/-- `check_account_login_info`. -/
def checkAccountLoginInfo (auth : AuthEnv) (ctx : AuthCtx) (id : ℕ) (account : Account) :
    AuthM Unit := do
  let s ← get
  if s.checkIsEmergencyUser id then pure ()
  else do
    refuse (ctx.clientAddr.any fun ip => !s.checkLoginRule auth id account ip) .loginRule
    checkLoginInterface ctx account

/-- `authenticate`; returns the account as it was found. -/
def authenticate (auth : AuthEnv) (order : List ℕ) (ctx : AuthCtx) (name password : String)
    (ext : ExtConfig) : AuthM (ℕ × Account) := do
  refuse (!auth.baseCheckUserName name) .userName
  refuse (ext.isAuthPassword && (password.utf8ByteSize < 1 || 512 < password.utf8ByteSize))
    .passwordLength
  let s ← get
  match s.findAccount order name with
  | none => throw .unknownUser
  | some (id, account) => do
    refuse account.data.locked .locked
    refuse (ext.isAuthPassword && !account.authPassword auth.env password) .password
    refuse (!account.data.enabled) .disabled
    checkAccountLoginInfo auth ctx id account
    refuse (account.data.roleId = RoleType.noAccess.value) .noAccess
    extRecordOperation auth ctx ext id
    pure (id, account)

/-- `ipmi_local_authenticate`; returns the IPMI privilege. -/
def ipmiLocalAuthenticate (auth : AuthEnv) (order : List ℕ) (name password : String) :
    AuthM IpmiPrivilege := do
  let s ← get
  match s.findAccount order name with
  | none => throw .unknownUser
  | some (_, account) => do
    refuse account.data.locked .locked
    match account.testPasswordOperation auth.env password with
    | none => throw .internal
    | some ok => do
      refuse (!ok) .password
      refuse (!account.userJudgePrivAndEnableValid) .noPrivilege
      refuse (account.data.passwordExpiration = 0) .passwordExpired
      pure account.getIpmiUserPrivilege

/-- The restrictions that `gen_rmcp20_auth_code` applies to accounts other than the emergency
account. -/
def checkRmcp20Restrictions (auth : AuthEnv) (id : ℕ) (account : Account) (ip : Option String) :
    AuthM Unit := do
  let s ← get
  if s.checkIsEmergencyUser id then pure ()
  else do
    refuse (ip.any fun ip => !s.checkLoginRule auth id account ip) .loginRule
    refuse (!account.ipmiAllowed) .loginInterface
    refuse (account.data.passwordExpiration = 0) .passwordExpired

/-- `gen_rmcp20_auth_code`. -/
def genRmcp20AuthCode (auth : AuthEnv) (order : List ℕ) (ctx : AuthCtx) (name : String)
    (ip : Option String) : AuthM (String × String × String) := do
  refuse (!auth.baseCheckUserName name) .userName
  let s ← get
  match s.findAccount order name with
  | none => throw .unknownUser
  | some (id, account) => do
    refuse account.data.locked .locked
    refuse (!account.data.enabled) .disabled
    checkRmcp20Restrictions auth id account ip
    recordLogin auth.env id ctx.clientAddr (some .ipmi)
    match auth.rmcp20Codes account with
    | none => throw .internal
    | some codes => pure codes

/-- `gen_rmcp15_auth_code`. -/
def genRmcp15AuthCode (auth : AuthEnv) (ctx : AuthCtx) (id : ℕ) : AuthM String := do
  match ctx.clientAddr with
  | none => throw .address
  | some ip => do
    refuse (id < minUserNum || maxUserNum < id) .accountId
    let s ← get
    match s.accounts.lookup id with
    | none => throw .unknownUser
    | some account => do
      refuse account.data.locked .locked
      refuse (!account.data.enabled) .disabled
      refuse (!s.checkLoginRule auth id account ip) .loginRule
      refuse (!account.ipmiAllowed) .loginInterface
      recordLogin auth.env id (some ip) (some .ipmi)
      match auth.rmcp15Code account with
      | none => throw .internal
      | some code => pure code

/-! ## Requests for the emergency account -/

inductive AuthRequest where
  | authenticate (name password : String) (ext : ExtConfig)
  | ipmiLocalAuthenticate (name password : String)
  | genRmcp20AuthCode (name : String) (ip : Option String)
  | genRmcp15AuthCode (id : ℕ)

/-- A request, what it sees of the rest of the system, and the order in which it finds the
accounts. -/
structure AuthCall where
  auth : AuthEnv
  order : List ℕ
  ctx : AuthCtx
  req : AuthRequest

namespace AuthCall

def prog (c : AuthCall) : AuthM Unit :=
  match c.req with
  | .authenticate name password ext => do
    let _ ← authenticate c.auth c.order c.ctx name password ext
  | .ipmiLocalAuthenticate name password => do
    let _ ← ipmiLocalAuthenticate c.auth c.order name password
  | .genRmcp20AuthCode name ip => do
    let _ ← genRmcp20AuthCode c.auth c.order c.ctx name ip
  | .genRmcp15AuthCode id => do
    let _ ← genRmcp15AuthCode c.auth c.ctx id

/-- The account that the request is for. -/
def target (c : AuthCall) (s : State) : Option ℕ :=
  match c.req with
  | .authenticate name _ _ => s.getAccountByName c.order name
  | .ipmiLocalAuthenticate name _ => s.getAccountByName c.order name
  | .genRmcp20AuthCode name _ => s.getAccountByName c.order name
  | .genRmcp15AuthCode id => some id

end AuthCall

/-- Whatever refuses the request, it is none of the restrictions. -/
abbrev Unrestricted {α : Type} (m : AuthM α) (s : State) : Prop :=
  Raises (fun r => r.isRestriction = false) m s

theorem Unrestricted.refuse_bind {α : Type} {b : Bool} {r : Reason} {f : Unit → AuthM α}
    {s : State} (hr : r.isRestriction = false) (hf : Unrestricted (f ()) s) :
  Unrestricted (refuse b r >>= f) s
  := Raises.refuse_bind (fun _ => hr) fun _ => hf

/-- No request for the emergency account is refused because of the age of its password, its
login rules or its login interfaces. -/
def State.ExemptsEmergency (s : State) : Prop :=
  s.config.emergencyLoginAccountId ≠ 0 → ∀ c : AuthCall,
    c.target s = some s.config.emergencyLoginAccountId →
    Unrestricted c.prog s

/-- The password has not expired and the IPMI interface is open. -/
def Account.Exempt (a : Account) : Prop :=
  a.data.passwordExpiration ≠ 0 ∧ a.ipmiAllowed = true

section Exempt

variable {auth : AuthEnv} {s : State} {id : ℕ} {a : Account}

theorem findAccount_eq {order : List ℕ} {name : String} (ha : s.accounts.lookup id = some a)
    (hname : s.getAccountByName order name = some id) :
  s.findAccount order name = some (id, a)
  := by
  unfold State.findAccount
  rw [hname, Option.bind_some, ha, Option.map_some]

theorem raises_recordLogin {φ : Reason → Prop} {ip : Option String}
    {interface : Option LoginInterface} :
  Raises φ (recordLogin auth.env id ip interface) s
  := Raises.modify

theorem raises_extRecordOperation {φ : Reason → Prop} {ctx : AuthCtx} {ext : ExtConfig} :
  Raises φ (extRecordOperation auth ctx ext id) s
  := by
  unfold extRecordOperation
  apply Raises.bind
  · cases ext.recordLoginInfo with
    | false => exact Raises.pure
    | true => exact raises_recordLogin
  · intro _ _ _
    cases ext.updateActiveTime with
    | false => exact Raises.pure
    | true => exact Raises.modify

theorem raises_authenticate {order : List ℕ} {ctx : AuthCtx} {name password : String}
    {ext : ExtConfig} (ha : s.accounts.lookup id = some a)
    (hid : s.checkIsEmergencyUser id = true) (hname : s.getAccountByName order name = some id) :
  Unrestricted (authenticate auth order ctx name password ext) s
  := by
  unfold authenticate
  apply Unrestricted.refuse_bind rfl
  apply Unrestricted.refuse_bind rfl
  apply Raises.get_bind
  rw [findAccount_eq ha hname]
  apply Unrestricted.refuse_bind rfl
  apply Unrestricted.refuse_bind rfl
  apply Unrestricted.refuse_bind rfl
  apply Raises.bind
  · unfold checkAccountLoginInfo
    apply Raises.get_bind
    rw [if_pos hid]
    exact Raises.pure
  · intro _ _ _
    apply Unrestricted.refuse_bind rfl
    apply Raises.bind
    · exact raises_extRecordOperation
    · intro _ _ _
      exact Raises.pure

theorem raises_ipmiLocalAuthenticate {order : List ℕ} {name password : String}
    (ha : s.accounts.lookup id = some a) (hexpiration : a.data.passwordExpiration ≠ 0)
    (hname : s.getAccountByName order name = some id) :
  Unrestricted (ipmiLocalAuthenticate auth order name password) s
  := by
  unfold ipmiLocalAuthenticate
  apply Raises.get_bind
  rw [findAccount_eq ha hname]
  apply Unrestricted.refuse_bind rfl
  cases a.testPasswordOperation auth.env password with
  | none => exact Raises.throw rfl
  | some ok =>
    apply Unrestricted.refuse_bind rfl
    apply Unrestricted.refuse_bind rfl
    apply Raises.refuse_bind
    · intro h
      exact absurd (of_decide_eq_true h) hexpiration
    · intro _
      exact Raises.pure

theorem raises_genRmcp20AuthCode {order : List ℕ} {ctx : AuthCtx} {name : String}
    {ip : Option String} (ha : s.accounts.lookup id = some a)
    (hid : s.checkIsEmergencyUser id = true) (hname : s.getAccountByName order name = some id) :
  Unrestricted (genRmcp20AuthCode auth order ctx name ip) s
  := by
  unfold genRmcp20AuthCode
  apply Unrestricted.refuse_bind rfl
  apply Raises.get_bind
  rw [findAccount_eq ha hname]
  apply Unrestricted.refuse_bind rfl
  apply Unrestricted.refuse_bind rfl
  apply Raises.bind
  · unfold checkRmcp20Restrictions
    apply Raises.get_bind
    rw [if_pos hid]
    exact Raises.pure
  · intro _ _ _
    apply Raises.bind
    · exact raises_recordLogin
    · intro _ _ _
      cases auth.rmcp20Codes a with
      | none => exact Raises.throw rfl
      | some codes => exact Raises.pure

theorem raises_genRmcp15AuthCode {ctx : AuthCtx} (ha : s.accounts.lookup id = some a)
    (hid : s.checkIsEmergencyUser id = true) (hipmi : a.ipmiAllowed = true) :
  Unrestricted (genRmcp15AuthCode auth ctx id) s
  := by
  unfold genRmcp15AuthCode
  cases ctx.clientAddr with
  | none => exact Raises.throw rfl
  | some ip =>
    apply Unrestricted.refuse_bind rfl
    apply Raises.get_bind
    rw [ha]
    apply Unrestricted.refuse_bind rfl
    apply Unrestricted.refuse_bind rfl
    apply Raises.refuse_bind
    · intro h
      simp [State.checkLoginRule, hid] at h
    intro _
    apply Raises.refuse_bind
    · intro h
      simp [hipmi] at h
    intro _
    apply Raises.bind
    · exact raises_recordLogin
    · intro _ _ _
      cases auth.rmcp15Code a with
      | none => exact Raises.throw rfl
      | some code => exact Raises.pure

end Exempt

/-- The exemption holds as long as the emergency account has an unexpired password and an open
IPMI interface. -/
theorem exemptsEmergency_of_exempt {s : State} {a : Account}
    (ha : s.accounts.lookup s.config.emergencyLoginAccountId = some a) (h : a.Exempt) :
  s.ExemptsEmergency
  := by
  intro _ c htarget
  have hid : s.checkIsEmergencyUser s.config.emergencyLoginAccountId = true :=
    decide_eq_true rfl
  obtain ⟨auth, order, ctx, req⟩ := c
  cases req with
  | authenticate name password ext =>
    apply Raises.bind (raises_authenticate ha hid htarget)
    intro _ _ _
    exact Raises.pure
  | ipmiLocalAuthenticate name password =>
    apply Raises.bind (raises_ipmiLocalAuthenticate ha h.1 htarget)
    intro _ _ _
    exact Raises.pure
  | genRmcp20AuthCode name ip =>
    apply Raises.bind (raises_genRmcp20AuthCode ha hid htarget)
    intro _ _ _
    exact Raises.pure
  | genRmcp15AuthCode i =>
    obtain rfl := Option.some_inj.mp htarget
    apply Raises.bind (raises_genRmcp15AuthCode ha hid h.2)
    intro _ _ _
    exact Raises.pure

end BmcAccount
